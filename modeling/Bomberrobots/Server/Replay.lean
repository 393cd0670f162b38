import Bomberrobots.Server.Safety

/-! # Replaying the turn log

An observer applies the events of a game to an empty board. When a turn is broadcast the
observer knows the board of the server; inside a turn it lacks the robots that the server
is about to place again.
-/

namespace Bomberrobots

/-- What the events of a game are about. -/
@[ext]
structure Board (β : Type) where
  robots : StdMap PlayerId Position
  blocks : β
  bombs : StdMap BombId Position

namespace Board

variable {β : Type} [PositionSet β]

def empty : Board β := ⟨∅, PositionSet.empty, ∅⟩

def apply (b : Board β) : Event → Board β
  | .bombPlaced id position => { b with bombs := b.bombs.insert id position }
  | .bombExploded id robotsDestroyed blocksDestroyed =>
    { robots := robotsDestroyed.foldl (fun robots id => robots.erase id) b.robots
      blocks := blocksDestroyed.foldl PositionSet.erase b.blocks
      bombs := b.bombs.erase id }
  | .playerMoved id position => { b with robots := b.robots.insert id position }
  | .blockPlaced position => { b with blocks := PositionSet.insert b.blocks position }

def replay (events : List Event) : Board β := events.foldl apply empty

variable {b : Board β}

theorem foldl_movedEvent {robots : List (PlayerId × Position)} :
    (robots.map GameEngine.movedEvent).foldl apply b =
      { b with robots := b.robots.assign robots } := by
  induction robots generalizing b with
  | nil => rfl
  | cons robot robots ih => exact ih

theorem foldl_blockPlaced {blocks : List Position} :
    (blocks.map Event.blockPlaced).foldl apply b =
      { b with blocks := blocks.foldl PositionSet.insert b.blocks } := by
  induction blocks generalizing b with
  | nil => rfl
  | cons pos blocks ih => exact ih

theorem foldl_explodedEvent {e : GameEngine β} {bombs : List (BombId × Bomb)} :
    (bombs.map e.explodedEvent).foldl apply b =
      { robots := (bombs.flatMap fun entry => e.blastRobots entry.2.position).foldl
          (fun robots id => robots.erase id) b.robots
        blocks := (bombs.flatMap fun entry => e.blastBlocks entry.2.position).foldl
          PositionSet.erase b.blocks
        bombs := (bombs.map Prod.fst).foldl (fun bombs id => bombs.erase id) b.bombs } := by
  induction bombs generalizing b with
  | nil => rfl
  | cons entry bombs ih =>
    rw [List.map_cons, List.foldl_cons, ih]
    simp [apply, GameEngine.explodedEvent]

end Board

namespace GameEngine

open Board

variable {β : Type} {e : GameEngine β} {b : Board β} {gone : StdSet PlayerId}

def board (e : GameEngine β) : Board β :=
  ⟨e.playersPositions, e.blocksPositions, e.bombs.map fun _ bomb => bomb.position⟩

/-- A board agrees with the engine but for the robots that are gone. -/
structure Tracks (b : Board β) (e : GameEngine β) (gone : StdSet PlayerId) : Prop where
  robots : ∀ id : PlayerId, b.robots[id]? = if id ∈ gone then none else e.playersPositions[id]?
  blocks : b.blocks = e.blocksPositions
  bombs : ∀ id : BombId, b.bombs[id]? = e.bombs[id]?.map Bomb.position

theorem Tracks.eq_board (h : Tracks b e ∅) : b = e.board := by
  refine Board.ext ?_ h.blocks ?_
  · ext id : 1
    rw [h.robots id, if_neg (by simp)]
    rfl
  · ext id : 1
    rw [h.bombs id, board, Std.ExtTreeMap.getElem?_map]

variable [PositionSet β]

namespace Tracks

theorem bombPlaced {pos : Position} (h : Tracks b e gone) (hn : e.nextBombId ∉ e.bombs) :
    Tracks (b.apply (.bombPlaced e.nextBombId pos)) (e.bombPlaced pos) gone where
  robots := h.robots
  blocks := h.blocks
  bombs id := by
    simp only [Board.apply, GameEngine.bombPlaced, Std.ExtTreeMap.getElem?_insert,
      Std.ExtTreeMap.getElem?_insertIfNew, Std.LawfulEqCmp.compare_eq_iff_eq]
    by_cases hid : e.nextBombId = id
    · subst hid
      simp [hn]
    · simp [hid, h.bombs]

theorem blockPlaced {pos : Position} (h : Tracks b e gone) :
    Tracks (b.apply (.blockPlaced pos)) (e.blockPlaced pos) gone where
  robots := h.robots
  blocks := by
    rw [Board.apply, h.blocks]
    rfl
  bombs := h.bombs

theorem moved {id : PlayerId} {pos : Position} (h : Tracks b e gone) (hid : id ∉ gone) :
    Tracks (b.apply (.playerMoved id pos)) (e.moved id pos) gone where
  robots k := by
    simp only [Board.apply, GameEngine.moved, Std.ExtTreeMap.getElem?_insert,
      Std.LawfulEqCmp.compare_eq_iff_eq]
    by_cases hk : id = k
    · subst hk
      simp [hid]
    · simp [hk, h.robots]
  blocks := h.blocks
  bombs := h.bombs

theorem respawned {robots : List (PlayerId × Position)} {random : Random}
    (h : Tracks b e e.currentPlayersToDestroy)
    (hr : robots.map Prod.fst = e.currentPlayersToDestroy.toList) :
    Tracks ((robots.map movedEvent).foldl Board.apply b) (e.respawned robots random) ∅ := by
  rw [foldl_movedEvent]
  refine ⟨?_, h.blocks, h.bombs⟩
  intro id
  rw [if_neg (by simp)]
  apply Std.ExtTreeMap.getElem?_assign_congr
  intro hid
  rw [hr, Std.ExtTreeSet.mem_toList] at hid
  rw [h.robots id, if_neg hid]

theorem opened (h : Tracks b e ∅) (he : e.currentBlocksToErase = [])
    (hd : e.currentPlayersToDestroy = ∅) :
    Tracks (((dueBombs e.bombs.toList).map e.explodedEvent).foldl Board.apply b) e.opened
      e.opened.currentPlayersToDestroy := by
  rw [foldl_explodedEvent]
  constructor
  · intro id
    have hgone : id ∈ e.opened.currentPlayersToDestroy ↔ id ∈ e.dueRobots e.bombs.toList := by
      simp only [GameEngine.opened, Std.ExtTreeSet.mem_foldl_insert, hd]
      simp
    have hsame : e.opened.playersPositions = e.playersPositions := rfl
    rw [Std.ExtTreeMap.getElem?_foldl_erase, h.robots id, hsame]
    by_cases hid : id ∈ (dueBombs e.bombs.toList).flatMap fun entry =>
        e.blastRobots entry.2.position
    · rw [if_pos hid, if_pos (hgone.mpr hid)]
    · rw [if_neg hid, if_neg (fun hm => hid (hgone.mp hm)), if_neg (by simp)]
  · simp only [h.blocks, GameEngine.opened, he, dueBlocks, List.nil_append]
  · intro id
    rw [Std.ExtTreeMap.getElem?_foldl_erase, h.bombs id]
    exact map_bombs_opened (f := fun pos => pos)

end Tracks

end GameEngine

namespace Server

open GameEngine Board

variable {β : Type}

/-- The robots that an observer lacks, and that the server places again at the end of the turn. -/
def gone (s : Server β) : StdSet PlayerId :=
  if s.point.sent = 1 then ∅ else s.engine.currentPlayersToDestroy

variable {s s' : Server β}

theorem gone_of_sent (h : s.point.sent = 1) : s.gone = ∅ := if_pos h

theorem gone_of_unsent (h : s.point.sent = 0) : s.gone = s.engine.currentPlayersToDestroy :=
  if_neg (by simp [h])

theorem gone_withHandler {e : GameEngine β} {point point' : Point} {handler : ServerTcpHandler}
    (h : point'.sent = point.sent) :
    gone (⟨e.withHandler handler, point'⟩ : Server β) = gone ⟨e, point⟩ := by
  simp only [gone, h]
  rfl

variable [PositionSet β] {p : ServerParameters} {env : Env}

/-- The events logged so far lead to the board of the server, but for the robots that are gone. -/
def Tracked (s : Server β) : Prop :=
  s.engine.gameplayStarted = true → Tracks (replay (allEvents s.engine.turns)) s.engine s.gone

theorem replay_logEvents {turns : List TurnInfo} {k : ℕ} {events : List Event}
    (h : k + 1 = turns.length) :
    (replay (allEvents (logEvents turns k events)) : Board β) =
      events.foldl Board.apply (replay (allEvents turns)) := by
  rw [allEvents_logEvents h, replay, List.foldl_append]
  rfl

theorem Played.tracked {msgs : List ServerMessage} (h : Played env s s' msgs) (ht : Tracked s) :
    Tracked s' := by
  cases h with
  | @still e point point' handler hp =>
    intro hs
    have hold := ht hs
    rw [gone_withHandler (hp hs)]
    exact ⟨hold.robots, hold.blocks, hold.bombs⟩
  | joined hl hlt hn => exact fun hs => Bool.noConfusion (hl.started.symm.trans hs)
  | @started e e' i player sent hl hn hg =>
    intro hs
    obtain ⟨robots, blocks, hb⟩ := hl.begun hg
    rw [gone_of_unsent sent_nextClient]
    simp only [hb.destroy, replay, hb.events, List.foldl_append, foldl_movedEvent,
      foldl_blockPlaced]
    refine ⟨fun id => ?_, hb.board.symm, fun id => ?_⟩
    · rw [if_neg (by simp), hb.positions]
      rfl
    · rw [hb.bombs]
      rfl
  | @acted e e' i msg hg hm hr hh =>
    intro hs
    have hold := ht hg.started
    rw [gone_of_unsent Point.sent_client] at hold
    rw [gone_of_unsent sent_nextClient]
    have hlen := hg.length.symm
    obtain ⟨-, rfl | ⟨id, pos, ha, -, rfl | rfl | ⟨pos', -, rfl⟩⟩⟩ := hh.gameplay hg
    · exact hold
    · simp only [GameEngine.bombPlaced, replay_logEvents hlen]
      exact hold.bombPlaced hg.nextBombId_not_mem
    · simp only [GameEngine.blockPlaced, replay_logEvents hlen]
      exact hold.blockPlaced
    · simp only [GameEngine.moved, replay_logEvents hlen]
      exact hold.moved (actingPlayer_eq_some.mp ha).2
  | @opened e handler hg hlt he hd =>
    intro hs
    have hold : Tracks (replay (allEvents e.turns)) (e.withHandler handler) ∅ := by
      have hold := ht hg.started
      rw [gone_of_sent Point.sent_top] at hold
      exact ⟨hold.robots, hold.blocks, hold.bombs⟩
    have hevents : (replay (allEvents (e.withHandler handler).opened.turns) : Board β) =
        ((dueBombs e.bombs.toList).map (e.withHandler handler).explodedEvent).foldl Board.apply
          (replay (allEvents e.turns)) := by
      rw [allEvents_opened, replay, List.foldl_append]
      rfl
    rw [gone_of_unsent Point.sent_poll, hevents]
    exact hold.opened he hd
  | @sent e robots random turn hg hr hc hturn =>
    intro hs
    have hold := ht hg.started
    rw [gone_of_unsent Point.sent_bottom] at hold
    rw [gone_of_sent Point.sent_broadcast]
    simp only [GameEngine.respawned, seeded, replay_logEvents hg.length.symm]
    exact hold.respawned hr
  | @closed e hg hlt =>
    intro hs
    have hold := ht hg.started
    rw [gone_of_sent Point.sent_broadcast] at hold
    rw [gone_of_sent Point.sent_top]
    exact ⟨hold.robots, hold.blocks, hold.bombs⟩
  | ended hg hlast => exact fun hs => Bool.noConfusion hs

theorem run_tracked {tr : List (Machine.Step (Server β) Env Sending)} (hc : 0 < p.playersCount)
    (h : (machine β p).Run tr s) : Tracked s :=
  run_played (I := fun _ s => Tracked s) hc h (fun hs => Bool.noConfusion hs)
    fun _ _ _ _ _ _ ht hs => hs.tracked ht

/--
Right after the broadcast of a turn, the events of the turns so far, applied to an empty
board, yield the positions, the blocks and the bombs of the server.
-/
theorem run_replay {tr : List (Machine.Step (Server β) Env Sending)} (h : (machine β p).Run tr s)
    (hp : s.point = .broadcast) :
    replay (allEvents (s.engine.turns.take (s.engine.currentTurn.toNat + 1))) =
      s.engine.board := by
  have hs := started_of_broadcast h hp
  have hc := playersCount_pos h hs
  have hg := (run_wf hc h).gameplay hs
  have ht := run_tracked hc h hs
  rw [gone_of_sent (by rw [hp, Point.sent_broadcast])] at ht
  rw [List.take_of_length_le hg.length.le]
  exact ht.eq_board

def bomber : List Env :=
  soloJoin ++ (pass true (.ready [1] ⟨none, []⟩ (some [1]))).take 29

theorem run_replay_bomber : ∃ tr s, (machine (StdSet Position) solo).Run tr s ∧
    s.engine.bombs.size = 1 ∧
    replay (allEvents (s.engine.turns.take (s.engine.currentTurn.toNat + 1))) =
      s.engine.board := by
  have hcheck : (machine (StdSet Position) solo).check bomber (fun _ s =>
      s.point = .broadcast ∧ s.engine.bombs.size = 1) = true := by decide +kernel
  obtain ⟨tr, s, h, htest⟩ := Machine.run_of_check hcheck
  obtain ⟨hp, hbombs⟩ := of_decide_eq_true htest
  exact ⟨tr, s, h, hbombs, run_replay h hp⟩

end Server

end Bomberrobots
