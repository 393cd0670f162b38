import Bomberrobots.Client.Follow
import Bomberrobots.Server.Lifecycle

/-! # The bombs and the blocks a client shows

A client places and removes bombs and blocks event by event, while the server erases what all
explosions of a turn have destroyed at once. Both end up with the same. The client never counts
its bombs down, so a bomb has the timer of the server only in the turn in which it is placed.
-/

namespace Bomberrobots

namespace GameInfo

open GameEngine

variable {β γ : Type} [PositionSet γ] {g : GameInfo γ} {events : List Event}

@[simp] theorem bombTimer_seen {event : Event} : (g.seen event).bombTimer = g.bombTimer := by
  cases event <;> rfl

@[simp] theorem bombTimer_foldl_seen : (events.foldl seen g).bombTimer = g.bombTimer := by
  induction events generalizing g with
  | nil => rfl
  | cons event events ih => rw [List.foldl_cons, ih, bombTimer_seen]

theorem bombs_foldl_seen (h : Bombless events) : (events.foldl seen g).bombs = g.bombs := by
  have hall : ∀ event ∈ events, event.placedBomb = none ∧ event.explodedBomb = none := by
    intro event he
    exact ⟨List.filterMap_eq_nil_iff.mp h.1 event he, List.filterMap_eq_nil_iff.mp h.2 event he⟩
  clear h
  induction events generalizing g with
  | nil => rfl
  | cons event events ih =>
    rw [List.forall_mem_cons] at hall
    rw [List.foldl_cons, ih hall.2]
    cases event with
    | bombPlaced id pos => cases hall.1.1
    | bombExploded id robots blocks => cases hall.1.2
    | _ => rfl

theorem bombs_foldl_explodedEvent {e : GameEngine β} [PositionSet β] {due : List (BombId × Bomb)} :
    ((due.map e.explodedEvent).foldl seen g).bombs =
      (due.map Prod.fst).foldl (fun bombs id => bombs.erase id) g.bombs := by
  induction due generalizing g with
  | nil => rfl
  | cons entry due ih => exact ih

/-- The client has the bombs of the server, all of them with the timer of a new bomb. -/
def ShowsBombs (g : GameInfo γ) (e : GameEngine β) : Prop :=
  ∀ id : BombId, g.bombs[id]? = e.bombs[id]?.map fun bomb => ⟨bomb.position, g.bombTimer⟩

namespace ShowsBombs

variable {e e' : GameEngine β}

theorem bombPlaced {pos : Position} (h : ShowsBombs g e) (hn : e.nextBombId ∉ e.bombs) :
    ShowsBombs (g.seen (.bombPlaced e.nextBombId pos)) (e.bombPlaced pos) := by
  intro id
  have hn' : e.nextBombId ∉ g.bombs := by
    rw [Std.ExtTreeMap.mem_iff_isSome_getElem?, h, Option.isSome_map,
      ← Std.ExtTreeMap.mem_iff_isSome_getElem?]
    exact hn
  simp only [seen, addBomb, GameEngine.bombPlaced, Std.ExtTreeMap.getElem?_insertIfNew, hn, hn',
    not_false_eq_true, and_true]
  split
  · rfl
  · exact h id

theorem bombless (h : ShowsBombs g e) (hb : Bombless events) (he : e'.bombs = e.bombs) :
    ShowsBombs (events.foldl seen g) e' := by
  intro id
  rw [bombs_foldl_seen hb, bombTimer_foldl_seen, he]
  exact h id

theorem opened [PositionSet β] (h : ShowsBombs g e) :
    ShowsBombs (((dueBombs e.bombs.toList).map e.explodedEvent).foldl seen g) e.opened := by
  intro id
  rw [bombs_foldl_explodedEvent, bombTimer_foldl_seen, Std.ExtTreeMap.getElem?_foldl_erase, h id]
  exact map_bombs_opened (f := fun pos => (⟨pos, g.bombTimer⟩ : Bomb))

end ShowsBombs

section Blocks

variable {g : GameInfo (StdSet Position)} {b : Board (StdSet Position)}

theorem foldl_erase_readPositionList {positions : List Position} {s : StdSet Position} :
    (PositionSet.toList (readPositionList positions : StdSet Position)).foldl PositionSet.erase s =
      positions.foldl PositionSet.erase s := by
  apply Std.ExtTreeSet.foldl_erase_congr
  intro pos
  change pos ∈ (positions.foldl Std.ExtTreeSet.insert ∅).toList ↔ _
  rw [Std.ExtTreeSet.mem_toList, Std.ExtTreeSet.mem_foldl_insert]
  simp

/-- A client has the blocks that the events leave on a board. -/
theorem blocks_foldl_seen_eq (h : g.blocks = b.blocks) :
    (events.foldl seen g).blocks = (events.foldl Board.apply b).blocks := by
  induction events generalizing g b with
  | nil => exact h
  | cons event events ih =>
    apply ih
    cases event with
    | bombExploded id robots blocks =>
      simp only [seen, Board.apply, foldl_erase_readPositionList, h]
    | blockPlaced pos => simp only [seen, addBlock, Board.apply, h]
    | _ => exact h

end Blocks

end GameInfo

namespace Server

open GameEngine GameInfo

variable {β γ : Type} [PositionSet β] [PositionSet γ] {p : ServerParameters} {s s' : Server β}
  {env : Env} {new : List ServerMessage} {c : Client γ}

def ShownBombs (c : Client γ) (s : Server β) : Prop :=
  s.engine.gameplayStarted = true →
    ShowsBombs ((allEvents s.engine.turns).foldl seen c.readGameStarted) s.engine

theorem Played.shownBombs (h : Played env s s' new) (hI : ShownBombs c s) : ShownBombs c s' := by
  cases h with
  | still hp => exact hI
  | joined hl hlt hn => exact fun hs => Bool.noConfusion (hl.started.symm.trans hs)
  | started hl hn hg =>
    intro _
    obtain ⟨robots, blocks, hb⟩ := hl.begun hg
    intro id
    rw [bombs_foldl_seen hb.bombless, hb.bombs]
    rfl
  | @acted e e' i msg hg hm hr hh =>
    intro _
    have hold := hI hg.started
    have hlog : ∀ event, ((allEvents (logEvents e.turns e.currentTurn.toNat [event])).foldl seen
        c.readGameStarted) = ((allEvents e.turns).foldl seen c.readGameStarted).seen event := by
      intro event
      rw [allEvents_logEvents hg.length.symm, List.foldl_append]
      rfl
    obtain ⟨-, rfl | ⟨id, pos, ha, -, rfl | rfl | ⟨pos', -, rfl⟩⟩⟩ := hh.gameplay hg
    · exact hold
    · simp only [GameEngine.bombPlaced, hlog]
      exact hold.bombPlaced hg.nextBombId_not_mem
    · simp only [GameEngine.blockPlaced, hlog]
      exact hold
    · simp only [GameEngine.moved, hlog]
      exact hold
  | @opened e handler hg hlt he hd =>
    intro _
    have hold : ShowsBombs ((allEvents e.turns).foldl seen c.readGameStarted)
        (e.withHandler handler) := hI hg.started
    rw [allEvents_opened, List.foldl_append]
    exact hold.opened
  | @sent e robots random turn hg hr hc hturn =>
    intro _
    rw [hg.allEvents_respawned, List.foldl_append]
    exact (hI hg.started).bombless bombless_movedEvent rfl
  | closed hg hlt => exact hI
  | ended hg hlast => exact fun hs => Bool.noConfusion hs

variable {tr : List (Machine.Step (Server β) Env Sending)} {before after : List ServerMessage}
  {players : StdMap PlayerId Player}

theorem run_shownBombs (h : (machine β p).Run tr s) (hp : s.point = .broadcast)
    (hb : broadcasts (Machine.log tr) = before ++ .gameStarted players :: after)
    (hlast : ∀ players', .gameStarted players' ∉ after) (hfull : c.lobbyInfo.players = players) :
    ∃ c', c.handleServerMessages (.gameStarted players :: after) = .ok c' ∧
      c'.gameInfo.bombTimer = c.lobbyInfo.bombTimer ∧ ShowsBombs c'.gameInfo s.engine := by
  have hs := started_of_broadcast h hp
  have hshown := run_played (I := fun _ s => ShownBombs c s) (playersCount_pos h hs) h
    (fun hs => Bool.noConfusion hs) fun _ _ _ _ _ _ hI hs => hs.shownBombs hI
  obtain ⟨-, c', turn, hread, hgame⟩ := run_follow h hp hb hlast hfull
  refine ⟨c', hread, ?_, ?_⟩
  · rw [hgame, bombTimer_foldl_seen]
    rfl
  · rw [hgame]
    exact hshown hs

section Agreement

variable {c : Client (StdSet Position)} {s : Server (StdSet Position)}
  {tr : List (Machine.Step (Server (StdSet Position)) Env Sending)}

/--
A client that knew the players in the lobby has the bombs and the blocks of the server after
every turn.
-/
theorem run_bombs_blocks (h : (machine (StdSet Position) p).Run tr s) (hp : s.point = .broadcast)
    (hb : broadcasts (Machine.log tr) = before ++ .gameStarted players :: after)
    (hlast : ∀ players', .gameStarted players' ∉ after) (hfull : c.lobbyInfo.players = players) :
    ∃ c', c.handleServerMessages (.gameStarted players :: after) = .ok c' ∧
      (c'.gameInfo.bombs.map fun _ bomb => bomb.position) =
        (s.engine.bombs.map fun _ bomb => bomb.position) ∧
      c'.gameInfo.blocks = s.engine.blocksPositions := by
  have hs := started_of_broadcast h hp
  obtain ⟨c', hread, -, hbombs⟩ := run_shownBombs h hp hb hlast hfull
  refine ⟨c', hread, ?_, ?_⟩
  · ext id : 1
    rw [Std.ExtTreeMap.getElem?_map, Std.ExtTreeMap.getElem?_map, hbombs id, Option.map_map]
    rfl
  · obtain ⟨-, c'', turn, hread', hgame⟩ := run_follow h hp hb hlast hfull
    obtain rfl := Except.ok.inj (hread.symm.trans hread')
    have htracks := run_tracked (playersCount_pos h hs) h hs
    rw [hgame, ← htracks.blocks]
    exact blocks_foldl_seen_eq rfl

def builder : List Env :=
  soloJoin ++ pass true (.ready [1] ⟨none, []⟩ (some [1])) ++
    (pass true (.ready [1] ⟨none, []⟩ (some [2]))).dropLast

theorem run_bombs_blocks_builder : ∃ tr s c', (machine (StdSet Position) solo).Run tr s ∧
    s.engine.bombs.size = 1 ∧ s.engine.blocksPositions.size = 1 ∧
    watcher.handleServerMessages (.gameStarted s.engine.players :: s.engine.turns.map .turn) =
      .ok c' ∧ (c'.gameInfo.bombs.map fun _ bomb => bomb.position) =
        (s.engine.bombs.map fun _ bomb => bomb.position) ∧
      c'.gameInfo.blocks = s.engine.blocksPositions := by
  have hcheck : (machine (StdSet Position) solo).check builder (fun tr s =>
      decide (SoloGame tr s) && (s.engine.bombs.size = 1 && s.engine.blocksPositions.size = 1)) =
        true := by
    decide +kernel
  obtain ⟨tr, s, h, htest⟩ := Machine.run_of_check hcheck
  simp only [Bool.and_eq_true, decide_eq_true_eq] at htest
  obtain ⟨⟨hp, hfull, hb⟩, hbomb, hblock⟩ := htest
  obtain ⟨c', hread, hbombs, hblocks⟩ := run_bombs_blocks h hp hb (by simp) hfull
  exact ⟨tr, s, c', h, hbomb, hblock, hread, hbombs, hblocks⟩

end Agreement

/-- Every bomb that the client shows has the timer of the bomb with its id on the server. -/
def SameTimers (g : GameInfo γ) (e : GameEngine β) : Prop :=
  ∀ (id : BombId) (shown : Bomb), g.bombs[id]? = some shown →
    ∃ bomb : Bomb, e.bombs[id]? = some bomb ∧ shown.timer = bomb.timer

theorem timer_eq_iff {id : BombId} {bomb : Bomb} (hT : 0 < p.bombTimer)
    (h : (machine β p).Run tr s) (hs : s.engine.gameplayStarted = true)
    (hbomb : s.engine.bombs[id]? = some bomb) : bomb.timer = p.bombTimer ↔
      ∃ pos, InTurn s.engine.turns s.engine.currentTurn.toNat (.bombPlaced id pos) := by
  obtain ⟨hparams, hg⟩ := run_gameplay h hs
  have hlife := run_lifecycle hT h hs
  obtain ⟨-, -, t, hplaced, hsum⟩ := hlife.live id bomb hbomb
  rw [hparams] at hsum
  constructor
  · intro hfull
    have ht : t = s.engine.currentTurn.toNat := by
      rw [hfull] at hsum
      omega
    exact ⟨_, ht ▸ hplaced⟩
  · rintro ⟨pos, hpos⟩
    obtain ⟨rfl, -⟩ := hlife.unique hg hplaced hpos
    exact UInt16.toNat_inj.mp (by omega)

/--
A client that has been told the timer shows the timers of the server after a turn exactly if
all bombs on the board have been placed in that turn.
-/
theorem run_timers_iff (hT : 0 < p.bombTimer) (h : (machine β p).Run tr s)
    (hp : s.point = .broadcast)
    (hb : broadcasts (Machine.log tr) = before ++ .gameStarted players :: after)
    (hlast : ∀ players', .gameStarted players' ∉ after) (hfull : c.lobbyInfo.players = players)
    (htimer : c.lobbyInfo.bombTimer = p.bombTimer) :
    ∃ c', c.handleServerMessages (.gameStarted players :: after) = .ok c' ∧
      (SameTimers c'.gameInfo s.engine ↔ ∀ id ∈ s.engine.bombs, ∃ pos,
        InTurn s.engine.turns s.engine.currentTurn.toNat (.bombPlaced id pos)) := by
  have hs := started_of_broadcast h hp
  obtain ⟨c', hread, hclient, hbombs⟩ := run_shownBombs h hp hb hlast hfull
  rw [htimer] at hclient
  refine ⟨c', hread, ?_⟩
  constructor
  · intro hall id hid
    obtain ⟨bomb, hbomb⟩ := Std.ExtTreeMap.mem_iff_exists_getElem?.mp hid
    have hshown := hbombs id
    rw [hbomb] at hshown
    obtain ⟨bomb', hbomb', hsame⟩ := hall id _ hshown
    obtain rfl := Option.some.inj (hbomb.symm.trans hbomb')
    exact (timer_eq_iff hT h hs hbomb).mp (hsame.symm.trans hclient)
  · intro hall id shown hshown
    rw [hbombs id] at hshown
    obtain ⟨bomb, hbomb, rfl⟩ := Option.map_eq_some_iff.mp hshown
    have hplaced := hall id (Std.ExtTreeMap.mem_iff_exists_getElem?.mpr ⟨bomb, hbomb⟩)
    exact ⟨bomb, hbomb, hclient.trans ((timer_eq_iff hT h hs hbomb).mpr hplaced).symm⟩

def guest : Client (StdSet Position) :=
  { Client.init with lobbyInfo := (LobbyInfo.new [] 1 3 3 3 1 2).addPlayer 0 nobody }

theorem run_timers_iff_bomber : ∃ tr s c', (machine (StdSet Position) solo).Run tr s ∧
    s.engine.bombs.size = 1 ∧
    guest.handleServerMessages (.gameStarted s.engine.players :: s.engine.turns.map .turn) =
      .ok c' ∧ SameTimers c'.gameInfo s.engine := by
  have hcheck : (machine (StdSet Position) solo).check bomber (fun tr s =>
      decide (SoloGame tr s) && (s.engine.bombs.keys = [0] &&
        (s.engine.turns[s.engine.currentTurn.toNat]?.any fun info =>
          placedIds info.events = [0]))) = true := by
    decide +kernel
  obtain ⟨tr, s, h, htest⟩ := Machine.run_of_check hcheck
  simp only [Bool.and_eq_true, decide_eq_true_eq, Option.any_eq_true] at htest
  obtain ⟨⟨hp, hfull, hb⟩, hkeys, info, hinfo, hplaced⟩ := htest
  obtain ⟨c', hread, hiff⟩ := run_timers_iff (c := guest) (by decide) h hp hb (by simp) hfull rfl
  have hsize : s.engine.bombs.size = 1 := by
    rw [← Std.ExtTreeMap.length_keys, hkeys]
    rfl
  refine ⟨tr, s, c', h, hsize, hread, hiff.mpr ?_⟩
  intro id hid
  rw [← Std.ExtTreeMap.mem_keys, hkeys, List.mem_singleton] at hid
  obtain ⟨event, he, hevent⟩ := List.mem_filterMap.mp (hplaced ▸ List.mem_singleton.mpr hid)
  cases event with
  | bombPlaced id' pos =>
    obtain rfl := Option.some.inj hevent
    exact ⟨pos, info, hinfo, he⟩
  | _ => cases hevent

/-- The only player places a bomb in turn 1, and nothing happens in turn 2. -/
def burning : List Env :=
  soloJoin ++ pass true (.ready [1] ⟨none, []⟩ (some [1])) ++
    (pass true (.ready [] ⟨none, []⟩ none)).dropLast

/-- Clients do not count down. -/
theorem exists_timer_ne : ¬ ∀ (p : ServerParameters)
    (tr : List (Machine.Step (Server (StdSet Position)) Env Sending)) (s : Server (StdSet Position))
    (c : Client (StdSet Position)) (before after : List ServerMessage)
    (players : StdMap PlayerId Player), 0 < p.bombTimer → (machine (StdSet Position) p).Run tr s →
    s.point = .broadcast → broadcasts (Machine.log tr) = before ++ .gameStarted players :: after →
    (∀ players', .gameStarted players' ∉ after) → c.lobbyInfo.players = players →
    c.lobbyInfo.bombTimer = p.bombTimer →
    ∃ c', c.handleServerMessages (.gameStarted players :: after) = .ok c' ∧
      SameTimers c'.gameInfo s.engine := by
  intro hall
  have hcheck : (machine (StdSet Position) solo).check burning (fun tr s =>
      decide (SoloGame tr s) &&
        match guest.handleServerMessages
          (.gameStarted s.engine.players :: s.engine.turns.map .turn) with
        | .ok c' => decide (c'.gameInfo.bombs[(0 : BombId)]?.map Bomb.timer = some 2 ∧
            s.engine.bombs[(0 : BombId)]?.map Bomb.timer = some 1)
        | .error _ => false) = true := by
    decide +kernel
  obtain ⟨tr, s, h, htest⟩ := Machine.run_of_check hcheck
  rw [Bool.and_eq_true, decide_eq_true_eq] at htest
  obtain ⟨⟨hp, hfull, hb⟩, htimers⟩ := htest
  obtain ⟨c', hread, hsame⟩ := hall solo tr s guest _ _ _ (by decide) h hp hb (by simp) hfull rfl
  rw [hread] at htimers
  obtain ⟨hclient, hserver⟩ := of_decide_eq_true htimers
  obtain ⟨shown, hshown, htwo⟩ := Option.map_eq_some_iff.mp hclient
  obtain ⟨bomb, hbomb, hone⟩ := Option.map_eq_some_iff.mp hserver
  obtain ⟨bomb', hbomb', heq⟩ := hsame 0 shown hshown
  obtain rfl := Option.some.inj (hbomb.symm.trans hbomb')
  rw [htwo, hone] at heq
  exact absurd heq (by decide)

end Server

end Bomberrobots
