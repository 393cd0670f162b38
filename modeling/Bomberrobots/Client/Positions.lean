import Bomberrobots.Client.Follow

/-! # The positions a client shows

A client places a robot only where it knows no position for it, so it misses every move.
As long as no robot moves to another field, it agrees with the server.
-/

namespace Bomberrobots

namespace Board

open GameEngine

variable {β : Type} [PositionSet β] {b : Board β} {events events' : List Event}

/-- The event does not put a robot on the board to another field. -/
def Admits (b : Board β) : Event → Prop
  | .playerMoved id position => b.robots[id]? = none ∨ b.robots[id]? = some position
  | _ => True

def AdmitsAll (b : Board β) : List Event → Prop
  | [] => True
  | event :: events => b.Admits event ∧ (b.apply event).AdmitsAll events

theorem admitsAll_append :
    b.AdmitsAll (events ++ events') ↔
      b.AdmitsAll events ∧ (events.foldl apply b).AdmitsAll events' := by
  induction events generalizing b with
  | nil => simp [AdmitsAll]
  | cons event events ih =>
    rw [List.cons_append, AdmitsAll, AdmitsAll, List.foldl_cons, ih, and_assoc]

theorem admitsAll_of_forall (h : ∀ event ∈ events, ∀ b : Board β, b.Admits event) :
    b.AdmitsAll events := by
  induction events generalizing b with
  | nil => trivial
  | cons event events ih =>
    exact ⟨h event List.mem_cons_self b, ih fun event' he => h event' (List.mem_cons_of_mem _ he)⟩

theorem admitsAll_movedEvent {robots : List (PlayerId × Position)}
    (hnd : (robots.map Prod.fst).Nodup) (ha : ∀ id ∈ robots.map Prod.fst, b.robots[id]? = none) :
    b.AdmitsAll (robots.map movedEvent) := by
  induction robots generalizing b with
  | nil => trivial
  | cons robot robots ih =>
    rw [List.map_cons, List.nodup_cons] at hnd
    refine ⟨.inl (ha robot.1 (by simp)), ih hnd.2 fun id hid => ?_⟩
    have hne : robot.1 ≠ id := by
      rintro rfl
      exact hnd.1 hid
    have hold := ha id (List.mem_cons_of_mem _ hid)
    simp [apply, movedEvent, Std.ExtTreeMap.getElem?_insert, hne, hold]

end Board

namespace GameInfo

open Board

variable {β γ : Type} [PositionSet β] [PositionSet γ] {b : Board β} {g : GameInfo γ}

theorem playerPositions_seen {event : Event} (h : g.playerPositions = b.robots)
    (ha : b.Admits event) : (g.seen event).playerPositions = (b.apply event).robots := by
  cases event with
  | playerMoved id position =>
    simp only [seen, changePlayerPosition, apply, h]
    ext k : 1
    rw [Std.ExtTreeMap.getElem?_insertIfNew, Std.ExtTreeMap.getElem?_insert]
    simp only [Std.LawfulEqCmp.compare_eq_iff_eq]
    by_cases hk : id = k
    · subst hk
      have hid : b.robots[id]? = none ∨ b.robots[id]? = some position := ha
      rcases hid with hid | hid
      · simp [Std.ExtTreeMap.mem_iff_isSome_getElem?, hid]
      · have hmem : id ∈ b.robots := Std.ExtTreeMap.mem_iff_exists_getElem?.mpr ⟨_, hid⟩
        rw [if_neg (by simp [hmem]), if_pos rfl, hid]
    · simp [hk]
  | bombExploded id robotsDestroyed blocksDestroyed => simp only [seen, apply, h]
  | _ => exact h

theorem playerPositions_foldl_seen {events : List Event} (h : g.playerPositions = b.robots)
    (ha : b.AdmitsAll events) :
    (events.foldl seen g).playerPositions = (events.foldl apply b).robots := by
  induction events generalizing g b with
  | nil => exact h
  | cons event events ih => exact ih (playerPositions_seen h ha.1) ha.2

end GameInfo

namespace Server

open GameEngine Board

variable {β γ : Type} [PositionSet β] [PositionSet γ] {p : ServerParameters} {s s' : Server β}
  {env : Env} {new : List ServerMessage}

/-- A player moves a robot to another field. -/
def Relocates (s : Server β) (env : Env) : Prop :=
  s.engine.gameplayStarted = true ∧ ∃ i d id pos,
    s.handledMessage env = some (i, .move d) ∧ s.engine.actingPlayer i = some id ∧
      s.engine.playersPositions[id]? = some pos ∧
      s.engine.checkPositionToMove (newPosition pos env.uninitialised d) = true ∧
      newPosition pos env.uninitialised d ≠ pos

theorem not_relocates (h : ∀ i d, s.handledMessage env ≠ some (i, .move d)) :
    ¬ Relocates s env := by
  rintro ⟨-, i, d, id, pos, hm, -⟩
  exact h i d hm

def Stationary (s : Server β) : Prop :=
  s.engine.gameplayStarted = true → (empty : Board β).AdmitsAll (allEvents s.engine.turns)

theorem Played.stationary (h : Played env s s' new) (hC : ¬ Relocates s env) (ht : Tracked s)
    (hI : Stationary s) : Stationary s' := by
  cases h with
  | still hp => exact hI
  | joined hl hlt hn => exact fun hs => Bool.noConfusion (hl.started.symm.trans hs)
  | @started e e' i player sent hl hn hg =>
    intro hs
    obtain ⟨robots, blocks, hb⟩ := hl.begun hg
    rw [hb.events, admitsAll_append]
    refine ⟨admitsAll_movedEvent ?_ (by simp [Board.empty]), admitsAll_of_forall ?_⟩
    · rw [hb.keys]
      exact Std.ExtTreeMap.nodup_keys
    · intro event he b
      obtain ⟨pos, -, rfl⟩ := List.mem_map.mp he
      trivial
  | @acted e e' i msg hg hm hr hh =>
    intro hs
    have hold := hI hg.started
    have hlen := hg.length.symm
    have hlog : ∀ event, (replay (allEvents e.turns) : Board β).Admits event →
        (empty : Board β).AdmitsAll
          (allEvents (logEvents e.turns e.currentTurn.toNat [event])) := by
      intro event he
      rw [allEvents_logEvents hlen, admitsAll_append]
      exact ⟨hold, he, trivial⟩
    cases hh with
    | late hs => exact hold
    | idle hj ha => exact hold
    | bomb ha hpos => exact hlog _ trivial
    | block ha hpos => exact hlog _ trivial
    | stay ha hpos hc => exact hold
    | @move id pos d ha hpos hc =>
      have hhandled : handledMessage ⟨e, .client i⟩ env = some (i, .move d) :=
        handledMessage_eq_some_iff.mpr ⟨rfl, hm, hr⟩
      have hsame : newPosition pos env.uninitialised d = pos := by
        by_contra hne
        exact hC ⟨hg.started, i, d, id, pos, hhandled, ha, hpos, hc, hne⟩
      have htracks := ht hg.started
      rw [gone_of_unsent Point.sent_client] at htracks
      refine hlog _ (.inr ?_)
      rw [hsame, htracks.robots id, if_neg (actingPlayer_eq_some.mp ha).2, hpos]
  | @opened e handler hg hlt he hd =>
    intro hs
    rw [allEvents_opened, admitsAll_append]
    refine ⟨hI hg.started, admitsAll_of_forall ?_⟩
    intro event he b
    obtain ⟨entry, -, rfl⟩ := List.mem_map.mp he
    trivial
  | @sent e robots random turn hg hr hc hturn =>
    intro hs
    have htracks := ht hg.started
    rw [gone_of_unsent Point.sent_bottom] at htracks
    rw [hg.allEvents_respawned, admitsAll_append]
    refine ⟨hI hg.started, admitsAll_movedEvent ?_ ?_⟩
    · rw [hr]
      exact Std.ExtTreeSet.nodup_toList
    · intro id hid
      rw [hr, Std.ExtTreeSet.mem_toList] at hid
      exact (htracks.robots id).trans (if_pos hid)
  | closed hg hlt => exact hI
  | ended hg hlast => exact fun hs => Bool.noConfusion hs

variable {tr : List (Machine.Step (Server β) Env Sending)} {c : Client γ}
  {before after : List ServerMessage} {players : StdMap PlayerId Player}

theorem run_stationary (hc : 0 < p.playersCount) (h : (machine β p).Run tr s)
    (hC : SinceStarted (fun s env => ¬ Relocates s env) tr) : Stationary s := by
  refine (run_played_since (I := fun s => Tracked s ∧ Stationary s) hc h hC ?_ ?_).2
  · intro tr s _ hlobby
    exact ⟨fun hs => Bool.noConfusion (hlobby.symm.trans hs),
      fun hs => Bool.noConfusion (hlobby.symm.trans hs)⟩
  · intro env s s' new hI hC hs
    exact ⟨hs.tracked hI.1, hs.stationary (fun hmove => hC hmove.1 hmove) hI.1 hI.2⟩

/--
In a game without moves to another field, a client that knew the players in the lobby has
the positions of the server after every turn.
-/
theorem run_playerPositions (h : (machine β p).Run tr s) (hp : s.point = .broadcast)
    (hC : SinceStarted (fun s env => ¬ Relocates s env) tr)
    (hb : broadcasts (Machine.log tr) = before ++ .gameStarted players :: after)
    (hlast : ∀ players', .gameStarted players' ∉ after) (hfull : c.lobbyInfo.players = players) :
    ∃ c', c.handleServerMessages (.gameStarted players :: after) = .ok c' ∧
      c'.gameInfo.playerPositions = s.engine.playersPositions := by
  have hs := started_of_broadcast h hp
  have hc := playersCount_pos h hs
  obtain ⟨-, c', turn, hread, hgame⟩ := run_follow h hp hb hlast hfull
  refine ⟨c', hread, ?_⟩
  have hseen : ((allEvents s.engine.turns).foldl GameInfo.seen c.readGameStarted).playerPositions =
      (replay (allEvents s.engine.turns) : Board β).robots :=
    GameInfo.playerPositions_foldl_seen rfl (run_stationary hc h hC hs)
  have htracks := run_tracked hc h hs
  rw [gone_of_sent (by rw [hp, Point.sent_broadcast])] at htracks
  rw [hgame, hseen, htracks.eq_board]
  rfl

/-- The only player moves up in turn 1. -/
def wanderer : List Env := soloJoin ++ (pass true (.ready [1] ⟨none, []⟩ (some [3, 0]))).dropLast

/-- The only player moves up in a game, and places a bomb in the next. -/
def rematch : List Env :=
  wanderer ++ [.ready [] ⟨none, []⟩ none] ++
    (List.replicate 2 (pass true (.ready [] ⟨none, []⟩ none))).flatten ++
    pass true (.ready [1] ⟨none, []⟩ (some [0, 0])) ++
    pass true (.ready [1] ⟨none, []⟩ (some [1])) ++
    (List.replicate 2 (pass true (.ready [] ⟨none, []⟩ none))).flatten.dropLast

theorem run_playerPositions_rematch : ∃ tr s c', (machine (StdSet Position) solo).Run tr s ∧
    (∃ t ∈ tr, Relocates t.pre t.input) ∧ s.engine.scores.toList = [(0, 1)] ∧
    watcher.handleServerMessages (.gameStarted s.engine.players :: s.engine.turns.map .turn) =
      .ok c' ∧ c'.gameInfo.playerPositions = s.engine.playersPositions := by
  have hcheck : (machine (StdSet Position) solo).check rematch (fun tr s =>
      decide (s.point = .broadcast ∧ watcher.lobbyInfo.players = s.engine.players ∧
        broadcasts (Machine.log tr) = broadcasts (Machine.log (tr.take 152)) ++
          [.acceptedPlayer 0 nobody] ++
            .gameStarted s.engine.players :: s.engine.turns.map .turn) &&
      (s.engine.scores.toList = [(0, 1)] &&
      (tr.any (fun t => t.pre.engine.gameplayStarted = true ∧
        t.pre.handledMessage t.input = some (1, .move .up) ∧
        t.pre.engine.actingPlayer 1 = some 0 ∧
        t.pre.engine.playersPositions[(0 : PlayerId)]? = some ⟨1, 0⟩ ∧
        t.pre.engine.checkPositionToMove (newPosition ⟨1, 0⟩ t.input.uninitialised .up) = true ∧
        newPosition ⟨1, 0⟩ t.input.uninitialised .up ≠ ⟨1, 0⟩) &&
      (tr[152]?.any (fun t => decide (.gameStarted s.engine.players ∈ broadcasts t.out)) &&
        (tr.drop 153).all fun t => (t.pre.handledMessage t.input).all fun received =>
          received.2 = .placeBomb)))) = true := by
    decide +kernel
  obtain ⟨tr, s, h, htest⟩ := Machine.run_of_check hcheck
  simp only [Bool.and_eq_true, decide_eq_true_eq, List.any_eq_true, Option.any_eq_true,
    List.all_eq_true] at htest
  obtain ⟨⟨hp, hfull, hb⟩, hscore, ⟨t, htr, hs, hm, ha, hpos, hcheck, hne⟩, ⟨u, hu, hstart⟩,
    hquiet⟩ := htest
  have hC : ∀ v ∈ tr.drop 153, ¬ Relocates v.pre v.input := by
    intro v hv
    apply not_relocates
    intro i d hm
    have := hquiet v hv
    simp [hm] at this
  obtain ⟨c', hread, hpositions⟩ := run_playerPositions h hp (sinceStarted_of_drop hu hstart hC) hb
    (by simp) hfull
  exact ⟨tr, s, c', h, ⟨t, htr, hs, 1, .up, 0, ⟨1, 0⟩, hm, ha, hpos, hcheck, hne⟩, hscore, hread,
    hpositions⟩

/-- Clients do not follow the moves of robots. -/
theorem exists_playerPositions_ne : ¬ ∀ (p : ServerParameters)
    (tr : List (Machine.Step (Server (StdSet Position)) Env Sending)) (s : Server (StdSet Position))
    (c : Client (StdSet Position)) (before after : List ServerMessage)
    (players : StdMap PlayerId Player), (machine (StdSet Position) p).Run tr s →
    s.point = .broadcast → broadcasts (Machine.log tr) = before ++ .gameStarted players :: after →
    (∀ players', .gameStarted players' ∉ after) → c.lobbyInfo.players = players →
    ∃ c', c.handleServerMessages (.gameStarted players :: after) = .ok c' ∧
      c'.gameInfo.playerPositions = s.engine.playersPositions := by
  intro hall
  have hcheck : (machine (StdSet Position) solo).check wanderer (fun tr s =>
      decide (SoloGame tr s) &&
        match watcher.handleServerMessages
          (.gameStarted s.engine.players :: s.engine.turns.map .turn) with
        | .ok c' => decide (c'.gameInfo.playerPositions ≠ s.engine.playersPositions)
        | .error _ => false) = true := by
    decide +kernel
  obtain ⟨tr, s, h, htest⟩ := Machine.run_of_check hcheck
  rw [Bool.and_eq_true, decide_eq_true_eq] at htest
  obtain ⟨⟨hp, hfull, hb⟩, hne⟩ := htest
  obtain ⟨c', hread, hpos⟩ := hall solo tr s watcher _ _ _ h hp hb (by simp) hfull
  rw [hread] at hne
  exact absurd hpos (of_decide_eq_true hne)

end Server

end Bomberrobots
