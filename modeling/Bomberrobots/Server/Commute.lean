import Bomberrobots.Server.Geometry
import Bomberrobots.Server.Safety

/-! # The order of the clients

The main loop visits the clients by their slots. In a game a message amounts to an act of one
robot, and an act shares the board, the bombs and the log with the acts of the others. Two acts
of different robots come to the same in either order, unless one puts a block in the way of the
other.
-/

namespace Bomberrobots

/-- A message that acts on the board, in one of the four directions if it is a move. -/
def ClientMessage.IsAction : ClientMessage → Prop
  | .join _ => False
  | .placeBomb | .placeBlock => True
  | .move d => d ∈ Direction.named

theorem ClientMessage.IsAction.isJoin {msg : ClientMessage} (h : msg.IsAction) :
    msg.isJoin = false := by
  cases msg with
  | join name => exact h.elim
  | _ => rfl

def Event.rename (σ : BombId → BombId) : Event → Event
  | .bombPlaced id pos => .bombPlaced (σ id) pos
  | .bombExploded id robotsDestroyed blocksDestroyed =>
    .bombExploded (σ id) robotsDestroyed blocksDestroyed
  | event => event

@[simp] theorem Event.rename_id : Event.rename id = id := by
  funext event
  cases event <;> rfl

inductive Act
  | idle
  | bomb (pos : Position)
  | block (pos : Position)
  | move (id : PlayerId) (pos : Position)
  deriving DecidableEq

namespace Act

def bombs : Act → List Position
  | .bomb pos => [pos]
  | _ => []

def blocks : Act → List Position
  | .block pos => [pos]
  | _ => []

def robots : Act → List (PlayerId × Position)
  | .move id pos => [(id, pos)]
  | _ => []

def events (n : BombId) : Act → List Event
  | .idle => []
  | .bomb pos => [.bombPlaced n pos]
  | .block pos => [.blockPlaced pos]
  | .move id pos => [.playerMoved id pos]

def placed : Act → BombId
  | .bomb _ => 1
  | _ => 0

variable {n : BombId} {x y : Act}

theorem events_add_of_no_bomb {k : BombId} (h : x.placed = 0) :
    x.events (n + k) = x.events n := by
  cases x with
  | bomb pos => cases h
  | _ => rfl

theorem exists_rename_events : ∃ σ : Equiv.Perm BombId, (σ = 1 ∨ σ = Equiv.swap n (n + 1)) ∧
    (y.events n ++ x.events (n + y.placed)).Perm
      ((x.events n ++ y.events (n + x.placed)).map (Event.rename σ)) := by
  by_cases hx : x.placed = 0
  · refine ⟨1, .inl rfl, ?_⟩
    rw [events_add_of_no_bomb hx, hx, add_zero, Equiv.Perm.coe_one]
    simpa using List.perm_append_comm
  by_cases hy : y.placed = 0
  · refine ⟨1, .inl rfl, ?_⟩
    rw [events_add_of_no_bomb hy, hy, add_zero, Equiv.Perm.coe_one]
    simpa using List.perm_append_comm
  cases x with
  | bomb pos =>
    cases y with
    | bomb pos' =>
      refine ⟨Equiv.swap n (n + 1), .inr rfl, ?_⟩
      simpa [events, placed, Event.rename] using List.Perm.swap ..
    | _ => exact absurd rfl hy
  | _ => exact absurd rfl hx

theorem nodup_robots : (x.robots.map Prod.fst).Nodup := by
  cases x <;> simp [robots]

end Act

namespace GameEngine

section Acts

variable {β : Type} [PositionSet β] {e : GameEngine β} {i j : Slot} {id : PlayerId}
  {pos u : Position} {msg : ClientMessage} {x : Act}

/-- What the robot of a slot does on a message. -/
def act (e : GameEngine β) (i : Slot) (msg : ClientMessage) : Act :=
  match e.actingPlayer i with
  | none => .idle
  | some id =>
    match e.playersPositions[id]?, msg with
    | some pos, .placeBomb => .bomb pos
    | some pos, .placeBlock => .block pos
    | some pos, .move d =>
      let next := newPosition pos default d
      if e.checkPositionToMove next then .move id next else .idle
    | _, _ => .idle

def perform (e : GameEngine β) : Act → GameEngine β
  | .idle => e
  | .bomb pos => e.bombPlaced pos
  | .block pos => e.blockPlaced pos
  | .move id pos => e.moved id pos

/-- One robot places a block on the very field that the other moves to. -/
def Obstructs (e : GameEngine β) (i : Slot) (msg : ClientMessage) (j : Slot)
    (msg' : ClientMessage) : Prop :=
  ∃ id pos, e.act i msg = .block pos ∧ e.act j msg' = .move id pos

theorem newPosition_of_named {d : Direction} (hd : d ∈ Direction.named) :
    newPosition pos u d = newPosition pos default d := by
  cases d with
  | unnamed code => simp [Direction.named] at hd
  | _ => rfl

theorem Handled.perform {e' : GameEngine β} {sent : List Sending}
    (h : Handled e i u msg e' sent) (hm : msg.IsAction) :
    e' = e.perform (e.act i msg) ∧ sent = [] := by
  cases h with
  | late hs => exact hm.elim
  | join hs ha hn => exact hm.elim
  | start hs ha hn hg => exact hm.elim
  | idle hj ha => simp [act, ha, GameEngine.perform]
  | bomb ha hp => simp [act, ha, hp, GameEngine.perform]
  | block ha hp => simp [act, ha, hp, GameEngine.perform]
  | stay ha hp hc =>
    rw [newPosition_of_named hm] at hc
    simp [act, ha, hp, hc, GameEngine.perform]
  | move ha hp hc =>
    rw [newPosition_of_named hm] at hc ⊢
    simp [act, ha, hp, hc, GameEngine.perform]

/-- In a running game every act succeeds. -/
theorem Gameplay.handleMsg_act {received : Option Bytes} (hg : Gameplay e)
    (hr : receivedMessage received = some msg) (hm : msg.IsAction) :
    e.handleMsg i received u = .ok (.success, e.perform (e.act i msg), []) := by
  rw [handleMsg_of_some hr]
  cases h : e.handleClientMessage i u msg with
  | ok r =>
    obtain ⟨he, hsent⟩ := (handleClientMessage_ok h).perform hm
    rw [← he, ← hsent]
    rfl
  | error f =>
    obtain ⟨id, ha, hfail⟩ := handleAction_error h hm.isJoin
    obtain ⟨hid, hturn⟩ := hg.not_acting ha
    rcases hfail with hn | hlen
    · exact absurd hid hn
    · exact absurd hturn (Nat.not_lt.mpr hlen)

@[simp] theorem actingPlayer_perform : (e.perform x).actingPlayer i = e.actingPlayer i := by
  cases x <;> rfl

theorem playersPositions_perform :
    (e.perform x).playersPositions = e.playersPositions.assign x.robots := by
  cases x <;> rfl

theorem blocksPositions_perform :
    (e.perform x).blocksPositions = x.blocks.foldl PositionSet.insert e.blocksPositions := by
  cases x <;> rfl

theorem nextBombId_perform : (e.perform x).nextBombId = e.nextBombId + x.placed := by
  cases x <;> simp [perform, bombPlaced, blockPlaced, moved, Act.placed]

theorem turns_perform : (e.perform x).turns =
    logEvents e.turns e.currentTurn.toNat (x.events e.nextBombId) := by
  cases x with
  | idle => exact logEvents_nil.symm
  | _ => rfl

theorem bombs_perform_perm (hg : Gameplay e) : ((e.perform x).bombs.toList.map Prod.snd).Perm
    (x.bombs.map (⟨·, e.gameParams.bombTimer⟩) ++ e.bombs.toList.map Prod.snd) := by
  cases x with
  | bomb pos => exact (Std.ExtTreeMap.toList_insertIfNew_perm hg.nextBombId_not_mem).map Prod.snd
  | _ => exact .refl _

theorem act_eq_move (h : e.act i msg = .move id pos) :
    e.actingPlayer i = some id ∧ id ∈ e.playersPositions := by
  unfold act at h
  split at h
  · cases h
  · rename_i id' ha
    split at h
    · cases h
    · cases h
    · rename_i pos' d hp
      dsimp only at h
      split at h
      · obtain ⟨rfl, -⟩ := Act.move.inj h
        exact ⟨ha, Std.ExtTreeMap.mem_iff_exists_getElem?.mpr ⟨pos', hp⟩⟩
      · cases h
    · cases h

theorem eq_of_mem_robots_act {a : PlayerId} (ha : e.playerIds[i]? = some a)
    (hm : id ∈ (e.act i msg).robots.map Prod.fst) : id = a := by
  cases hx : e.act i msg with
  | move id' pos =>
    obtain rfl : id = id' := by simpa [hx, Act.robots] using hm
    have hid := (actingPlayer_eq_some.mp (act_eq_move hx).1).1
    exact Option.some.inj (hid.symm.trans ha)
  | _ => simp [hx, Act.robots] at hm

theorem Gameplay.perform (hg : Gameplay e) (hn : e.nextBombId.toNat + 1 < 2 ^ 32) :
    Gameplay (e.perform (e.act i msg)) := by
  cases hx : e.act i msg with
  | idle => exact hg
  | bomb pos => exact hg.bombPlaced hn
  | block pos => exact hg.blockPlaced
  | move id pos => exact hg.moved ((hg.positions id).mp (act_eq_move hx).2)

end Acts

section Board

variable {e : GameEngine (StdSet Position)} {i j : Slot} {a b : PlayerId} {pos : Position}
  {msg msg' : ClientMessage} {x y : Act}

theorem checkPositionToMove_perform : (e.perform x).checkPositionToMove pos = true ↔
    e.checkPositionToMove pos = true ∧ pos ∉ x.blocks := by
  have hcheck : (e.perform x).checkPosition pos = e.checkPosition pos := by
    cases x <;> rfl
  have hblocks : PositionSet.contains (e.perform x).blocksPositions pos = true ↔
      PositionSet.contains e.blocksPositions pos = true ∨ pos ∈ x.blocks := by
    rw [blocksPositions_perform]
    simp only [PositionSet.contains, Std.ExtTreeSet.contains_iff_mem]
    exact Std.ExtTreeSet.mem_foldl_insert _
  simp only [checkPositionToMove, hcheck, Bool.and_eq_true, Bool.not_eq_true',
    ← Bool.not_eq_true, hblocks]
  tauto

/-- What a robot does is decided before the act of another that leaves its target field free. -/
theorem act_perform (hrobots : ∀ id, e.playerIds[j]? = some id → id ∉ x.robots.map Prod.fst)
    (hfree : ∀ id pos, e.act j msg' = .move id pos → pos ∉ x.blocks) :
    (e.perform x).act j msg' = e.act j msg' := by
  cases ha : e.actingPlayer j with
  | none => simp [act, ha]
  | some id =>
    have hpos : (e.perform x).playersPositions[id]? = e.playersPositions[id]? := by
      rw [playersPositions_perform]
      exact Std.ExtTreeMap.getElem?_assign_of_not_mem (hrobots id (actingPlayer_eq_some.mp ha).1)
    cases hp : e.playersPositions[id]? with
    | none => simp [act, ha, hpos, hp]
    | some pos =>
      cases msg' with
      | move d =>
        by_cases hc : e.checkPositionToMove (newPosition pos default d) = true
        · have hact : e.act j (.move d) = .move id (newPosition pos default d) := by
            simp [act, ha, hp, hc]
          have hc' := checkPositionToMove_perform.mpr ⟨hc, hfree _ _ hact⟩
          simp [act, ha, hpos, hp, hc, hc']
        · have hc' := mt (fun h => (checkPositionToMove_perform (x := x).mp h).1) hc
          simp [act, ha, hpos, hp, hc, hc']
      | _ => simp [act, ha, hpos, hp]

theorem act_perform_of_ne (ha : e.playerIds[i]? = some a) (hb : e.playerIds[j]? = some b)
    (hab : a ≠ b) (hno : ¬ e.Obstructs i msg j msg') :
    (e.perform (e.act i msg)).act j msg' = e.act j msg' := by
  apply act_perform
  · intro id hid hm
    have hid' : id = b := Option.some.inj (hid.symm.trans hb)
    exact hab ((eq_of_mem_robots_act ha hm).symm.trans hid')
  · intro id pos hy hm
    cases hx : e.act i msg with
    | block pos' =>
      obtain rfl : pos = pos' := by simpa [hx, Act.blocks] using hm
      exact hno ⟨id, pos, hx, hy⟩
    | _ => simp [hx, Act.blocks] at hm

/--
What the two orders of two messages agree on: everything but the bombs and the log, every bomb
with its position and its timer, and the events in the log up to their order and up to a swap of
the ids of the two new bombs.
-/
structure Commutes (e e₁ e₂ : GameEngine (StdSet Position)) : Prop where
  robots : e₂.playersPositions = e₁.playersPositions
  blocks : e₂.blocksPositions = e₁.blocksPositions
  nextBombId : e₂.nextBombId = e₁.nextBombId
  bombs : (e₂.bombs.toList.map Prod.snd).Perm (e₁.bombs.toList.map Prod.snd)
  turns : ∃ events₁ events₂, e₁.turns = logEvents e.turns e.currentTurn.toNat events₁ ∧
    e₂.turns = logEvents e.turns e.currentTurn.toNat events₂ ∧
    ∃ σ : Equiv.Perm BombId, (σ = 1 ∨ σ = Equiv.swap e.nextBombId (e.nextBombId + 1)) ∧
      events₂.Perm (events₁.map (Event.rename σ))
  rest : e₂ = { e₁ with
    playersPositions := e₂.playersPositions
    blocksPositions := e₂.blocksPositions
    bombs := e₂.bombs
    nextBombId := e₂.nextBombId
    turns := e₂.turns }

theorem turns_perform_perform : ((e.perform x).perform y).turns =
    logEvents e.turns e.currentTurn.toNat
      (x.events e.nextBombId ++ y.events (e.nextBombId + x.placed)) := by
  have hturn : (e.perform x).currentTurn = e.currentTurn := by
    cases x <;> rfl
  rw [turns_perform, turns_perform, nextBombId_perform, hturn, logEvents_append]

theorem bombs_perform_perform_perm (hg : Gameplay e) (hx : Gameplay (e.perform x)) :
    (((e.perform x).perform y).bombs.toList.map Prod.snd).Perm
      ((y.bombs ++ x.bombs).map (⟨·, e.gameParams.bombTimer⟩) ++ e.bombs.toList.map Prod.snd) := by
  have hparams : (e.perform x).gameParams = e.gameParams := by
    cases x <;> rfl
  have hy := bombs_perform_perm (x := y) hx
  rw [hparams] at hy
  rw [List.map_append, List.append_assoc]
  exact hy.trans ((bombs_perform_perm hg).append_left _)

/-- Acts that move different robots commute. -/
theorem commutes_perform (hg : Gameplay e) (hx : Gameplay (e.perform x))
    (hy : Gameplay (e.perform y)) (h : ((x.robots ++ y.robots).map Prod.fst).Nodup) :
    Commutes e ((e.perform x).perform y) ((e.perform y).perform x) where
  robots := by
    simp only [playersPositions_perform, ← Std.ExtTreeMap.assign_append]
    exact (Std.ExtTreeMap.assign_perm List.perm_append_comm h).symm
  blocks := by
    simp only [blocksPositions_perform, ← List.foldl_append]
    exact Std.ExtTreeSet.foldl_insert_congr fun pos => List.perm_append_comm.mem_iff
  nextBombId := by
    simp only [nextBombId_perform]
    exact add_right_comm ..
  bombs := by
    have h₁ := bombs_perform_perform_perm (y := y) hg hx
    have h₂ := bombs_perform_perform_perm (y := x) hg hy
    refine h₂.trans (.trans ?_ h₁.symm)
    exact (List.perm_append_comm.map _).append_right _
  turns := by
    obtain ⟨σ, hσ, hevents⟩ := Act.exists_rename_events (n := e.nextBombId) (x := x) (y := y)
    exact ⟨_, _, turns_perform_perform, turns_perform_perform, σ, hσ, hevents⟩
  rest := by
    cases x <;> cases y <;> rfl

theorem nodup_robots_act (ha : e.playerIds[i]? = some a) (hb : e.playerIds[j]? = some b)
    (hab : a ≠ b) : (((e.act i msg).robots ++ (e.act j msg').robots).map Prod.fst).Nodup := by
  rw [List.map_append]
  refine Act.nodup_robots.append Act.nodup_robots fun id hi hj => hab ?_
  exact (eq_of_mem_robots_act ha hi).symm.trans (eq_of_mem_robots_act hb hj)

end Board

end GameEngine

namespace Server

open GameEngine

variable {p : ServerParameters} {s : Server (StdSet Position)}
  {tr : List (Machine.Step (Server (StdSet Position)) Env Sending)}

/--
In a game the messages of two players come to the same in either order, unless one of them places
a block on the very field that the other moves to.
-/
theorem run_commutes {i j : Slot} {a b : PlayerId} {received received' : Option Bytes}
    {msg msg' : ClientMessage} {u₁ u₂ u₃ u₄ : Position} (h : (machine (StdSet Position) p).Run tr s)
    (hs : s.engine.gameplayStarted = true) (ha : s.engine.playerIds[i]? = some a)
    (hb : s.engine.playerIds[j]? = some b) (hab : a ≠ b) (hr : receivedMessage received = some msg)
    (hr' : receivedMessage received' = some msg') (hm : msg.IsAction) (hm' : msg'.IsAction)
    (hno : ¬ s.engine.Obstructs i msg j msg') (hno' : ¬ s.engine.Obstructs j msg' i msg) :
    ∃ e₁ e₁₂ e₂ e₂₁, s.engine.handleMsg i received u₁ = .ok (.success, e₁, []) ∧
      e₁.handleMsg j received' u₂ = .ok (.success, e₁₂, []) ∧
      s.engine.handleMsg j received' u₃ = .ok (.success, e₂, []) ∧
      e₂.handleMsg i received u₄ = .ok (.success, e₂₁, []) ∧ Commutes s.engine e₁₂ e₂₁ := by
  have hw := run_wf (playersCount_pos h hs) h
  have hg := hw.gameplay hs
  have hi : Gameplay (s.engine.perform (s.engine.act i msg)) := hg.perform hw.budget_lt
  have hj : Gameplay (s.engine.perform (s.engine.act j msg')) := hg.perform hw.budget_lt
  refine ⟨_, _, _, _, hg.handleMsg_act hr hm, hi.handleMsg_act hr' hm', hg.handleMsg_act hr' hm',
    hj.handleMsg_act hr hm, ?_⟩
  rw [act_perform_of_ne ha hb hab hno, act_perform_of_ne hb ha hab.symm hno']
  exact commutes_perform hg hi hj (nodup_robots_act ha hb hab)

def duoJoin : List Env :=
  pass false (.ready [0] ⟨some 5, []⟩ none) ++ pass false (.ready [0] ⟨some 6, []⟩ none) ++
    pass true (.ready [1, 2] ⟨none, []⟩ (some [0, 0]))

theorem run_commutes_duo : ∃ tr s e₁ e₁₂ e₂ e₂₁, (machine (StdSet Position) duo).Run tr s ∧
    s.engine.act 1 .placeBlock = .block ⟨1, 0⟩ ∧ s.engine.act 2 (.move .right) = .move 1 ⟨1, 1⟩ ∧
    s.engine.handleMsg 1 (some [2]) default = .ok (.success, e₁, []) ∧
    e₁.handleMsg 2 (some [3, 1]) default = .ok (.success, e₁₂, []) ∧
    s.engine.handleMsg 2 (some [3, 1]) default = .ok (.success, e₂, []) ∧
    e₂.handleMsg 1 (some [2]) default = .ok (.success, e₂₁, []) ∧ Commutes s.engine e₁₂ e₂₁ := by
  have hcheck : (machine (StdSet Position) duo).check duoJoin (fun _ s =>
      s.engine.gameplayStarted = true ∧ s.engine.playerIds[(1 : Slot)]? = some 0 ∧
      s.engine.playerIds[(2 : Slot)]? = some 1 ∧ s.engine.act 1 .placeBlock = .block ⟨1, 0⟩ ∧
      s.engine.act 2 (.move .right) = .move 1 ⟨1, 1⟩) = true := by decide +kernel
  obtain ⟨tr, s, h, htest⟩ := Machine.run_of_check hcheck
  obtain ⟨hs, ha, hb, hblock, hmove⟩ := of_decide_eq_true htest
  have hno : ¬ s.engine.Obstructs 1 .placeBlock 2 (.move .right) := by
    rintro ⟨id, pos, hx, hy⟩
    rw [hblock] at hx
    rw [hmove] at hy
    cases hx
    cases hy
  have hno' : ¬ s.engine.Obstructs 2 (.move .right) 1 .placeBlock := by
    rintro ⟨id, pos, hx, -⟩
    rw [hmove] at hx
    cases hx
  have hright : ClientMessage.IsAction (.move .right) := by
    simp [ClientMessage.IsAction, Direction.named]
  have hr : receivedMessage (some [2]) = some .placeBlock := rfl
  have hr' : receivedMessage (some [3, 1]) = some (.move .right) := rfl
  obtain ⟨e₁, e₁₂, e₂, e₂₁, hsteps⟩ :=
    run_commutes h hs ha hb (by decide) hr hr' trivial hright hno hno'
  exact ⟨tr, s, e₁, e₁₂, e₂, e₂₁, h, hblock, hmove, hsteps⟩

end Server

end Bomberrobots
