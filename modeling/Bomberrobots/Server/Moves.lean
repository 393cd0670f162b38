import Bomberrobots.Server.Authority
import Bomberrobots.Server.Bounds

/-! # Where a move leads

A move in one of the four directions leads to the adjacent field or nowhere. The byte of the
direction is not checked, and for every other byte the bounds check looks at a local variable
that nobody has assigned.
-/

namespace Bomberrobots

namespace Direction

theorem ofByte_mem_named_iff {b : UInt8} : ofByte b ∈ named ↔ b ≤ 3 := by
  have hb : b ≤ 3 ↔ b = 0 ∨ b = 1 ∨ b = 2 ∨ b = 3 := by
    simp only [UInt8.le_iff_toNat_le, ← UInt8.toNat_inj, UInt8.reduceToNat]
    omega
  rw [hb, ofByte]
  split_ifs <;> simp [named, *]

end Direction

namespace GameEngine

variable {β : Type} {e : GameEngine β} {i : Slot} {pos u : Position} {d : Direction}

theorem newPosition_of_not_named (hd : d ∉ Direction.named) : newPosition pos u d = u := by
  cases d with
  | unnamed code => rfl
  | _ => simp [Direction.named] at hd

variable [PositionSet β]

/--
The law of a move: nothing happens, or the robot of the slot goes to the adjacent field in the
direction, which is on the board and holds no block, and this is logged.
-/
def LawfulMove (e : GameEngine β) (i : Slot) (d : Direction) (e' : GameEngine β) : Prop :=
  e' = e ∨ ∃ id pos pos', e.playerIds[i]? = some id ∧ e.playersPositions[id]? = some pos ∧
    d ∈ Direction.named ∧ pos.Offset pos' d.dx d.dy ∧ e.gameParams.HasField pos' ∧
    PositionSet.contains e.blocksPositions pos' = false ∧
    e' = { e with playersPositions := e.playersPositions.insert id pos'
                  turns := logEvents e.turns e.currentTurn.toNat [.playerMoved id pos'] }

theorem Gameplay.handleMsg_move {received : Option Bytes} (hg : Gameplay e)
    (hr : receivedMessage received = some (.move d)) :
    ∃ e', e.handleMsg i received u = .ok (.success, e', []) ∧ Handled e i u (.move d) e' [] := by
  rw [handleMsg_of_some hr]
  simp only [handleClientMessage]
  cases hm : e.handleMove i d u with
  | ok e' => exact ⟨e', rfl, handleMove_ok hm⟩
  | error f =>
    obtain ⟨id, ha, hfail⟩ := handleMove_error hm
    obtain ⟨hid, hturn⟩ := hg.not_acting ha
    rcases hfail with hn | hlen
    · exact absurd hid hn
    · exact absurd hturn (Nat.not_lt.mpr hlen)

theorem Handled.lawfulMove_iff {e' : GameEngine β} {sent : List Sending} (hg : Gameplay e)
    (hboard : OnBoard e.gameParams e) (hh : Handled e i u (.move d) e' sent) :
    LawfulMove e i d e' ↔
      d ∈ Direction.named ∨ e.actingPlayer i = none ∨ e.checkPositionToMove u = false := by
  cases hh with
  | idle hm ha => exact iff_of_true (.inl rfl) (.inr (.inl ha))
  | stay ha hp hc =>
    apply iff_of_true (.inl rfl)
    by_cases hd : d ∈ Direction.named
    · exact .inl hd
    · rw [newPosition_of_not_named hd] at hc
      exact .inr (.inr hc)
  | @move id pos _ ha hp hc =>
    by_cases hd : d ∈ Direction.named
    · obtain ⟨hcheck, hfree⟩ := Bool.and_eq_true_iff.mp hc
      have hpos := checkPosition_of_hasField rfl (hboard.robots id pos hp)
      have hnext := offset_newPosition hd hpos hcheck
      rw [Bool.not_eq_true'] at hfree
      exact iff_of_true (.inr ⟨id, pos, _, (actingPlayer_eq_some.mp ha).1, hp, hd, hnext,
        hasField_of_checkPosition rfl hcheck, hfree, rfl⟩) (.inl hd)
    · rw [newPosition_of_not_named hd] at hc ⊢
      apply iff_of_false
      · rintro (heq | ⟨-, -, -, -, -, hd', -⟩)
        · have hlogged : ¬ Untouched e (e.moved id u) := not_untouched hg rfl
          rw [heq] at hlogged
          exact hlogged .refl
        · exact hd hd'
      · rintro (hd' | hn | hu)
        · exact hd hd'
        · exact absurd (ha.symm.trans hn) nofun
        · exact Bool.noConfusion (hc.symm.trans hu)

end GameEngine

namespace Server

open GameEngine

variable {β : Type} [PositionSet β] [PositionSet.Grounded β] {p : ServerParameters} {s : Server β}
  {tr : List (Machine.Step (Server β) Env Sending)} {i : Slot} {received : Option Bytes}
  {b : UInt8} {u : Position}

/--
A received move keeps to the law exactly if its byte names a direction, or the slot has no robot
that may act, or the unassigned local happens to hold a position that fails the check.
-/
theorem handleMsg_lawfulMove_iff (h : (machine β p).Run tr s)
    (hs : s.engine.gameplayStarted = true)
    (hr : receivedMessage received = some (.move (.ofByte b))) :
    (∃ e', s.engine.handleMsg i received u = .ok (.success, e', []) ∧
      LawfulMove s.engine i (.ofByte b) e') ↔
    b ≤ 3 ∨ s.engine.actingPlayer i = none ∨ s.engine.checkPositionToMove u = false := by
  obtain ⟨hp, hg⟩ := run_gameplay h hs
  have hboard : OnBoard s.engine.gameParams s.engine := hp ▸ onBoard_of_run h
  obtain ⟨e', he', hh⟩ := hg.handleMsg_move (i := i) (u := u) hr
  rw [← Direction.ofByte_mem_named_iff, ← hh.lawfulMove_iff hg hboard]
  constructor
  · rintro ⟨e₁, he₁, hlaw⟩
    obtain rfl : e' = e₁ := by
      simpa using he'.symm.trans he₁
    exact hlaw
  · intro hlaw
    exact ⟨e', he', hlaw⟩

theorem handleMsg_lawfulMove_iff_solo : ∃ tr s, (machine (StdSet Position) solo).Run tr s ∧
    s.engine.gameplayStarted = true ∧
    (∃ e', s.engine.handleMsg 1 (some [3, 0]) ⟨0, 0⟩ = .ok (.success, e', []) ∧
      LawfulMove s.engine 1 .up e') ∧
    ¬ ∃ e', s.engine.handleMsg 1 (some [3, 9]) ⟨0, 0⟩ = .ok (.success, e', []) ∧
      LawfulMove s.engine 1 (.unnamed 9) e' := by
  have hcheck : (machine (StdSet Position) solo).check soloJoin (fun _ s =>
      s.engine.gameplayStarted = true ∧ s.engine.actingPlayer 1 = some 0 ∧
        s.engine.checkPositionToMove ⟨0, 0⟩ = true) = true := by decide +kernel
  obtain ⟨tr, s, h, htest⟩ := Machine.run_of_check hcheck
  obtain ⟨hs, hacting, hfree⟩ := of_decide_eq_true htest
  refine ⟨tr, s, h, hs, (handleMsg_lawfulMove_iff (b := 0) h hs rfl).mpr (.inl (by decide)), ?_⟩
  intro hlaw
  rcases (handleMsg_lawfulMove_iff (b := 9) h hs rfl).mp hlaw with hb | hn | hu
  · exact absurd hb (by decide)
  · exact absurd (hacting.symm.trans hn) nofun
  · exact Bool.noConfusion (hfree.symm.trans hu)

/-- A move in a direction without a name can lead across the board. -/
theorem exists_not_lawfulMove : ¬ ∀ (p : ServerParameters)
    (tr : List (Machine.Step (Server (StdSet Position)) Env Sending))
    (s : Server (StdSet Position)), (machine (StdSet Position) p).Run tr s →
    s.engine.gameplayStarted = true → ∀ (i : Slot) (received : Option Bytes) (b : UInt8)
    (u : Position), receivedMessage received = some (.move (.ofByte b)) →
    ∃ e', s.engine.handleMsg i received u = .ok (.success, e', []) ∧
      LawfulMove s.engine i (.ofByte b) e' := by
  intro hall
  have hcheck : (machine (StdSet Position) solo).check soloJoin (fun _ s =>
      s.engine.gameplayStarted &&
        match s.engine.handleMsg 1 (some [3, 9]) ⟨0, 0⟩ with
        | .ok (_, e', _) => decide (e'.playersPositions ≠ s.engine.playersPositions)
        | .error _ => false) = true := by decide +kernel
  obtain ⟨tr, s, h, htest⟩ := Machine.run_of_check hcheck
  obtain ⟨hs, hmoved⟩ := Bool.and_eq_true_iff.mp htest
  obtain ⟨e', he', hlaw⟩ := hall solo tr s h hs 1 (some [3, 9]) 9 ⟨0, 0⟩ rfl
  rw [he'] at hmoved
  replace hmoved := of_decide_eq_true hmoved
  rcases hlaw with rfl | ⟨-, -, -, -, -, hd, -⟩
  · exact hmoved rfl
  · exact absurd hd (by decide)

end Server

end Bomberrobots
