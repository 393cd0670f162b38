import Mathlib.Data.List.Basic

/-! # Rays

A ray visits the fields `f 1, f 2, …` until it leaves the board or meets a solid
field. The solid field that stops it is still covered.
-/

namespace Ray

variable {α : Type} (inside solid : α → Bool) (f : ℕ → α)

/-- The ray goes on behind a field. -/
def passes (p : α) : Bool := inside p && !solid p

/-- The ray has not been stopped before distance `n`. -/
def clear (n : ℕ) : Bool := (List.range' 1 (n - 1)).all fun m => passes inside solid (f m)

def covers (n : ℕ) : Bool := clear inside solid f n && inside (f n)

@[simp] theorem clear_one : clear inside solid f 1 = true := rfl

theorem clear_succ {n : ℕ} (hn : 1 ≤ n) :
    clear inside solid f (n + 1) = (clear inside solid f n && passes inside solid (f n)) := by
  obtain ⟨n, rfl⟩ := Nat.exists_eq_add_of_le' hn
  simp [clear, List.range'_1_concat, Nat.add_comm]

theorem clear_iff {n : ℕ} : clear inside solid f n = true ↔
    ∀ m, 1 ≤ m → m < n → inside (f m) = true ∧ solid (f m) = false := by
  simp only [clear, passes, List.all_eq_true, List.mem_range'_1, Bool.and_eq_true,
    Bool.not_eq_true']
  constructor
  · intro h m hm hn
    exact h m ⟨hm, by omega⟩
  · intro h m hm
    exact h m hm.1 (by omega)

theorem covers_iff {n : ℕ} : covers inside solid f n = true ↔
    (∀ m, 1 ≤ m → m < n → inside (f m) = true ∧ solid (f m) = false) ∧ inside (f n) = true := by
  rw [covers, Bool.and_eq_true, clear_iff]

end Ray
