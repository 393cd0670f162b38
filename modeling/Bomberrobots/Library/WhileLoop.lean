import Mathlib.Logic.Function.Iterate
import Mathlib.Order.Basic
import Mathlib.Tactic.Common

/-! # Loops

A loop runs its body as long as its guard holds. It exits when some number of rounds leads
to a state that fails the guard. A loop that is run with fuel returns that state.
-/

structure WhileLoop (σ : Type) where
  guard : σ → Bool
  body : σ → σ

namespace WhileLoop

variable {σ : Type} {L : WhileLoop σ} {s t : σ} {k fuel : ℕ}

def after (L : WhileLoop σ) (s : σ) (k : ℕ) : σ := L.body^[k] s

theorem after_succ : L.after s (k + 1) = L.body (L.after s k) :=
  Function.iterate_succ_apply' ..

/-- Some number of rounds leads to a state that fails the guard. -/
def Exits (L : WhileLoop σ) (s : σ) : Prop := ∃ k, L.guard (L.after s k) = false

/-- Run the loop for less than `fuel` rounds. -/
def exec (L : WhileLoop σ) : ℕ → σ → Option σ
  | 0, _ => none
  | fuel + 1, s => if L.guard s then L.exec fuel (L.body s) else some s

/-- An invariant of the body holds behind any number of rounds. -/
theorem after_invariant {I : ℕ → σ → Prop} (start : I 0 s)
    (keep : ∀ k t, I k t → I (k + 1) (L.body t)) (k : ℕ) : I k (L.after s k) := by
  induction k with
  | zero => exact start
  | succ k ih =>
    rw [after_succ]
    exact keep k _ ih

theorem exec_of_not_guard (hg : L.guard s = false) : L.exec (fuel + 1) s = some s := by
  rw [exec, if_neg (by simp [hg])]

theorem exec_eq_some (h : L.exec fuel s = some t) :
    ∃ k < fuel, t = L.after s k ∧ L.guard t = false := by
  induction fuel generalizing s with
  | zero => cases h
  | succ fuel ih =>
    unfold exec at h
    split at h
    · obtain ⟨k, hk, rfl, hg⟩ := ih h
      exact ⟨k + 1, Nat.succ_lt_succ hk, rfl, hg⟩
    · rename_i hg
      obtain rfl := Option.some.inj h
      exact ⟨0, Nat.zero_lt_succ _, rfl, by simpa using hg⟩

theorem exists_exec_of_guard (hk : k < fuel) (hg : L.guard (L.after s k) = false) :
    ∃ t, L.exec fuel s = some t := by
  induction fuel generalizing s k with
  | zero => cases hk
  | succ fuel ih =>
    unfold exec
    split
    · rename_i hs
      cases k with
      | zero => exact Bool.noConfusion (hs.symm.trans hg)
      | succ k => exact ih (Nat.lt_of_succ_lt_succ hk) hg
    · exact ⟨s, rfl⟩

/-- A loop exits exactly when some fuel is enough for it. -/
theorem exits_iff_exec : L.Exits s ↔ ∃ fuel t, L.exec fuel s = some t := by
  constructor
  · rintro ⟨k, hg⟩
    exact ⟨k + 1, exists_exec_of_guard (Nat.lt_succ_self k) hg⟩
  · rintro ⟨fuel, t, h⟩
    obtain ⟨k, -, rfl, hg⟩ := exec_eq_some h
    exact ⟨k, hg⟩

end WhileLoop
