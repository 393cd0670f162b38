import Mathlib.Data.Option.Basic

/-! # Data refinement

A computation on a concrete state refines one on an abstract state if both succeed with the
same value and with related states, or both stop. Where they stop, the concrete state is kept.
-/

namespace DataRefinement

variable {σ τ α α' : Type}

/-- The abstract states, the concrete states that represent them, and the safe ones. -/
structure Representation (σ τ : Type) where
  rel : σ → τ → Prop
  safe : τ → Prop
  safe_of_rel : ∀ {s t}, rel s t → safe t

abbrev Program (τ α : Type) := OptionT (StateM τ) α

/-- Both computations succeed alike, or both stop. -/
inductive Outcome (R : Representation σ τ) : Option (α × σ) → Option α × τ → Prop
  | value {a : α} {s : σ} {t : τ} (h : R.rel s t) : Outcome R (some (a, s)) (some a, t)
  | stop {t : τ} (h : R.safe t) : Outcome R none (none, t)

def Refines (R : Representation σ τ) (f : StateT σ Option α) (g : Program τ α) : Prop :=
  ∀ s t, R.rel s t → Outcome R (f s) (g t)

namespace Refines

variable {R : Representation σ τ} {f : StateT σ Option α} {g : Program τ α}

theorem pure {a : α} : Refines R (Pure.pure a) (Pure.pure a) := fun _ _ h => .value h

theorem stop : Refines R (fun _ => none : StateT σ Option α) failure :=
  fun _ _ h => .stop (R.safe_of_rel h)

theorem bind {f' : α → StateT σ Option α'} {g' : α → Program τ α'} (h : Refines R f g)
    (h' : ∀ a, Refines R (f' a) (g' a)) : Refines R (f >>= f') (g >>= g') := by
  intro s t hst
  have hfirst := h s t hst
  have hf : (f >>= f') s = (f s).bind fun r => f' r.1 r.2 := rfl
  have hg : (g >>= g') t = (g t).1.elim (none, (g t).2) fun a => g' a (g t).2 := by
    change (match (g t).1 with
      | some a => g' a
      | none => Pure.pure none : StateM τ (Option α')) (g t).2 = _
    cases (g t).1 <;> rfl
  rw [hf, hg]
  generalize f s = x at hfirst ⊢
  generalize g t = y at hfirst ⊢
  cases hfirst with
  | value hst' => exact h' _ _ _ hst'
  | stop hsafe => exact .stop hsafe

theorem ite {c : Prop} [Decidable c] {f' : StateT σ Option α} {g' : Program τ α}
    (h : Refines R f g) (h' : Refines R f' g') :
    Refines R (if c then f else f') (if c then g else g') := by
  split
  · exact h
  · exact h'

end Refines

end DataRefinement
