import Bomberrobots.Library.Machine

/-! # Bisimulations of machines

Two states that are related by a bisimulation cannot be told apart by what the machine
emits, whatever it reads from then on.
-/

namespace Machine

variable {σ ι ω ε : Type} {M : Machine σ ι ω ε} {R : σ → σ → Prop} {s s' t : σ}

/-- What the machine emits for each input that it reads, and the failure that ends this. -/
def answers (M : Machine σ ι ω ε) (s : σ) : List ι → List (List ω) × Option ε
  | [] => ([], none)
  | i :: inputs =>
    match M.step s i with
    | .error e => ([], some e)
    | .ok (s', out) => (out :: (M.answers s' inputs).1, (M.answers s' inputs).2)

theorem answers_cons_of_ok {i : ι} {out : List ω} {inputs : List ι}
    (h : M.step s i = .ok (s', out)) : M.answers s (i :: inputs) =
      (out :: (M.answers s' inputs).1, (M.answers s' inputs).2) := by
  rw [answers, h]

theorem answers_cons_of_error {i : ι} {e : ε} {inputs : List ι} (h : M.step s i = .error e) :
    M.answers s (i :: inputs) = ([], some e) := by
  rw [answers, h]

/-- Related states fail alike, or emit the same and lead to related states. -/
def Bisimulation (M : Machine σ ι ω ε) (R : σ → σ → Prop) : Prop :=
  ∀ s t i, R s t → Except.Rel (fun r r' => R r.1 r'.1 ∧ r.2 = r'.2) (M.step s i) (M.step t i)

theorem Bisimulation.answers_eq (hR : M.Bisimulation R) (h : R s t) (inputs : List ι) :
    M.answers s inputs = M.answers t inputs := by
  induction inputs generalizing s t with
  | nil => rfl
  | cons i inputs ih =>
    have hstep := hR s t i h
    generalize hs : M.step s i = x at hstep
    generalize ht : M.step t i = y at hstep
    cases hstep with
    | error => rw [answers_cons_of_error hs, answers_cons_of_error ht]
    | @ok r r' hr =>
      obtain ⟨s', out⟩ := r
      obtain ⟨t', out'⟩ := r'
      obtain ⟨hr, rfl⟩ := hr
      rw [answers_cons_of_ok hs, answers_cons_of_ok ht, ih hr]

end Machine
