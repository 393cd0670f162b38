import Mathlib.Data.List.Induction

/-! # Computations that may fail

Inversion of sequencing, and induction along a fold whose steps may fail. The
induction keeps the part of the list that is done. Two computations are related when they
fail in the same way or return related values.
-/

namespace Except

variable {ε α β σ : Type} {x : Except ε α} {f : α → Except ε β}

theorem bind_eq_ok_iff {b : β} : (x >>= f) = .ok b ↔ ∃ a, x = .ok a ∧ f a = .ok b := by
  cases x <;> simp [Bind.bind, Except.bind]

theorem bind_eq_error_iff {e : ε} :
    (x >>= f) = .error e ↔ x = .error e ∨ ∃ a, x = .ok a ∧ f a = .error e := by
  cases x <;> simp [Bind.bind, Except.bind]

@[simp] theorem pure_eq_ok {a b : α} : (pure a : Except ε α) = .ok b ↔ a = b := by
  simp [Pure.pure, Except.pure]

@[simp] theorem pure_ne_error {a : α} {e : ε} : (pure a : Except ε α) ≠ .error e := by
  simp [Pure.pure, Except.pure]

variable {g : σ → α → Except ε σ} {I : List α → σ → Prop}

/-- An invariant of the steps of a fold that succeed holds of the result. -/
theorem foldlM_ok (l : List α) {s s' : σ} (hl : l.foldlM g s = .ok s')
    (hs : I [] s) (step : ∀ done a s s', done ++ [a] <+: l → I done s → g s a = .ok s' →
      I (done ++ [a]) s') : I l s' := by
  induction l using List.reverseRecOn generalizing s' with
  | nil => simpa using (pure_eq_ok.mp hl) ▸ hs
  | append_singleton l a ih =>
    rw [List.foldlM_append, bind_eq_ok_iff] at hl
    obtain ⟨m, hm, ha⟩ := hl
    simp only [List.foldlM_cons, List.foldlM_nil, bind_pure] at ha
    have hI := ih hm fun done b t t' hp => step done b t t' (hp.trans (List.prefix_append ..))
    exact step l a m s' (List.prefix_refl _) hI ha

theorem foldlM_error (l : List α) {s : σ} {e : ε} (hl : l.foldlM g s = .error e)
    (hs : I [] s) (step : ∀ done a s s', done ++ [a] <+: l → I done s → g s a = .ok s' →
      I (done ++ [a]) s') :
    ∃ done a t, done ++ [a] <+: l ∧ I done t ∧ g t a = .error e := by
  induction l using List.reverseRecOn with
  | nil => simp at hl
  | append_singleton l a ih =>
    have step' : ∀ done b t t', done ++ [b] <+: l → I done t → g t b = .ok t' →
        I (done ++ [b]) t' := fun done b t t' hp =>
      step done b t t' (hp.trans (List.prefix_append ..))
    rw [List.foldlM_append, bind_eq_error_iff] at hl
    rcases hl with hl | ⟨m, hm, ha⟩
    · obtain ⟨done, b, t, hp, hI, ht⟩ := ih hl step'
      exact ⟨done, b, t, hp.trans (List.prefix_append ..), hI, ht⟩
    · simp only [List.foldlM_cons, List.foldlM_nil, bind_pure] at ha
      exact ⟨l, a, m, List.prefix_refl _, foldlM_ok l hm hs step', ha⟩

section Rel

variable {γ δ : Type} {R : α → β → Prop} {S : γ → δ → Prop} {y : Except ε β}

/-- Both fail in the same way, or what they return is related. -/
inductive Rel (R : α → β → Prop) : Except ε α → Except ε β → Prop
  | error {e : ε} : Rel R (.error e) (.error e)
  | ok {a : α} {b : β} (h : R a b) : Rel R (.ok a) (.ok b)

namespace Rel

theorem refl : Rel Eq x x := by
  cases x with
  | error e => exact .error
  | ok a => exact .ok rfl

theorem bind {f : α → Except ε γ} {g : β → Except ε δ} (h : Rel R x y)
    (hf : ∀ a b, R a b → Rel S (f a) (g b)) : Rel S (x >>= f) (y >>= g) := by
  cases h with
  | error => exact .error
  | ok h => exact hf _ _ h

theorem foldlM {f : α → γ → Except ε α} {g : β → γ → Except ε β} {a : α} {b : β} (l : List γ)
    (h : R a b) (hf : ∀ a b c, R a b → Rel R (f a c) (g b c)) :
    Rel R (l.foldlM f a) (l.foldlM g b) := by
  induction l generalizing a b with
  | nil => exact .ok h
  | cons c l ih =>
    rw [List.foldlM_cons, List.foldlM_cons]
    exact (hf a b c h).bind fun _ _ h => ih h

end Rel

end Rel

end Except
