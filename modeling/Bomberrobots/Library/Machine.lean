import Bomberrobots.Library.Except

/-! # Machines with outputs

A machine reads one input in each step, emits a list of outputs and may fail. A
path records its steps, so that a property of a run can speak about every state
the run passes through and about everything it has emitted.
-/

/-- A deterministic machine whose steps may fail. -/
structure Machine (σ ι ω ε : Type) where
  init : σ
  step : σ → ι → Except ε (σ × List ω)

namespace Machine

variable {σ ι ω ε : Type}

structure Step (σ ι ω : Type) where
  pre : σ
  input : ι
  out : List ω
  post : σ

def log (tr : List (Step σ ι ω)) : List ω := tr.flatMap Step.out

@[simp] theorem log_nil : log ([] : List (Step σ ι ω)) = [] := rfl

@[simp] theorem log_append (tr tr' : List (Step σ ι ω)) : log (tr ++ tr') = log tr ++ log tr' :=
  List.flatMap_append

@[simp] theorem log_cons (t : Step σ ι ω) (tr : List (Step σ ι ω)) :
    log (t :: tr) = t.out ++ log tr := rfl

variable {M : Machine σ ι ω ε}

/-- The steps that lead from a state to another. -/
inductive Path (M : Machine σ ι ω ε) (s : σ) : List (Step σ ι ω) → σ → Prop
  | nil : Path M s [] s
  | snoc {tr : List (Step σ ι ω)} {m s' : σ} {i : ι} {out : List ω} (h : Path M s tr m)
      (hs : M.step m i = .ok (s', out)) : Path M s (tr ++ [⟨m, i, out, s'⟩]) s'

/-- A run is a path from the initial state. -/
abbrev Run (M : Machine σ ι ω ε) : List (Step σ ι ω) → σ → Prop := M.Path M.init

theorem Path.append {s m s' : σ} {tr tr' : List (Step σ ι ω)} (h : M.Path s tr m)
    (h' : M.Path m tr' s') : M.Path s (tr ++ tr') s' := by
  induction h' with
  | nil => simpa using h
  | snoc _ hs ih => rw [← List.append_assoc]; exact .snoc ih hs

theorem Path.snoc_inv {s s' : σ} {t : Step σ ι ω} {tr : List (Step σ ι ω)}
    (h : M.Path s (tr ++ [t]) s') :
    M.Path s tr t.pre ∧ M.step t.pre t.input = .ok (t.post, t.out) ∧ t.post = s' := by
  generalize he : tr ++ [t] = l at h
  cases h with
  | nil => simp at he
  | snoc h hs =>
    obtain ⟨rfl, rfl⟩ := List.append_singleton_inj.mp he
    exact ⟨h, hs, rfl⟩

theorem Path.split {s s' : σ} {tr tr' : List (Step σ ι ω)} (h : M.Path s (tr ++ tr') s') :
    ∃ m, M.Path s tr m ∧ M.Path m tr' s' := by
  induction tr' using List.reverseRecOn generalizing s' with
  | nil => exact ⟨s', by simpa using h, .nil⟩
  | append_singleton tr' t ih =>
    rw [← List.append_assoc] at h
    obtain ⟨hp, hs, rfl⟩ := h.snoc_inv
    obtain ⟨m, hm, hm'⟩ := ih hp
    exact ⟨m, hm, .snoc hm' hs⟩

theorem Path.cons_inv {s s' : σ} {t : Step σ ι ω} {tr : List (Step σ ι ω)}
    (h : M.Path s (t :: tr) s') :
    t.pre = s ∧ M.step s t.input = .ok (t.post, t.out) ∧ M.Path t.post tr s' := by
  obtain ⟨m, hm, hm'⟩ := (show M.Path s ([t] ++ tr) s' from h).split
  obtain ⟨hp, hs, rfl⟩ := (show M.Path s ([] ++ [t]) m from hm).snoc_inv
  generalize he : [] = l at hp
  cases hp with
  | nil => exact ⟨rfl, hs, hm'⟩
  | snoc => simp at he

theorem Path.at_step {s s' : σ} {t : Step σ ι ω} {tr tr' : List (Step σ ι ω)}
    (h : M.Path s (tr ++ t :: tr') s') :
    M.Path s tr t.pre ∧ M.step t.pre t.input = .ok (t.post, t.out) ∧ M.Path t.post tr' s' := by
  obtain ⟨m, hm, hm'⟩ := h.split
  obtain ⟨rfl, hs, hp⟩ := hm'.cons_inv
  exact ⟨hm, hs, hp⟩

/-- The rule for an invariant of the steps taken so far and the state reached. -/
theorem Path.invariant {s s' : σ} {tr : List (Step σ ι ω)} {I : List (Step σ ι ω) → σ → Prop}
    (h : M.Path s tr s') (start : I [] s)
    (keep : ∀ tr m i s' out, M.Path s tr m → I tr m → M.step m i = .ok (s', out) →
      I (tr ++ [⟨m, i, out, s'⟩]) s') : I tr s' := by
  induction h with
  | nil => exact start
  | snoc h hs ih => exact keep _ _ _ _ _ h ih hs

/-- The rule for an invariant that is kept by the steps which meet a condition. -/
theorem Path.invariant_of {s s' : σ} {tr : List (Step σ ι ω)} {I : List (Step σ ι ω) → σ → Prop}
    {C : σ → ι → Prop} (h : M.Path s tr s') (hC : ∀ t ∈ tr, C t.pre t.input) (start : I [] s)
    (keep : ∀ tr m i s' out, M.Path s tr m → I tr m → C m i → M.step m i = .ok (s', out) →
      I (tr ++ [⟨m, i, out, s'⟩]) s') : I tr s' := by
  induction h with
  | nil => exact start
  | snoc h hs ih =>
    exact keep _ _ _ _ _ h (ih fun t ht => hC t (List.mem_append_left _ ht))
      (hC _ (List.mem_append_right _ (List.mem_singleton_self _))) hs

/--
A property holds throughout a path exactly when all its steps meet a condition, if
the condition keeps an invariant that implies the property, and the property does not
survive a step against the condition. All steps may be assumed to meet `A`.
-/
theorem Path.always_iff {s s' : σ} {tr : List (Step σ ι ω)}
    {I P : List (Step σ ι ω) → σ → Prop} {A C : σ → ι → Prop} (h : M.Path s tr s')
    (hA : ∀ t ∈ tr, A t.pre t.input) (start : I [] s)
    (keep : ∀ tr m i s' out, M.Path s tr m → I tr m → A m i → C m i →
      M.step m i = .ok (s', out) → I (tr ++ [⟨m, i, out, s'⟩]) s')
    (sound : ∀ tr m, M.Path s tr m → I tr m → P tr m)
    (sharp : ∀ tr m i s' out, M.Path s tr m → I tr m → A m i → M.step m i = .ok (s', out) →
      P (tr ++ [⟨m, i, out, s'⟩]) s' → C m i) :
    (∀ tr' m, tr' <+: tr → M.Path s tr' m → P tr' m) ↔ ∀ t ∈ tr, C t.pre t.input := by
  have hAC : ∀ {tr m} (_ : M.Path s tr m), (∀ t ∈ tr, A t.pre t.input) →
      (∀ t ∈ tr, C t.pre t.input) → I tr m := by
    intro tr m hm hA hC
    refine hm.invariant_of (C := fun m i => A m i ∧ C m i) (fun t ht => ⟨hA t ht, hC t ht⟩) start ?_
    intro tr m i s' out hm hI hAC hs
    exact keep tr m i s' out hm hI hAC.1 hAC.2 hs
  constructor
  · intro hP
    induction h with
    | nil => simp
    | snoc h hs ih =>
      have hA' := fun t ht => hA t (List.mem_append_left _ ht)
      have hC := ih hA' fun tr' m hp => hP tr' m (hp.trans (List.prefix_append ..))
      intro t ht
      rcases List.mem_append.mp ht with ht | ht
      · exact hC t ht
      · obtain rfl := List.mem_singleton.mp ht
        exact sharp _ _ _ _ _ h (hAC h hA' hC) (hA _ (by simp)) hs
          (hP _ _ (List.prefix_refl _) (.snoc h hs))
  · rintro hC tr' m ⟨tr'', rfl⟩ hm
    have hleft : ∀ t ∈ tr', t ∈ tr' ++ tr'' := fun t ht => List.mem_append_left _ ht
    exact sound _ _ hm (hAC hm (fun t ht => hA t (hleft t ht)) fun t ht => hC t (hleft t ht))

/-- The machine can get from a state to another and emits the outputs on its way. -/
def Emits (M : Machine σ ι ω ε) (s : σ) (out : List ω) (s' : σ) : Prop :=
  ∃ tr, M.Path s tr s' ∧ log tr = out

namespace Emits

variable {s m s' : σ} {out out' : List ω}

theorem step {i : ι} (h : M.step s i = .ok (s', out)) : M.Emits s out s' :=
  ⟨_, .snoc .nil h, by simp⟩

theorem trans (h : M.Emits s out m) (h' : M.Emits m out' s') : M.Emits s (out ++ out') s' := by
  obtain ⟨tr, hp, rfl⟩ := h
  obtain ⟨tr', hp', rfl⟩ := h'
  exact ⟨tr ++ tr', hp.append hp', log_append ..⟩

theorem trans_nil (h : M.Emits s out m) (h' : M.Emits m [] s') : M.Emits s out s' := by
  simpa using h.trans h'

end Emits

def exec (M : Machine σ ι ω ε) (inputs : List ι) : Except ε (List (Step σ ι ω) × σ) :=
  inputs.foldlM (fun (tr, s) i => do
    let (s', out) ← M.step s i
    pure (tr ++ [⟨s, i, out, s'⟩], s')) ([], M.init)

theorem exec_run {inputs : List ι} {tr : List (Step σ ι ω)} {s : σ}
    (h : M.exec inputs = .ok (tr, s)) : M.Run tr s := by
  refine Except.foldlM_ok (I := fun _ r => M.Run r.1 r.2) inputs h .nil ?_
  rintro _ i ⟨tr, s⟩ r _ hr hi
  obtain ⟨⟨s', out⟩, hs, hp⟩ := Except.bind_eq_ok_iff.mp hi
  obtain rfl := Except.pure_eq_ok.mp hp
  exact .snoc hr hs

/-- Executing fails where one of the steps fails. -/
theorem exec_eq_error_iff {inputs : List ι} {e : ε} :
    M.exec inputs = .error e ↔ ∃ before i after tr s, inputs = before ++ i :: after ∧
      M.exec before = .ok (tr, s) ∧ M.step s i = .error e := by
  constructor
  · intro h
    induction inputs using List.reverseRecOn with
    | nil => exact absurd h Except.pure_ne_error
    | append_singleton inputs i ih =>
      rw [exec, List.foldlM_append] at h
      rcases Except.bind_eq_error_iff.mp h with h | ⟨⟨tr, s⟩, hr, h⟩
      · obtain ⟨before, j, after, tr, s, rfl, hb, hs⟩ := ih h
        exact ⟨before, j, after ++ [i], tr, s, by simp, hb, hs⟩
      · refine ⟨inputs, i, [], tr, s, rfl, hr, ?_⟩
        simp only [List.foldlM_cons, List.foldlM_nil, bind_pure] at h
        rcases Except.bind_eq_error_iff.mp h with h | ⟨_, -, h⟩
        · exact h
        · exact absurd h Except.pure_ne_error
  · rintro ⟨before, i, after, tr, s, rfl, hb, hs⟩
    rw [exec, List.foldlM_append]
    change M.exec before >>= _ = _
    rw [hb]
    change (M.step s i >>= _) >>= _ = _
    rw [hs]
    rfl

theorem exec_concat {inputs : List ι} {i : ι} {tr : List (Step σ ι ω)} {s : σ}
    (h : M.exec (inputs ++ [i]) = .ok (tr, s)) :
    ∃ tr' s' out, M.exec inputs = .ok (tr', s') ∧ M.step s' i = .ok (s, out) := by
  rw [exec, List.foldlM_append] at h
  obtain ⟨⟨tr', s'⟩, hr, h⟩ := Except.bind_eq_ok_iff.mp h
  simp only [List.foldlM_cons, List.foldlM_nil, bind_pure] at h
  obtain ⟨⟨s'', out⟩, hs, h⟩ := Except.bind_eq_ok_iff.mp h
  obtain ⟨-, rfl⟩ := Prod.mk.inj (Except.pure_eq_ok.mp h)
  exact ⟨tr', s', out, hr, hs⟩

/-- Every step that the inputs make the machine try meets a condition. -/
def Always (M : Machine σ ι ω ε) (inputs : List ι) (C : σ → ι → Prop) : Prop :=
  ∀ before i after tr s, inputs = before ++ i :: after → M.exec before = .ok (tr, s) → C s i

section Always

variable {inputs : List ι} {A B : σ → ι → Prop} {I : σ → Prop}

theorem always_of_invariant (start : I M.init)
    (keep : ∀ tr s i s' out, M.Run tr s → I s → B s i → M.step s i = .ok (s', out) → I s')
    (meets : ∀ before i after tr s, inputs = before ++ i :: after → M.exec before = .ok (tr, s) →
      I s → B s i) : M.Always inputs fun s i => I s ∧ B s i := by
  have hI : ∀ before after tr s, inputs = before ++ after → M.exec before = .ok (tr, s) → I s := by
    intro before
    induction before using List.reverseRecOn with
    | nil =>
      intro after tr s _ hb
      obtain ⟨-, rfl⟩ := Prod.mk.inj (Except.pure_eq_ok.mp hb)
      exact start
    | append_singleton before i ih =>
      intro after tr s hi hb
      rw [List.append_assoc] at hi
      obtain ⟨tr', s', out, hb', hs⟩ := exec_concat hb
      have hI' := ih _ tr' s' hi hb'
      exact keep tr' s' i s out (exec_run hb') hI' (meets before i after tr' s' hi hb' hI') hs
  intro before i after tr s hi hb
  have hs := hI before _ tr s hi hb
  exact ⟨hs, meets before i after tr s hi hb hs⟩

theorem always_congr (start : I M.init)
    (keep : ∀ tr s i s' out, M.Run tr s → I s → B s i → M.step s i = .ok (s', out) → I s')
    (agree : ∀ tr s i, M.Run tr s → I s → (A s i ↔ B s i)) :
    M.Always inputs A ↔ M.Always inputs B := by
  constructor
  · intro hA before i after tr s hi hb
    refine (always_of_invariant start keep ?_ before i after tr s hi hb).2
    intro before i after tr s hi hb hI
    exact (agree tr s i (exec_run hb) hI).mp (hA before i after tr s hi hb)
  · intro hB before i after tr s hi hb
    obtain ⟨hI, hBs⟩ := always_of_invariant start keep (fun before i after tr s hi hb _ =>
      hB before i after tr s hi hb) before i after tr s hi hb
    exact (agree tr s i (exec_run hb) hI).mpr hBs

end Always

def failure (M : Machine σ ι ω ε) (inputs : List ι) : Option ε :=
  match M.exec inputs with
  | .ok _ => none
  | .error e => some e

/-- Test the run that a list of inputs leads to. -/
def check (M : Machine σ ι ω ε) (inputs : List ι) (test : List (Step σ ι ω) → σ → Bool) : Bool :=
  match M.exec inputs with
  | .ok (tr, s) => test tr s
  | .error _ => false

theorem exec_of_failure {inputs : List ι} {e : ε} (h : M.failure inputs = some e) :
    M.exec inputs = .error e := by
  unfold failure at h
  split at h
  · cases h
  · obtain rfl := Option.some.inj h
    assumption

theorem exec_of_check {inputs : List ι} {test : List (Step σ ι ω) → σ → Bool}
    (h : M.check inputs test = true) :
    ∃ tr s, M.exec inputs = .ok (tr, s) ∧ test tr s = true := by
  unfold check at h
  split at h
  · exact ⟨_, _, ‹_›, h⟩
  · cases h

theorem run_of_check {inputs : List ι} {test : List (Step σ ι ω) → σ → Bool}
    (h : M.check inputs test = true) : ∃ tr s, M.Run tr s ∧ test tr s = true := by
  obtain ⟨tr, s, hr, ht⟩ := exec_of_check h
  exact ⟨tr, s, exec_run hr, ht⟩

end Machine
