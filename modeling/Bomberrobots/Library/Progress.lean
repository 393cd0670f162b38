import Bomberrobots.Library.Machine

/-! # Progress

A machine that does not fail before it has reached a goal, and comes closer to the goal with
every step, reaches it whatever it reads.
-/

namespace Machine

variable {σ ι ω ε : Type} {M : Machine σ ι ω ε} {I G : σ → Prop} {rank : σ → ℕ}

/-- The rank of a state bounds the number of steps to the goal. -/
theorem exists_path_to_goal {s : σ} (hI : I s) (pos : ∀ s, I s → ¬ G s → 0 < rank s)
    (progress : ∀ s i, I s → ¬ G s → ∃ s' out, M.step s i = .ok (s', out) ∧ I s' ∧
      (G s' ∨ rank s' < rank s)) (inputs : ℕ → ι) :
    ∃ tr s', M.Path s tr s' ∧ tr.map Step.input = (List.range tr.length).map inputs ∧
      tr.length ≤ rank s ∧ (∀ t ∈ tr, ¬ G t.pre) ∧ G s' := by
  induction hr : rank s using Nat.strongRecOn generalizing s inputs with
  | ind r ih =>
    by_cases hG : G s
    · exact ⟨[], s, .nil, rfl, Nat.zero_le _, by simp, hG⟩
    · have hpos := pos s hI hG
      obtain ⟨s₁, out, hs, hI₁, hnext⟩ := progress s (inputs 0) hI hG
      have hfirst : M.Path s [⟨s, inputs 0, out, s₁⟩] s₁ := .snoc .nil hs
      rcases hnext with hG₁ | hlt
      · exact ⟨_, s₁, hfirst, rfl, hr ▸ hpos, by simpa using hG, hG₁⟩
      · obtain ⟨tr, s', hp, hinputs, hlen, hbefore, hG'⟩ :=
          ih (rank s₁) (hr ▸ hlt) hI₁ (fun k => inputs (k + 1)) rfl
        refine ⟨⟨s, inputs 0, out, s₁⟩ :: tr, s', hfirst.append hp, ?_, ?_, ?_, hG'⟩
        · rw [List.map_cons, hinputs, List.length_cons, List.range_succ_eq_map, List.map_cons,
            List.map_map]
          rfl
        · rw [List.length_cons]
          omega
        · exact List.forall_mem_cons.mpr ⟨hG, hbefore⟩

end Machine
