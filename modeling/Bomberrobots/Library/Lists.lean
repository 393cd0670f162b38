import Mathlib.Data.List.Pairwise
import Mathlib.Data.List.Perm.Subperm

/-! # Histories as lists

Where an element of a history stands when the history is extended, what is known of
elements whose keys do not repeat, loops over the first natural numbers, and lengths.
-/

namespace List

variable {α : Type}

theorem append_eq_append_cons {l l' before after : List α} {a : α}
    (h : l ++ l' = before ++ a :: after) :
    (∃ mid, l = before ++ a :: mid ∧ after = mid ++ l') ∨
    ∃ mid, before = l ++ mid ∧ l' = mid ++ a :: after := by
  rcases List.append_eq_append_iff.mp h with ⟨mid, hb, hl⟩ | ⟨mid, hl, ha⟩
  · exact .inr ⟨mid, hb, hl⟩
  · cases mid with
    | nil => exact .inr ⟨[], by simpa using hl.symm, by simpa using ha.symm⟩
    | cons b mid =>
      obtain ⟨rfl, rfl⟩ := List.cons.inj ha
      exact .inl ⟨mid, hl, rfl⟩

theorem eq_of_nodup_filterMap {κ : Type} {f : α → Option κ} {l : List α} {a b : α} {k : κ}
    (h : (l.filterMap f).Nodup) (ha : a ∈ l) (hb : b ∈ l) (hfa : f a = some k)
    (hfb : f b = some k) : a = b := by
  by_contra hne
  have hpair : l.Pairwise fun a b => ∀ k, f a = some k → ∀ k', f b = some k' → k ≠ k' :=
    List.pairwise_filterMap.mp h
  have hsymm : Std.Symm fun a b => ∀ k, f a = some k → ∀ k', f b = some k' → k ≠ k' :=
    ⟨fun a b hab k hk k' hk' => (hab k' hk' k hk).symm⟩
  exact hpair.forall ha hb hne k hfa k hfb rfl

theorem isPrefix_range {m n : ℕ} (h : m ≤ n) : List.range m <+: List.range n := by
  obtain ⟨k, rfl⟩ := Nat.exists_eq_add_of_le h
  rw [List.range_add]
  exact List.prefix_append ..

theorem foldl_range_eq_some {p : ℕ → Prop} [DecidablePred p] {n k : ℕ} (hk : k < n) (hp : p k)
    (hlast : ∀ i, k < i → i < n → ¬ p i) :
    (List.range n).foldl (fun last i => if p i then some i else last) none = some k := by
  induction n with
  | zero => exact absurd hk (Nat.not_lt_zero k)
  | succ n ih =>
    rw [List.range_succ, List.foldl_append, List.foldl_cons, List.foldl_nil]
    rcases Nat.lt_succ_iff_lt_or_eq.mp hk with hlt | rfl
    · rw [if_neg (hlast n hlt n.lt_succ_self)]
      exact ih hlt fun i hi hin => hlast i hi (Nat.lt_succ_of_lt hin)
    · rw [if_pos hp]

theorem length_le_of_nodup_map {f : α → ℕ} {l : List α} {n : ℕ} (h : (l.map f).Nodup)
    (hlt : ∀ a ∈ l, f a < n) : l.length ≤ n := by
  have hsub : l.map f ⊆ List.range n := by
    intro k hk
    obtain ⟨a, ha, rfl⟩ := List.mem_map.mp hk
    exact List.mem_range.mpr (hlt a ha)
  simpa using (List.Nodup.subperm h hsub).length_le

theorem length_flatMap_le {γ : Type} {f : α → List γ} {l : List α} {n : ℕ}
    (h : ∀ a ∈ l, (f a).length ≤ n) : (l.flatMap f).length ≤ l.length * n := by
  induction l with
  | nil => exact Nat.zero_le _
  | cons a l ih =>
    have hrest := ih fun b hb => h b (List.mem_cons_of_mem _ hb)
    have hfirst := h a List.mem_cons_self
    rw [List.flatMap_cons, List.length_append, List.length_cons, Nat.succ_mul]
    omega

theorem length_filter_lt {f : α → ℕ} {l : List α} {k : ℕ} {a : α}
    (h : l.Pairwise fun b c => f b < f c) (hk : l[k]? = some a) :
    (l.filter fun b => f b < f a).length = k := by
  induction l generalizing k with
  | nil => cases hk
  | cons b l ih =>
    obtain ⟨hb, hl⟩ := List.pairwise_cons.mp h
    cases k with
    | zero =>
      obtain rfl := Option.some.inj hk
      rw [List.length_eq_zero_iff, List.filter_eq_nil_iff]
      intro c hc
      rcases List.mem_cons.mp hc with rfl | hc
      · simp
      · simpa using Nat.le_of_lt (hb c hc)
    | succ k =>
      rw [List.getElem?_cons_succ] at hk
      rw [List.filter_cons_of_pos, List.length_cons, ih hl hk]
      exact decide_eq_true (hb a (List.mem_of_getElem? hk))

end List
