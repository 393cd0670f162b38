import Mathlib

/-! # Folds into search trees

Inserting the entries of a list one after another. What a fold looks up depends on
the tree it starts from only at the keys that the list does not mention.
-/

namespace Std

variable {κ α : Type} {cmp : κ → κ → Ordering} [TransCmp cmp]

namespace ExtTreeMap

def assign (m : ExtTreeMap κ α cmp) (entries : List (κ × α)) : ExtTreeMap κ α cmp :=
  entries.foldl (fun m entry => m.insert entry.1 entry.2) m

variable {m m' : ExtTreeMap κ α cmp} {entries entries' : List (κ × α)} {k : κ} {v : α}

@[simp] theorem assign_nil : m.assign [] = m := rfl

@[simp] theorem assign_cons {entry : κ × α} :
    m.assign (entry :: entries) = (m.insert entry.1 entry.2).assign entries := rfl

theorem assign_append : m.assign (entries ++ entries') = (m.assign entries).assign entries' :=
  List.foldl_append

theorem mem_iff_exists_getElem? : k ∈ m ↔ ∃ v, m[k]? = some v :=
  mem_iff_isSome_getElem?.trans Option.isSome_iff_exists

theorem nodup_map_fst_toList : (m.toList.map Prod.fst).Nodup := by
  rw [map_fst_toList_eq_keys]
  exact nodup_keys

variable [LawfulEqCmp cmp]

theorem getElem?_assign_of_not_mem (h : k ∉ entries.map Prod.fst) :
    (m.assign entries)[k]? = m[k]? := by
  induction entries generalizing m with
  | nil => rfl
  | cons entry entries ih =>
    simp only [List.map_cons, List.mem_cons, not_or] at h
    rw [assign_cons, ih h.2, getElem?_insert]
    simp [LawfulEqCmp.compare_eq_iff_eq, Ne.symm h.1]

theorem getElem?_assign_congr (h : k ∉ entries.map Prod.fst → m[k]? = m'[k]?) :
    (m.assign entries)[k]? = (m'.assign entries)[k]? := by
  induction entries generalizing m m' with
  | nil => exact h (by simp)
  | cons entry entries ih =>
    apply ih
    intro hk
    by_cases he : entry.1 = k
    · subst he
      simp
    · rw [getElem?_insert, getElem?_insert, h (by simp [hk, Ne.symm he])]

theorem mem_assign : k ∈ m.assign entries ↔ k ∈ m ∨ k ∈ entries.map Prod.fst := by
  induction entries generalizing m with
  | nil => simp
  | cons entry entries ih =>
    rw [assign_cons, ih, mem_insert, LawfulEqCmp.compare_eq_iff_eq, List.map_cons, List.mem_cons]
    tauto

theorem mem_or_of_getElem?_assign (h : (m.assign entries)[k]? = some v) :
    (k, v) ∈ entries ∨ m[k]? = some v := by
  induction entries generalizing m with
  | nil => exact .inr h
  | cons entry entries ih =>
    rcases ih h with hm | hv
    · exact .inl (List.mem_cons_of_mem _ hm)
    · rw [getElem?_insert] at hv
      split at hv
      · rename_i hk
        obtain rfl := Std.LawfulEqCmp.compare_eq_iff_eq.mp hk
        obtain rfl := Option.some.inj hv
        exact .inl List.mem_cons_self
      · exact .inr hv

theorem getElem?_assign_of_nodup (h : (entries.map Prod.fst).Nodup) (hkv : (k, v) ∈ entries) :
    (m.assign entries)[k]? = some v := by
  induction entries generalizing m with
  | nil => simp at hkv
  | cons entry entries ih =>
    rw [List.map_cons, List.nodup_cons] at h
    rcases List.mem_cons.mp hkv with rfl | hkv
    · rw [assign_cons, getElem?_assign_of_not_mem h.1]
      simp
    · exact ih h.2 hkv

/-- Where no key repeats, the order of the entries does not matter. -/
theorem assign_perm (hp : entries.Perm entries') (h : (entries.map Prod.fst).Nodup) :
    m.assign entries = m.assign entries' := by
  have hkeys := hp.map Prod.fst
  ext k : 1
  by_cases hk : k ∈ entries.map Prod.fst
  · obtain ⟨⟨k, v⟩, hkv, rfl⟩ := List.mem_map.mp hk
    rw [getElem?_assign_of_nodup h hkv,
      getElem?_assign_of_nodup (hkeys.nodup_iff.mp h) (hp.mem_iff.mp hkv)]
  · rw [getElem?_assign_of_not_mem hk, getElem?_assign_of_not_mem (mt hkeys.mem_iff.mpr hk)]

theorem toList_insert_empty : ((∅ : ExtTreeMap κ α cmp).insert k v).toList = [(k, v)] := by
  have hlen : ((∅ : ExtTreeMap κ α cmp).insert k v).toList.length = 1 := by
    rw [length_toList, size_insert]
    simp
  have hmem : (k, v) ∈ ((∅ : ExtTreeMap κ α cmp).insert k v).toList := by
    simp [mem_toList_iff_getElem?_eq_some]
  obtain ⟨entry, hl⟩ := List.length_eq_one_iff.mp hlen
  rw [hl] at hmem ⊢
  rw [List.mem_singleton.mp hmem]

theorem assign_empty_toList : (∅ : ExtTreeMap κ α cmp).assign m.toList = m := by
  ext k : 1
  cases hk : m[k]? with
  | none =>
    have hnot : k ∉ m.toList.map Prod.fst := by
      rw [map_fst_toList_eq_keys, mem_keys, mem_iff_isSome_getElem?, hk]
      simp
    rw [getElem?_assign_of_not_mem hnot, getElem?_empty]
  | some v =>
    exact getElem?_assign_of_nodup nodup_map_fst_toList (mem_toList_iff_getElem?_eq_some.mpr hk)

theorem foldl_insertIfNew (h : (entries.map Prod.fst).Nodup)
    (hm : ∀ entry ∈ entries, entry.1 ∉ m) :
    entries.foldl (fun m entry => m.insertIfNew entry.1 entry.2) m = m.assign entries := by
  induction entries generalizing m with
  | nil => rfl
  | cons entry entries ih =>
    rw [List.map_cons, List.nodup_cons] at h
    have hnew : m.insertIfNew entry.1 entry.2 = m.insert entry.1 entry.2 := by
      ext k : 1
      have he : entry.1 ∉ m := hm entry List.mem_cons_self
      rw [getElem?_insertIfNew, getElem?_insert]
      by_cases hk : cmp entry.1 k = .eq
      · rw [if_pos ⟨hk, he⟩, if_pos hk]
      · rw [if_neg fun h => hk h.1, if_neg hk]
    rw [List.foldl_cons, hnew, assign_cons]
    apply ih h.2
    intro entry' he'
    rw [mem_insert, LawfulEqCmp.compare_eq_iff_eq, not_or]
    constructor
    · intro heq
      exact h.1 (heq ▸ List.mem_map_of_mem he')
    · exact hm entry' (List.mem_cons_of_mem _ he')

theorem toList_insertIfNew_perm (h : k ∉ m) :
    (m.insertIfNew k v).toList.Perm ((k, v) :: m.toList) := by
  have hnew : (k, v) ∉ m.toList := by
    rw [mem_toList_iff_getElem?_eq_some, getElem?_eq_none h]
    simp
  rw [List.perm_ext_iff_of_nodup nodup_map_fst_toList.of_map
    (List.nodup_cons.mpr ⟨hnew, nodup_map_fst_toList.of_map⟩)]
  rintro ⟨k', v'⟩
  rw [List.mem_cons, mem_toList_iff_getElem?_eq_some, mem_toList_iff_getElem?_eq_some,
    getElem?_insertIfNew]
  by_cases hk : k = k'
  · subst hk
    simp [h, eq_comm (a := v)]
  · simp [LawfulEqCmp.compare_eq_iff_eq, hk, Ne.symm hk]

theorem foldl_insertIfNew_toList :
    m.toList.foldl (fun m entry => m.insertIfNew entry.1 entry.2) ∅ = m := by
  rw [foldl_insertIfNew nodup_map_fst_toList fun _ _ => not_mem_empty]
  exact assign_empty_toList

theorem assign_toList_map (f : κ → α → α) :
    m.assign (m.toList.map fun entry => (entry.1, f entry.1 entry.2)) = m.map f := by
  ext k : 1
  have hkeys : (m.toList.map fun entry => (entry.1, f entry.1 entry.2)).map Prod.fst =
      m.toList.map Prod.fst := by simp [Function.comp_def]
  rw [getElem?_map]
  cases hk : m[k]? with
  | none =>
    rw [getElem?_assign_of_not_mem, hk, Option.map_none]
    rw [hkeys, map_fst_toList_eq_keys, mem_keys, mem_iff_isSome_getElem?, hk]
    simp
  | some v =>
    refine getElem?_assign_of_nodup (by rw [hkeys]; exact nodup_map_fst_toList) ?_
    exact List.mem_map.mpr ⟨(k, v), mem_toList_iff_getElem?_eq_some.mpr hk, rfl⟩

theorem getElem?_foldl_erase [DecidableEq κ] {l : List κ} :
    (l.foldl (fun m k => m.erase k) m)[k]? = if k ∈ l then none else m[k]? := by
  induction l generalizing m with
  | nil => simp
  | cons a l ih =>
    rw [List.foldl_cons, ih, getElem?_erase]
    simp only [LawfulEqCmp.compare_eq_iff_eq, List.mem_cons]
    by_cases hl : k ∈ l
    · simp [hl]
    · simp [hl, eq_comm]

end ExtTreeMap

namespace ExtTreeSet

variable [LawfulEqCmp cmp] {s : ExtTreeSet κ cmp} {k : κ}

theorem mem_foldl_insert (l : List κ) : k ∈ l.foldl insert s ↔ k ∈ s ∨ k ∈ l := by
  induction l generalizing s with
  | nil => simp
  | cons a l ih =>
    rw [List.foldl_cons, ih, mem_insert, LawfulEqCmp.compare_eq_iff_eq, List.mem_cons, eq_comm]
    tauto

theorem mem_foldl_erase (l : List κ) : k ∈ l.foldl erase s ↔ k ∈ s ∧ k ∉ l := by
  induction l generalizing s with
  | nil => simp
  | cons a l ih =>
    rw [List.foldl_cons, ih, mem_erase, Ne, LawfulEqCmp.compare_eq_iff_eq, List.mem_cons, not_or,
      eq_comm]
    tauto

theorem foldl_insert_congr {l l' : List κ} (h : ∀ k, k ∈ l ↔ k ∈ l') :
    l.foldl insert s = l'.foldl insert s := by
  ext k : 1
  rw [mem_foldl_insert, mem_foldl_insert, h]

theorem foldl_erase_congr {l l' : List κ} (h : ∀ k, k ∈ l ↔ k ∈ l') :
    l.foldl erase s = l'.foldl erase s := by
  ext k : 1
  rw [mem_foldl_erase, mem_foldl_erase, h]

theorem nodup_toList : s.toList.Nodup :=
  (distinct_toList (t := s)).imp fun h he => h (LawfulEqCmp.compare_eq_iff_eq.mpr he)

end ExtTreeSet

end Std
