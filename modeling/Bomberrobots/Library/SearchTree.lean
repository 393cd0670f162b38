import Mathlib.Data.List.Pairwise
import Mathlib.Order.Defs.Unbundled
import Mathlib.Tactic

/-! # Binary search trees over a comparison

A search goes left where the key compares less, right where it compares greater, and stops
at a key that it cannot tell from the one it looks for. Under a strict total order the tree
is a set of its keys.
-/

inductive SearchTree (α : Type)
  | leaf
  | node (left : SearchTree α) (key : α) (right : SearchTree α)

namespace SearchTree

variable {α : Type}

def toList : SearchTree α → List α
  | leaf => []
  | node left key right => left.toList ++ key :: right.toList

def join : SearchTree α → SearchTree α → SearchTree α
  | leaf, t => t
  | node left key right, t => node left key (right.join t)

def Ordered (r : α → α → Prop) (t : SearchTree α) : Prop := t.toList.Pairwise r

section Operations

variable (r : α → α → Prop) [DecidableRel r]

def contains (a : α) : SearchTree α → Bool
  | leaf => false
  | node left key right =>
    if r a key then contains a left else if r key a then contains a right else true

def insert (a : α) : SearchTree α → SearchTree α
  | leaf => node leaf a leaf
  | node left key right =>
    if r a key then node (insert a left) key right
    else if r key a then node left key (insert a right)
    else node left key right

def erase (a : α) : SearchTree α → SearchTree α
  | leaf => leaf
  | node left key right =>
    if r a key then node (erase a left) key right
    else if r key a then node left key (erase a right)
    else left.join right

end Operations

variable {r : α → α → Prop} {t left right : SearchTree α} {a b key : α}

@[simp] theorem toList_leaf : (leaf : SearchTree α).toList = [] := rfl

@[simp] theorem toList_node :
    (node left key right).toList = left.toList ++ key :: right.toList := rfl

@[simp] theorem toList_join : (left.join right).toList = left.toList ++ right.toList := by
  induction left with
  | leaf => rfl
  | node l k r _ ih => simp [join, ih]

theorem ordered_leaf : Ordered r (leaf : SearchTree α) := .nil

section Order

variable [IsStrictTotalOrder α r]

theorem ordered_node : (node left key right).Ordered r ↔ left.Ordered r ∧ right.Ordered r ∧
    (∀ a ∈ left.toList, r a key) ∧ ∀ b ∈ right.toList, r key b := by
  simp only [Ordered, toList_node, List.pairwise_append, List.pairwise_cons, List.forall_mem_cons]
  constructor
  · rintro ⟨hl, ⟨hk, hr⟩, hcross⟩
    exact ⟨hl, hr, fun a ha => (hcross a ha).1, hk⟩
  · rintro ⟨hl, hr, hlk, hkr⟩
    exact ⟨hl, ⟨hkr, hr⟩, fun a ha => ⟨hlk a ha, fun b hb => trans_of r (hlk a ha) (hkr b hb)⟩⟩

theorem eq_of_not_lt (hab : ¬ r a b) (hba : ¬ r b a) : a = b := by
  rcases trichotomous_of r a b with h | h | h
  · exact absurd h hab
  · exact h
  · exact absurd h hba

theorem Ordered.not_mem_right (h : (node left key right).Ordered r) (ha : r a key) :
    a ≠ key ∧ a ∉ right.toList := by
  obtain ⟨-, -, -, hkr⟩ := ordered_node.mp h
  constructor
  · rintro rfl
    exact irrefl_of r a ha
  · exact fun hm => asymm_of r ha (hkr a hm)

theorem Ordered.not_mem_left (h : (node left key right).Ordered r) (ha : r key a) :
    a ≠ key ∧ a ∉ left.toList := by
  obtain ⟨-, -, hlk, -⟩ := ordered_node.mp h
  constructor
  · rintro rfl
    exact irrefl_of r a ha
  · exact fun hm => asymm_of r ha (hlk a hm)

variable [DecidableRel r]

theorem contains_iff (h : t.Ordered r) : t.contains r a = true ↔ a ∈ t.toList := by
  induction t with
  | leaf => simp [contains]
  | node left key right ihl ihr =>
    obtain ⟨hl, hr, -, -⟩ := ordered_node.mp h
    unfold contains
    rw [toList_node, List.mem_append, List.mem_cons]
    split_ifs with hlt hgt
    · obtain ⟨hne, hn⟩ := h.not_mem_right hlt
      rw [ihl hl]
      simp [hne, hn]
    · obtain ⟨hne, hn⟩ := h.not_mem_left hgt
      rw [ihr hr]
      simp [hne, hn]
    · obtain rfl := eq_of_not_lt hlt hgt
      simp

theorem mem_toList_insert : b ∈ (t.insert r a).toList ↔ b = a ∨ b ∈ t.toList := by
  induction t with
  | leaf => simp [insert]
  | node left key right ihl ihr =>
    unfold insert
    split_ifs with hlt hgt
    · simp only [toList_node, List.mem_append, ihl, List.mem_cons]
      tauto
    · simp only [toList_node, List.mem_append, ihr, List.mem_cons]
      tauto
    · obtain rfl := eq_of_not_lt hlt hgt
      simp only [toList_node, List.mem_append, List.mem_cons]
      tauto

theorem Ordered.insert (h : t.Ordered r) : (t.insert r a).Ordered r := by
  induction t with
  | leaf => exact ordered_node.mpr ⟨h, h, by simp, by simp⟩
  | node left key right ihl ihr =>
    obtain ⟨hl, hr, hlk, hkr⟩ := ordered_node.mp h
    unfold SearchTree.insert
    split_ifs with hlt hgt
    · refine ordered_node.mpr ⟨ihl hl, hr, ?_, hkr⟩
      intro b hb
      rcases mem_toList_insert.mp hb with rfl | hb
      · exact hlt
      · exact hlk b hb
    · refine ordered_node.mpr ⟨hl, ihr hr, hlk, ?_⟩
      intro b hb
      rcases mem_toList_insert.mp hb with rfl | hb
      · exact hgt
      · exact hkr b hb
    · exact h

theorem mem_toList_erase (h : t.Ordered r) :
    b ∈ (t.erase r a).toList ↔ b ≠ a ∧ b ∈ t.toList := by
  induction t with
  | leaf => simp [erase]
  | node left key right ihl ihr =>
    obtain ⟨hl, hr, hlk, hkr⟩ := ordered_node.mp h
    unfold erase
    split_ifs with hlt hgt
    · obtain ⟨hne, hn⟩ := h.not_mem_right hlt
      have hright : b ∈ right.toList → b ≠ a := fun hb heq => hn (heq ▸ hb)
      have hkey : b = key → b ≠ a := fun hb heq => hne (heq ▸ hb)
      simp only [toList_node, List.mem_append, ihl hl, List.mem_cons, and_or_left,
        and_iff_right_of_imp hkey, and_iff_right_of_imp hright]
    · obtain ⟨hne, hn⟩ := h.not_mem_left hgt
      have hleft : b ∈ left.toList → b ≠ a := fun hb heq => hn (heq ▸ hb)
      have hkey : b = key → b ≠ a := fun hb heq => hne (heq ▸ hb)
      simp only [toList_node, List.mem_append, ihr hr, List.mem_cons, and_or_left,
        and_iff_right_of_imp hkey, and_iff_right_of_imp hleft]
    · obtain rfl := eq_of_not_lt hlt hgt
      rw [toList_join, toList_node, List.mem_append, List.mem_append, List.mem_cons]
      have hleft : b ∈ left.toList → b ≠ a := fun hb heq => irrefl_of r a (heq ▸ hlk b hb)
      have hright : b ∈ right.toList → b ≠ a := fun hb heq => irrefl_of r a (heq ▸ hkr b hb)
      constructor
      · rintro (hb | hb)
        · exact ⟨hleft hb, .inl hb⟩
        · exact ⟨hright hb, .inr (.inr hb)⟩
      · rintro ⟨hne, hb | hb | hb⟩
        · exact .inl hb
        · exact absurd hb hne
        · exact .inr hb

end Order

section Sublist

variable [DecidableRel r]

theorem toList_erase_sublist : (t.erase r a).toList.Sublist t.toList := by
  induction t with
  | leaf => exact .slnil
  | node left key right ihl ihr =>
    unfold erase
    split_ifs
    · exact ihl.append_right _
    · exact .append (.refl _) (ihr.cons_cons _)
    · rw [toList_join]
      exact .append (.refl _) (List.sublist_cons_self ..)

/-- Whatever the comparison is, an insertion adds nothing but the key. -/
theorem eq_or_mem_of_mem_insert (h : b ∈ (t.insert r a).toList) : b = a ∨ b ∈ t.toList := by
  induction t with
  | leaf => exact .inl (List.mem_singleton.mp h)
  | node left key right ihl ihr =>
    unfold insert at h
    split_ifs at h
    · rcases List.mem_append.mp h with hl | hr
      · exact (ihl hl).imp_right fun hl => List.mem_append_left _ hl
      · exact .inr (List.mem_append_right _ hr)
    · rcases List.mem_append.mp h with hl | hr
      · exact .inr (List.mem_append_left _ hl)
      · rcases List.mem_cons.mp hr with rfl | hr
        · exact .inr (List.mem_append_right _ List.mem_cons_self)
        · exact (ihr hr).imp_right fun hr =>
            List.mem_append_right _ (List.mem_cons_of_mem _ hr)
    · exact .inr h

theorem Ordered.erase (h : t.Ordered r) : (t.erase r a).Ordered r :=
  h.sublist toList_erase_sublist

end Sublist

end SearchTree
