import Mathlib.Data.List.Basic

/-! # Self-delimiting formats

A format says which words may stand for a value. It is self-delimiting if the value and the
end of its word can be told from any stream that starts with it. What is put together from
self-delimiting formats, one behind another or a counted number of times, is self-delimiting.
-/

/-- Which words may stand for a value. -/
abbrev Format (β α : Type) := α → List β → Prop

namespace Format

variable {β α α' : Type} {f : Format β α} {g : Format β α'} {a b : α} {w w' rest : List β}

/-- The value and the word at the front of a stream are determined by the stream. -/
def SelfDelimiting (f : Format β α) : Prop :=
  ∀ ⦃a b w w' rest rest'⦄, f a w → f b w' → w ++ rest = w' ++ rest' →
    a = b ∧ w = w' ∧ rest = rest'

def Parses (f : Format β α) (stream : List β) (a : α) (rest : List β) : Prop :=
  ∃ w, f a w ∧ w ++ rest = stream

/-- A self-delimiting word in front of a stream is parsed in one way. -/
theorem SelfDelimiting.parses_iff (hf : SelfDelimiting f) (h : f a w) {rest' : List β} :
    Parses f (w ++ rest) b rest' ↔ b = a ∧ rest' = rest := by
  constructor
  · rintro ⟨w', hb, hstream⟩
    obtain ⟨rfl, -, rfl⟩ := hf hb h hstream
    exact ⟨rfl, rfl⟩
  · rintro ⟨rfl, rfl⟩
    exact ⟨w, h, rfl⟩

/-- The words of a given length, read by a function. -/
def fixed (length : ℕ) (decode : List β → α) : Format β α :=
  fun a w => w.length = length ∧ decode w = a

theorem selfDelimiting_fixed {length : ℕ} {decode : List β → α} :
    SelfDelimiting (fixed length decode) := by
  rintro a b w w' rest rest' ⟨hw, rfl⟩ ⟨hw', rfl⟩ hstream
  obtain ⟨rfl, rfl⟩ := List.append_inj hstream (hw.trans hw'.symm)
  exact ⟨rfl, rfl, rfl⟩

def pair (f : Format β α) (g : Format β α') : Format β (α × α') :=
  fun p w => ∃ u v, f p.1 u ∧ g p.2 v ∧ u ++ v = w

theorem SelfDelimiting.pair (hf : SelfDelimiting f) (hg : SelfDelimiting g) :
    SelfDelimiting (f.pair g) := by
  rintro ⟨a, a'⟩ ⟨b, b'⟩ _ _ rest rest' ⟨u, v, hu, hv, rfl⟩ ⟨u', v', hu', hv', rfl⟩ hstream
  rw [List.append_assoc, List.append_assoc] at hstream
  obtain ⟨hab, rfl, hbehind⟩ := hf hu hu' hstream
  obtain ⟨hab', rfl, hrest⟩ := hg hv hv' hbehind
  exact ⟨Prod.ext hab hab', rfl, hrest⟩

theorem SelfDelimiting.pair_fst {γ : Type} {k : Format β γ} {a' : α'} {c : γ} {rest' : List β}
    (hf : SelfDelimiting f) (h : f.pair g (a, a') w) (h' : f.pair k (b, c) w')
    (hstream : w ++ rest = w' ++ rest') : a = b := by
  obtain ⟨u, v, hu, -, rfl⟩ := h
  obtain ⟨u', v', hu', -, rfl⟩ := h'
  rw [List.append_assoc, List.append_assoc] at hstream
  exact (hf hu hu' hstream).1

theorem pair_mk {a' : α'} (ha : f a w) (ha' : g a' w') : f.pair g (a, a') (w ++ w') :=
  ⟨w, w', ha, ha', rfl⟩

/-- The format of what a value is made of. -/
def via (f : Format β α) (parts : α' → α) : Format β α' := fun a' => f (parts a')

theorem SelfDelimiting.via {parts : α' → α} (hf : SelfDelimiting f)
    (hparts : Function.Injective parts) : SelfDelimiting (f.via parts) := by
  intro a b w w' rest rest' ha hb hstream
  obtain ⟨hab, hw, hrest⟩ := hf ha hb hstream
  exact ⟨hparts hab, hw, hrest⟩

inductive Items (f : Format β α) : Format β (List α)
  | nil : Items f [] []
  | cons {a : α} {l : List α} {w v : List β} (head : f a w) (tail : Items f l v) :
    Items f (a :: l) (w ++ v)

def counted (size : Format β ℕ) (f : Format β α) : Format β (List α) :=
  fun l w => ∃ u v, size l.length u ∧ Items f l v ∧ u ++ v = w

theorem Items.unique {l l' : List α} {rest' : List β} (hf : SelfDelimiting f)
    (h : Items f l w) (h' : Items f l' w') (hlen : l.length = l'.length)
    (hstream : w ++ rest = w' ++ rest') : l = l' ∧ w = w' ∧ rest = rest' := by
  induction h generalizing l' w' with
  | nil =>
    obtain rfl := List.length_eq_zero_iff.mp hlen.symm
    cases h'
    exact ⟨rfl, rfl, hstream⟩
  | cons head tail ih =>
    cases h' with
    | nil => cases hlen
    | cons head' tail' =>
      rw [List.append_assoc, List.append_assoc] at hstream
      obtain ⟨rfl, rfl, hbehind⟩ := hf head head' hstream
      obtain ⟨rfl, rfl, hrest⟩ := ih tail' (Nat.succ.inj hlen) hbehind
      exact ⟨rfl, rfl, hrest⟩

theorem SelfDelimiting.counted {size : Format β ℕ} (hsize : SelfDelimiting size)
    (hf : SelfDelimiting f) : SelfDelimiting (counted size f) := by
  rintro l l' _ _ rest rest' ⟨u, v, hu, hv, rfl⟩ ⟨u', v', hu', hv', rfl⟩ hstream
  rw [List.append_assoc, List.append_assoc] at hstream
  obtain ⟨hlen, rfl, hbehind⟩ := hsize hu hu' hstream
  obtain ⟨rfl, rfl, hrest⟩ := hv.unique hf hv' hlen hbehind
  exact ⟨rfl, rfl, hrest⟩

theorem items_flatMap {l : List α} {encode : α → List β} (h : ∀ a ∈ l, f a (encode a)) :
    Items f l (l.flatMap encode) := by
  induction l with
  | nil => exact .nil
  | cons a l ih =>
    rw [List.flatMap_cons]
    exact .cons (h a List.mem_cons_self) (ih fun b hb => h b (List.mem_cons_of_mem _ hb))

end Format
