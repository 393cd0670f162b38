import Bomberrobots.Messages.Basic

/-! # The comparisons of the programs

The sets of positions rest on `operator<`, which takes the row of the second position for its
column. It compares a position and itself, and it is an order only where the intervals from
the row to the column do not overlap.
-/

namespace Bomberrobots

def Position.less (first second : Position) : Prop :=
  first.x < second.y ∨ (first.x = second.x ∧ first.y < second.y)

/-- The comparison that `operator<` has in mind. -/
def Position.lex (first second : Position) : Prop :=
  first.x < second.x ∨ (first.x = second.x ∧ first.y < second.y)

instance : DecidableRel Position.less := fun _ _ => instDecidableOr

instance : DecidableRel Position.lex := fun _ _ => instDecidableOr

instance Position.instLex : IsStrictTotalOrder Position Position.lex where
  irrefl pos := by simp [Position.lex]
  trans a b c := by
    simp only [Position.lex, UInt16.lt_iff_toNat_lt, ← UInt16.toNat_inj]
    omega
  trichotomous a b := by
    simp only [Position.lex, Position.ext_iff, UInt16.lt_iff_toNat_lt, ← UInt16.toNat_inj]
    omega

def Bomb.less (first second : Bomb) : Prop :=
  first.position.less second.position ∨
    (first.position = second.position ∧ first.timer < second.timer)

instance : DecidableRel Bomb.less := fun _ _ => instDecidableOr

/-- A strict weak order on a set in which nothing but a value itself is equivalent to it. -/
structure LawfulOn {α : Type} (less : α → α → Prop) (S : Set α) : Prop where
  irrefl : ∀ a ∈ S, ¬ less a a
  trans : ∀ a ∈ S, ∀ b ∈ S, ∀ c ∈ S, less a b → less b c → less a c
  incomparable : ∀ a ∈ S, ∀ b ∈ S, (¬ less a b ∧ ¬ less b a) ↔ a = b

/-- No row is above its column, and for two columns the intervals do not overlap. -/
structure Separated (S : Set Position) : Prop where
  ordered : ∀ a ∈ S, a.y ≤ a.x
  disjoint : ∀ a ∈ S, ∀ b ∈ S, a.x ≠ b.x → a.x < b.y ∨ b.x < a.y

variable {P : Set Position} {B : Set Bomb} {a b : Position}

/-- On separated positions the comparison is the one that it has in mind. -/
theorem Separated.less_iff_lex (h : Separated P) (ha : a ∈ P) (hb : b ∈ P) :
    a.less b ↔ a.lex b := by
  have hya := UInt16.le_iff_toNat_le.mp (h.ordered a ha)
  have hyb := UInt16.le_iff_toNat_le.mp (h.ordered b hb)
  have hdisjoint := h.disjoint a ha b hb
  simp only [Position.less, Position.lex, ne_eq, UInt16.lt_iff_toNat_lt, ← UInt16.toNat_inj]
    at hdisjoint ⊢
  omega

theorem Position.lawfulOn_iff : LawfulOn Position.less P ↔ Separated P := by
  constructor
  · intro h
    constructor
    · intro a ha
      have hirrefl := h.irrefl a ha
      simp only [Position.less, not_or, UInt16.not_lt] at hirrefl
      exact hirrefl.1
    · intro a ha b hb hne
      by_contra hoverlap
      have hsame : a = b := by
        apply (h.incomparable a ha b hb).mp
        simp only [Position.less, hne, hne.symm, false_and, or_false]
        exact not_or.mp hoverlap
      exact hne (congrArg Position.x hsame)
  · intro h
    constructor
    · intro a ha
      rw [h.less_iff_lex ha ha]
      exact irrefl_of Position.lex a
    · intro a ha b hb c hc
      rw [h.less_iff_lex ha hb, h.less_iff_lex hb hc, h.less_iff_lex ha hc]
      exact trans_of Position.lex
    · intro a ha b hb
      rw [h.less_iff_lex ha hb, h.less_iff_lex hb ha]
      constructor
      · rintro ⟨hab, hba⟩
        exact (trichotomous_of Position.lex a b).resolve_left hab |>.resolve_right hba
      · rintro rfl
        exact ⟨irrefl_of Position.lex a, irrefl_of Position.lex a⟩

theorem Bomb.eq_iff {a b : Bomb} : a = b ↔ a.position = b.position ∧ a.timer = b.timer := by
  cases a
  cases b
  simp

theorem LawfulOn.bombs (h : LawfulOn Position.less (Set.image Bomb.position B)) :
    LawfulOn Bomb.less B := by
  have hmem : ∀ a ∈ B, a.position ∈ Set.image Bomb.position B := fun a ha => ⟨a, ha, rfl⟩
  constructor
  · rintro a ha (hless | ⟨-, hless⟩)
    · exact h.irrefl _ (hmem a ha) hless
    · exact UInt16.lt_irrefl _ hless
  · rintro a ha b hb c hc (hab | ⟨hab, htab⟩) (hbc | ⟨hbc, htbc⟩)
    · exact .inl (h.trans _ (hmem a ha) _ (hmem b hb) _ (hmem c hc) hab hbc)
    · exact .inl (hbc ▸ hab)
    · exact .inl (hab ▸ hbc)
    · exact .inr ⟨hab.trans hbc, UInt16.lt_trans htab htbc⟩
  · intro a ha b hb
    have hpos := h.incomparable _ (hmem a ha) _ (hmem b hb)
    rw [Bomb.eq_iff, ← hpos]
    simp only [Bomb.less, not_or, not_and, UInt16.not_lt]
    constructor
    · rintro ⟨⟨hab, htab⟩, hba, htba⟩
      have hsame := hpos.mp ⟨hab, hba⟩
      exact ⟨⟨hab, hba⟩, UInt16.le_antisymm (htba hsame.symm) (htab hsame)⟩
    · rintro ⟨⟨hab, hba⟩, htimer⟩
      exact ⟨⟨hab, fun _ => htimer ▸ UInt16.le_refl _⟩, hba, fun _ => htimer ▸ UInt16.le_refl _⟩

theorem LawfulOn.positions (h : LawfulOn Bomb.less B) :
    LawfulOn Position.less (Set.image Bomb.position B) := by
  constructor
  · rintro _ ⟨a, ha, rfl⟩ hless
    exact h.irrefl a ha (.inl hless)
  · rintro _ ⟨a, ha, rfl⟩ _ ⟨b, hb, rfl⟩ _ ⟨c, hc, rfl⟩ hab hbc
    rcases h.trans a ha b hb c hc (.inl hab) (.inl hbc) with hac | ⟨hpos, -⟩
    · exact hac
    · -- a position that is before another one and behind it
      have hba : Bomb.less b a := .inl (hpos ▸ hbc)
      exact absurd (h.trans a ha b hb a ha (.inl hab) hba) (h.irrefl a ha)
  · rintro _ ⟨a, ha, rfl⟩ _ ⟨b, hb, rfl⟩
    constructor
    · rintro ⟨hab, hba⟩
      by_contra hne
      have hsame := (h.incomparable a ha b hb).mp
        ⟨not_or.mpr ⟨hab, fun h => hne h.1⟩, not_or.mpr ⟨hba, fun h => hne h.1.symm⟩⟩
      exact hne (congrArg Bomb.position hsame)
    · intro hpos
      have hirrefl : ¬ a.position.less a.position := fun hless => h.irrefl a ha (.inl hless)
      rw [← hpos]
      exact ⟨hirrefl, hirrefl⟩

theorem Bomb.lawfulOn_iff : LawfulOn Bomb.less B ↔ Separated (Set.image Bomb.position B) := by
  rw [← Position.lawfulOn_iff]
  exact ⟨LawfulOn.positions, LawfulOn.bombs⟩

/--
Both comparisons are orders on a set of positions and on a set of bombs exactly if these
positions and those of the bombs are separated.
-/
theorem lawfulOn_less_iff : LawfulOn Position.less P ∧ LawfulOn Bomb.less B ↔
    Separated P ∧ Separated (Set.image Bomb.position B) :=
  and_congr Position.lawfulOn_iff Bomb.lawfulOn_iff

/-- The comparisons are no orders: the position in column 0 and row 1 is less than itself. -/
theorem exists_not_lawfulOn :
    ¬ (LawfulOn Position.less Set.univ ∧ LawfulOn Bomb.less Set.univ) := by
  rintro ⟨h, -⟩
  exact h.irrefl ⟨0, 1⟩ (Set.mem_univ _) (by decide)

end Bomberrobots
