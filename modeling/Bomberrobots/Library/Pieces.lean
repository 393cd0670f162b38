import Bomberrobots.Library.Except
import Bomberrobots.Library.Reading
import Mathlib.Data.Set.Defs

/-! # Words made of pieces

Where a stream arrives in parts, a reader may go wrong if a part ends in the middle of what it
reads. A word is cut into pieces, each with the places at which a part may end inside it, and
readers of pieces run one after another as readers of words do.
-/

/-- A source that knows which elements are the last of their part of the stream. -/
structure Marked (σ β : Type) extends Reading.Source σ β where
  lasts : σ → Set ℕ

/-- Pieces of words, and what may be the last element of a part without doing harm to them. -/
structure Pieces (π β : Type) where
  encode : π → List β
  survives : π → Set ℕ → Prop

namespace Pieces

variable {π β : Type} (P : Pieces π β)

def beyond (m : ℕ) (lasts : Set ℕ) : Set ℕ := {n | m + n ∈ lasts}

def word (pieces : List π) : List β := pieces.flatMap P.encode

/-- Every piece survives the marks where it stands. -/
def Survives : List π → Set ℕ → Prop
  | [], _ => True
  | piece :: pieces, lasts =>
    P.survives piece lasts ∧ Survives pieces (beyond (P.encode piece).length lasts)

variable {P} {lasts : Set ℕ} {m n : ℕ} {piece : π} {pieces pieces' : List π}

@[simp] theorem mem_beyond {k : ℕ} : k ∈ beyond m lasts ↔ m + k ∈ lasts := Iff.rfl

@[simp] theorem beyond_zero : beyond 0 lasts = lasts := by
  ext k
  rw [mem_beyond, Nat.zero_add]

theorem beyond_beyond : beyond n (beyond m lasts) = beyond (m + n) lasts := by
  ext k
  rw [mem_beyond, mem_beyond, mem_beyond, Nat.add_assoc]

@[simp] theorem word_nil : P.word [] = [] := rfl

@[simp] theorem word_cons : P.word (piece :: pieces) = P.encode piece ++ P.word pieces := rfl

@[simp] theorem word_append : P.word (pieces ++ pieces') = P.word pieces ++ P.word pieces' :=
  List.flatMap_append

theorem survives_append : P.Survives (pieces ++ pieces') lasts ↔
    P.Survives pieces lasts ∧ P.Survives pieces' (beyond (P.word pieces).length lasts) := by
  induction pieces generalizing lasts with
  | nil => simp [Survives]
  | cons piece pieces ih =>
    rw [List.cons_append, Survives, Survives, ih, beyond_beyond, word_cons, List.length_append,
      and_assoc]

end Pieces

namespace Reading

open Pieces

variable {σ β ε α α' κ π : Type} {M : Marked σ β} {P : Pieces π β} {r : Reader σ ε α} {a : α}
  {b : α'} {pieces pieces' : List π} {s s' s'' : σ}

/-- Reading on in a stream, past marks that stay where they are. -/
def Advances (M : Marked σ β) (m : ℕ) (s s' : σ) : Prop :=
  M.valid s' ∧ M.rest s' = (M.rest s).drop m ∧ M.lasts s' = beyond m (M.lasts s)

theorem Advances.trans {m n : ℕ} (h : Advances M m s s') (h' : Advances M n s' s'') :
    Advances M (m + n) s s'' := by
  obtain ⟨-, hrest, hlasts⟩ := h
  obtain ⟨hvalid, hrest', hlasts'⟩ := h'
  refine ⟨hvalid, ?_, ?_⟩
  · rw [hrest', hrest, List.drop_drop]
  · rw [hlasts', hlasts, beyond_beyond]

def Moves (M : Marked σ β) (r : Reader σ ε α) : Prop :=
  ∀ s a s', M.valid s → r.run s = .ok (a, s') → ∃ m ≤ (M.rest s).length, Advances M m s s'

namespace Moves

theorem pure : Moves M (Pure.pure a : Reader σ ε α) := by
  intro s a' s' hs hrun
  obtain ⟨rfl, rfl⟩ := Prod.mk.inj (Except.ok.inj hrun)
  exact ⟨0, Nat.zero_le _, hs, rfl, beyond_zero.symm⟩

theorem bind {f : α → Reader σ ε α'} (h : Moves M r) (h' : ∀ a, Moves M (f a)) :
    Moves M (r >>= f) := by
  intro s b s'' hs hrun
  rw [StateT.run_bind, Except.bind_eq_ok_iff] at hrun
  obtain ⟨⟨a, s'⟩, hr, hf⟩ := hrun
  obtain ⟨m, hm, hadv⟩ := h s a s' hs hr
  obtain ⟨n, hn, hadv'⟩ := h' a s' b s'' hadv.1 hf
  refine ⟨m + n, ?_, hadv.trans hadv'⟩
  rw [hadv.2.1, List.length_drop] at hn
  omega

end Moves

/-- The reader reads the value off every stream in which the pieces survive, and nothing else. -/
def Assembles (M : Marked σ β) (P : Pieces π β) (r : Reader σ ε α) (pieces : List π) (a : α) :
    Prop :=
  ∀ s rest, M.valid s → M.rest s = P.word pieces ++ rest → P.Survives pieces (M.lasts s) →
    ∃ s', r.run s = .ok (a, s') ∧ Advances M (P.word pieces).length s s'

namespace Assembles

theorem of_yields (hmoves : Moves M r)
    (h : ∀ s rest, M.valid s → M.rest s = P.word pieces ++ rest → P.Survives pieces (M.lasts s) →
      Yields M.toSource r s a rest) : Assembles M P r pieces a := by
  intro s rest hs hw hp
  obtain ⟨s', hrun, -, hrest⟩ := h s rest hs hw hp
  obtain ⟨m, hm, hadv⟩ := hmoves s a s' hs hrun
  have hlen : m = (P.word pieces).length := by
    have hleft := congrArg List.length (hadv.2.1.symm.trans hrest)
    have htotal := congrArg List.length hw
    rw [List.length_drop] at hleft
    rw [List.length_append] at htotal
    omega
  exact ⟨s', hrun, hlen ▸ hadv⟩

theorem pure : Assembles M P (Pure.pure a : Reader σ ε α) [] a :=
  fun s _ hs _ _ => ⟨s, rfl, hs, rfl, beyond_zero.symm⟩

theorem bind {f : α → Reader σ ε α'} (h : Assembles M P r pieces a)
    (h' : Assembles M P (f a) pieces' b) : Assembles M P (r >>= f) (pieces ++ pieces') b := by
  intro s rest hs hw hp
  rw [word_append, List.append_assoc] at hw
  obtain ⟨hp, hp'⟩ := survives_append.mp hp
  obtain ⟨s', hrun, hadv⟩ := h s _ hs hw hp
  have hrest : M.rest s' = P.word pieces' ++ rest := by rw [hadv.2.1, hw, List.drop_left]
  obtain ⟨s'', hrun', hadv'⟩ := h' s' rest hadv.1 hrest (hadv.2.2 ▸ hp')
  refine ⟨s'', ?_, ?_⟩
  · rw [StateT.run_bind, hrun]
    exact hrun'
  · rw [word_append, List.length_append]
    exact hadv.trans hadv'

theorem map {f : α → α'} (h : Assembles M P r pieces a) :
    Assembles M P (r >>= fun a => Pure.pure (f a)) pieces (f a) := by
  have hb := h.bind (f := fun a => Pure.pure (f a)) (b := f a) pure
  rwa [List.append_nil] at hb

theorem bind_nil {f : α → Reader σ ε α'} (h : Assembles M P r [] a)
    (h' : Assembles M P (f a) pieces b) : Assembles M P (r >>= f) pieces b :=
  h.bind h'

theorem times {read : α → Reader σ ε α} {cut : κ → List π} {δ : Type} {f : α → κ → Except δ α}
    {l : List κ} (h : ∀ k ∈ l, ∀ a a', f a k = .ok a' → Assembles M P (read a) (cut k) a')
    {a a' : α} (hf : l.foldlM f a = .ok a') :
    Assembles M P (Reading.times read l.length a) (l.flatMap cut) a' := by
  induction l generalizing a with
  | nil =>
    obtain rfl := Except.ok.inj hf
    exact .pure
  | cons k l ih =>
    rw [List.foldlM_cons] at hf
    cases hk : f a k with
    | error e =>
      rw [hk] at hf
      cases hf
    | ok m =>
      rw [hk] at hf
      refine (h k List.mem_cons_self a m hk).bind ?_
      exact ih (fun k hk => h k (List.mem_cons_of_mem _ hk)) hf

end Assembles

end Reading
