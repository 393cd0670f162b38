import Mathlib.Data.List.Basic

/-! # Reading from the front of a stream

A reader consumes a word if it reads a value off the front of every stream that starts with
the word, and leaves what follows. Readers that run one after another consume their words
one after another. Where a stream arrives in pieces, a reader that draws a word does so
wherever the pieces end.
-/

class Prepend (σ β : Type) where
  push : List β → σ → σ
  push_nil (s : σ) : push [] s = s
  push_append (w w' : List β) (s : σ) : push (w ++ w') s = push w (push w' s)

namespace Reading

variable {σ β ε α α' κ : Type}

abbrev Reader (σ ε α : Type) := StateT σ (Except ε) α

variable {r : Reader σ ε α} {w w' : List β} {a : α} {b : α'}

section Front

variable [Prepend σ β]

/-- The reader reads the value off every stream that starts with the word. -/
def Consumes (r : Reader σ ε α) (w : List β) (a : α) : Prop :=
  ∀ s : σ, r.run (Prepend.push w s) = .ok (a, s)

namespace Consumes

theorem pure : Consumes (Pure.pure a : Reader σ ε α) ([] : List β) a := by
  intro s
  rw [Prepend.push_nil]
  rfl

theorem bind {f : α → Reader σ ε α'} (h : Consumes r w a) (h' : Consumes (f a) w' b) :
    Consumes (r >>= f) (w ++ w') b := by
  intro s
  rw [Prepend.push_append, StateT.run_bind, h]
  exact h' s

theorem map {f : α → α'} (h : Consumes r w a) :
    Consumes (r >>= fun a => Pure.pure (f a)) w (f a) := by
  have hpure : Consumes (Pure.pure (f a) : Reader σ ε α') ([] : List β) (f a) := pure
  have hb := h.bind (f := fun a => Pure.pure (f a)) hpure
  rwa [List.append_nil] at hb

theorem bind_nil {f : α → Reader σ ε α'} (h : Consumes r ([] : List β) a)
    (h' : Consumes (f a) w b) : Consumes (r >>= f) w b :=
  h.bind h'

end Consumes

def times (read : α → Reader σ ε α) : ℕ → α → Reader σ ε α
  | 0, a => pure a
  | n + 1, a => read a >>= times read n

theorem Consumes.times {read : α → Reader σ ε α} {encode : κ → List β} {δ : Type}
    {f : α → κ → Except δ α} {l : List κ}
    (h : ∀ k ∈ l, ∀ a a', f a k = .ok a' → Consumes (read a) (encode k) a') {a a' : α}
    (hf : l.foldlM f a = .ok a') :
    Consumes (Reading.times read l.length a) (l.flatMap encode) a' := by
  induction l generalizing a with
  | nil =>
    obtain rfl := Except.ok.inj hf
    exact .pure
  | cons k l ih =>
    rw [List.foldlM_cons] at hf
    cases hk : f a k with
    | error e =>
      rw [hk] at hf
      cases hf
    | ok m =>
      rw [hk] at hf
      refine (h k List.mem_cons_self a m hk).bind ?_
      exact ih (fun k hk => h k (List.mem_cons_of_mem _ hk)) hf

end Front

/-- The rest of a stream, wherever it lies, and the states that a reader can be in. -/
structure Source (σ β : Type) where
  rest : σ → List β
  valid : σ → Prop

/-- In this state the reader reads the value and leaves the rest. -/
def Yields (S : Source σ β) (r : Reader σ ε α) (s : σ) (a : α) (rest : List β) : Prop :=
  ∃ s', r.run s = .ok (a, s') ∧ S.valid s' ∧ S.rest s' = rest

/-- The reader reads the value off every stream that starts with the word, wherever it lies. -/
def Draws (S : Source σ β) (r : Reader σ ε α) (w : List β) (a : α) : Prop :=
  ∀ s rest, S.valid s → S.rest s = w ++ rest → Yields S r s a rest

variable {S : Source σ β} {s s' : σ} {rest : List β}

theorem yields_congr {r' : Reader σ ε α} (h : r.run s = r'.run s') :
    Yields S r s a rest ↔ Yields S r' s' a rest := by
  rw [Yields, Yields, h]

theorem yields_iff_of_run {a' : α} (h : r.run s = .ok (a', s')) :
    Yields S r s a rest ↔ a' = a ∧ S.valid s' ∧ S.rest s' = rest := by
  constructor
  · rintro ⟨t, ht, hvalid, hrest⟩
    obtain ⟨rfl, rfl⟩ := Prod.mk.inj (Except.ok.inj (h.symm.trans ht))
    exact ⟨rfl, hvalid, hrest⟩
  · rintro ⟨rfl, hvalid, hrest⟩
    exact ⟨s', h, hvalid, hrest⟩

namespace Draws

theorem pure : Draws S (Pure.pure a : Reader σ ε α) [] a :=
  fun s _ hs h => ⟨s, rfl, hs, h⟩

theorem bind {f : α → Reader σ ε α'} (h : Draws S r w a) (h' : Draws S (f a) w' b) :
    Draws S (r >>= f) (w ++ w') b := by
  intro s rest hs hw
  rw [List.append_assoc] at hw
  obtain ⟨s', hrun, hs', hrest⟩ := h s (w' ++ rest) hs hw
  obtain ⟨s'', hrun', hs'', hrest'⟩ := h' s' rest hs' hrest
  refine ⟨s'', ?_, hs'', hrest'⟩
  rw [StateT.run_bind, hrun]
  exact hrun'

end Draws

end Reading
