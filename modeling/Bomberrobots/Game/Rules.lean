import Mathlib

/-! # The rules of the game

Robots, blocks and bombs on fields of any kind. What a field is, which field lies next to it in
a direction and which fields are drawn is left open, and so is how many robots there are.
-/

namespace Bomberrobots

namespace Game

/-- What a game is played with. -/
structure Rules (φ δ : Type) where
  /-- The next field in a direction, if the board does not end there. -/
  next : δ → φ → Option φ
  radius : ℕ
  /-- The turns until a bomb goes off. -/
  fuse : ℤ
  initialBlocks : ℕ
  /-- The fields that are drawn, one after another. -/
  draw : ℕ → φ

structure State (ι φ : Type) where
  robots : ι → φ
  blocks : Set φ
  /-- The bombs on the board in the order in which they were placed, with the turns left. -/
  bombs : ℕ → Option (φ × ℤ)
  placed : ℕ
  points : ι → ℕ
  drawn : ℕ
  /-- The robots that have been destroyed in the current turn. -/
  hit : Finset ι

inductive Command (δ : Type)
  | bomb | block | move (d : δ)
  deriving DecidableEq

open scoped Classical

variable {ι φ δ : Type}

namespace Rules

variable (g : Rules φ δ)

/-- Where the blast of a bomb has got to in a direction, unless it has met a block before. -/
noncomputable def front (blocks : Set φ) (c : φ) (d : δ) : ℕ → Option φ
  | 0 => some c
  | n + 1 => (front blocks c d n).bind fun f => if f ∈ blocks then none else g.next d f

def blast (blocks : Set φ) (c : φ) : Set φ :=
  {f | ∃ d, ∃ n ≤ g.radius, g.front blocks c d n = some f}

def burning (s : State ι φ) : Set φ :=
  {f | ∃ k c, s.bombs k = some (c, 1) ∧ f ∈ g.blast s.blocks c}

/-- The bombs go off together: none of them clears the way for another. -/
noncomputable def explode [Fintype ι] (s : State ι φ) : State ι φ :=
  { s with
    blocks := s.blocks \ g.burning s
    bombs := fun k => ((s.bombs k).filter fun b => b.2 ≠ 1).map fun b => (b.1, b.2 - 1)
    hit := Finset.univ.filter fun i => s.robots i ∈ g.burning s }

noncomputable def act (s : State ι φ) (i : ι) : Command δ → State ι φ
  | .bomb =>
    { s with bombs := Function.update s.bombs s.placed (some (s.robots i, g.fuse))
             placed := s.placed + 1 }
  | .block => { s with blocks := insert (s.robots i) s.blocks }
  | .move d =>
    (g.next d (s.robots i)).elim s fun f =>
      if f ∈ s.blocks then s else { s with robots := Function.update s.robots i f }

/-- A robot that has been destroyed does not obey. -/
noncomputable def obey (s : State ι φ) (c : ι × Command δ) : State ι φ :=
  if c.1 ∈ s.hit then s else g.act s c.1 c.2

section Turns

variable [Fintype ι]

noncomputable def unfinished (s : State ι φ) (commands : List (ι × Command δ)) : State ι φ :=
  commands.foldl g.obey (g.explode s)

variable [LinearOrder ι]

/-- How many robots of a set come before a robot. -/
def rank (who : Finset ι) (i : ι) : ℕ := (who.filter (· < i)).card

/-- The robots that have been destroyed come back on the fields drawn next, with a point more. -/
def respawn (s : State ι φ) : State ι φ :=
  { s with
    robots := fun i => if i ∈ s.hit then g.draw (s.drawn + rank s.hit i) else s.robots i
    points := fun i => if i ∈ s.hit then s.points i + 1 else s.points i
    drawn := s.drawn + s.hit.card
    hit := ∅ }

noncomputable def turn (s : State ι φ) (commands : List (ι × Command δ)) : State ι φ :=
  g.respawn (g.unfinished s commands)

/-- The board when some fields have been drawn in earlier games. -/
def start (n : ℕ) : State ι φ where
  robots i := g.draw (n + rank Finset.univ i)
  blocks := {f | ∃ k < g.initialBlocks, f = g.draw (n + Fintype.card ι + k)}
  bombs _ := none
  placed := 0
  points _ := 0
  drawn := n + Fintype.card ι + g.initialBlocks
  hit := ∅

noncomputable def play (n : ℕ) (turns : List (List (ι × Command δ))) : State ι φ :=
  turns.foldl g.turn (g.start n)

end Turns

variable {g} {s : State ι φ} {i j : ι} {c : ι × Command δ} {cs : List (ι × Command δ)}

theorem explode_of_no_bombs [Fintype ι] (hb : ∀ k, s.bombs k = none) (hh : s.hit = ∅) :
    g.explode s = s := by
  have hburn : g.burning s = ∅ := by
    ext f
    simp [burning, hb]
  have hbombs : (fun k => ((s.bombs k).filter fun b => b.2 ≠ 1).map fun b => (b.1, b.2 - 1)) =
      s.bombs := by
    funext k
    simp [hb]
  simp only [explode, hburn, hbombs]
  simp [← hh]

section Turns

variable [Fintype ι]

theorem unfinished_concat : g.unfinished s (cs ++ [c]) = g.obey (g.unfinished s cs) c := by
  simp [unfinished]

variable [LinearOrder ι] {n : ℕ} {turns : List (List (ι × Command δ))}

theorem play_concat : g.play n (turns ++ [cs]) = g.turn (g.play n turns) cs := by
  simp [play]

end Turns

end Rules

end Game

end Bomberrobots
