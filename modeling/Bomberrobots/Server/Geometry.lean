import Bomberrobots.Server.Explosion
import Bomberrobots.Server.Receive

/-! # The geometry of the board

Coordinates are 16-bit words, and a step over the edge wraps around. The bounds check sees
the result of each single step, and on a board of at most 65535 columns and rows no single
step leads back onto it. So what has passed the check at every step is a straight line.
-/

namespace Bomberrobots

/-- A field lies at an offset from another, counted in integers. -/
structure Position.Offset (c pos : Position) (dx dy : ℤ) : Prop where
  x : (pos.x.toNat : ℤ) = c.x.toNat + dx
  y : (pos.y.toNat : ℤ) = c.y.toNat + dy

namespace Position.Offset

variable {a b c : Position} {dx dy dx' dy' : ℤ}

theorem zero : Offset a a 0 0 := ⟨(add_zero _).symm, (add_zero _).symm⟩

theorem trans (h : Offset a b dx dy) (h' : Offset b c dx' dy') :
    Offset a c (dx + dx') (dy + dy') where
  x := by rw [h'.x, h.x, add_assoc]
  y := by rw [h'.y, h.y, add_assoc]

theorem offset_eq (h : Offset a b dx dy) (h' : Offset a b dx' dy') : dx = dx' ∧ dy = dy' :=
  ⟨add_left_cancel (h.x.symm.trans h'.x), add_left_cancel (h.y.symm.trans h'.y)⟩

end Position.Offset

namespace Direction

def named : List Direction := [.down, .up, .left, .right]

def dx : Direction → ℤ
  | .left => -1
  | .right => 1
  | _ => 0

def dy : Direction → ℤ
  | .down => -1
  | .up => 1
  | _ => 0

theorem named_injective {d d' : Direction} {n m : ℕ} (hd : d ∈ named)
    (hd' : d' ∈ named) (hn : 1 ≤ n) (hx : n * d.dx = m * d'.dx)
    (hy : n * d.dy = m * d'.dy) : n = m ∧ d = d' := by
  simp only [named, List.mem_cons, List.not_mem_nil, or_false] at hd hd'
  rcases hd with rfl | rfl | rfl | rfl <;> rcases hd' with rfl | rfl | rfl | rfl <;>
    simp [dx, dy] at hx hy ⊢ <;> omega

end Direction

namespace GameEngine

variable {β : Type} {e : GameEngine β} {c pos u : Position} {d : Direction} {n : ℕ}

/-- The field that an explosion looks at in a direction, by the counter of its loop. -/
def fieldAt (c : Position) : Direction → UInt16 → Position
  | .down, i => down c i
  | .up, i => up c i
  | .left, i => left c i
  | .right, i => right c i
  | .unnamed _, _ => c

def ray (c : Position) (d : Direction) (n : ℕ) : Position := fieldAt c d (.ofNat n)

theorem rays_eq : rays c = Direction.named.map (ray c) := rfl

theorem ray_zero : ray c d 0 = c := by
  cases d <;> simp [ray, fieldAt, down, up, left, right]

theorem ray_succ (hd : d ∈ Direction.named) :
    ray c d (n + 1) = newPosition (ray c d n) u d := by
  cases d with
  | unnamed code => simp [Direction.named] at hd
  | up => simp [ray, fieldAt, up, newPosition, add_assoc]
  | right => simp [ray, fieldAt, right, newPosition, add_assoc]
  | down => simp [ray, fieldAt, down, newPosition, sub_sub]
  | left => simp [ray, fieldAt, left, newPosition, sub_sub]

/-- A step between two fields of the board does not wrap around. -/
theorem offset_newPosition (hd : d ∈ Direction.named) (hpos : e.checkPosition pos = true)
    (hnew : e.checkPosition (newPosition pos u d) = true) :
    pos.Offset (newPosition pos u d) d.dx d.dy := by
  rw [checkPosition_iff, UInt16.lt_iff_toNat_lt, UInt16.lt_iff_toNat_lt] at hpos hnew
  have hx := e.gameParams.sizeX.toNat_lt
  have hy := e.gameParams.sizeY.toNat_lt
  cases d with
  | unnamed code => simp [Direction.named] at hd
  | _ =>
    simp only [newPosition, UInt16.toNat_add, UInt16.toNat_sub, UInt16.reduceToNat] at hnew
    constructor <;>
      simp only [newPosition, UInt16.toNat_add, UInt16.toNat_sub, UInt16.reduceToNat,
        Direction.dx, Direction.dy] <;> omega

/-- Fields of a ray that all pass the check form a straight line. -/
theorem offset_ray (hd : d ∈ Direction.named) (hc : e.checkPosition c = true)
    (h : ∀ m, 1 ≤ m → m ≤ n → e.checkPosition (ray c d m) = true) :
    c.Offset (ray c d n) (n * d.dx) (n * d.dy) := by
  induction n with
  | zero =>
    rw [ray_zero]
    simpa using Position.Offset.zero
  | succ n ih =>
    have hn : e.checkPosition (ray c d n) = true := by
      rcases Nat.eq_zero_or_pos n with rfl | hpos
      · rwa [ray_zero]
      · exact h n hpos (Nat.le_succ n)
    have hstep := h (n + 1) (Nat.le_add_left 1 n) le_rfl
    rw [ray_succ (u := c) hd] at hstep ⊢
    have hline := (ih fun m hm hle => h m hm (hle.trans (Nat.le_succ n))).trans
      (offset_newPosition hd hn hstep)
    rwa [Nat.cast_succ, add_one_mul, add_one_mul]

theorem eq_ray_of_offset (hd : d ∈ Direction.named) (h : c.Offset pos (n * d.dx) (n * d.dy)) :
    pos = ray c d n := by
  obtain ⟨hx, hy⟩ := h
  have hxlt := pos.x.toNat_lt
  have hylt := pos.y.toNat_lt
  cases d with
  | unnamed code => simp [Direction.named] at hd
  | _ =>
    simp only [Direction.dx, Direction.dy, mul_one, mul_zero, mul_neg] at hx hy
    apply Position.ext <;> apply UInt16.toNat_inj.mp <;>
      simp [ray, fieldAt, down, up, left, right, UInt16.toNat_sub] <;> omega

theorem checkPosition_ray (hd : d ∈ Direction.named) (hc : e.checkPosition c = true)
    (hpos : e.checkPosition pos = true) (h : c.Offset pos (n * d.dx) (n * d.dy)) {m : ℕ}
    (hm : m ≤ n) : e.checkPosition (ray c d m) = true := by
  obtain ⟨hx, hy⟩ := h
  rw [checkPosition_iff, UInt16.lt_iff_toNat_lt, UInt16.lt_iff_toNat_lt] at hc hpos ⊢
  have hxlt := e.gameParams.sizeX.toNat_lt
  have hylt := e.gameParams.sizeY.toNat_lt
  cases d with
  | unnamed code => simp [Direction.named] at hd
  | _ =>
    simp only [Direction.dx, Direction.dy, mul_one, mul_zero, mul_neg] at hx hy
    simp only [ray, fieldAt, down, up, left, right, UInt16.toNat_add, UInt16.toNat_sub,
      UInt16.toNat_ofNat']
    omega

end GameEngine

end Bomberrobots
