import Bomberrobots.Game.Rules
import Bomberrobots.Server.Draws
import Bomberrobots.Server.Geometry

/-! # The board of the server as a board of the game

Fields are pairs of bounded numbers, and the next field is told by integers. The positions of the
server are their images in 16-bit words, on which a step wraps around at the edge of the word.
-/

namespace Bomberrobots

namespace ServerParameters

open GameEngine

variable {p : ServerParameters}

@[ext]
structure Field (p : ServerParameters) where
  x : Fin p.sizeX.toNat
  y : Fin p.sizeY.toNat

abbrev Robot (p : ServerParameters) := Fin p.playersCount.toNat

/-- One of the four directions that have a name. -/
abbrev Way := {d : Direction // d ∈ Direction.named}

def Robot.playerId (i : p.Robot) : PlayerId := .ofNat i

def Field.position (f : p.Field) : Position := ⟨.ofNat f.x, .ofNat f.y⟩

def fieldAt (p : ServerParameters) (x y : ℤ) : Option p.Field :=
  if h : (0 ≤ x ∧ x < p.sizeX.toNat) ∧ 0 ≤ y ∧ y < p.sizeY.toNat then
    some ⟨⟨x.toNat, by omega⟩, ⟨y.toNat, by omega⟩⟩
  else none

/-- The game that the parameters of a server describe. -/
def rules (p : ServerParameters) [NeZero p.sizeX.toNat] [NeZero p.sizeY.toNat] :
    Game.Rules p.Field Way where
  next d f := p.fieldAt (f.x + d.1.dx) (f.y + d.1.dy)
  radius := p.explosionRadius.toNat
  fuse := p.bombTimer.toNat
  initialBlocks := p.initialBlocks.toNat
  draw n :=
    ⟨Fin.ofNat _ (Server.randomAfter p n).next.1.toNat,
      Fin.ofNat _ ((Server.randomAfter p n).after 1).next.1.toNat⟩

namespace Robot

variable {i j : p.Robot}

@[simp] theorem toNat_playerId : i.playerId.toNat = i := by
  have hlt := p.playersCount.toNat_lt
  exact Nat.mod_eq_of_lt (i.isLt.trans hlt)

theorem playerId_inj : i.playerId = j.playerId ↔ i = j := by
  rw [← UInt8.toNat_inj, toNat_playerId, toNat_playerId, Fin.ext_iff]

theorem exists_playerId {id : PlayerId} (h : id.toNat < p.playersCount.toNat) :
    ∃ i : p.Robot, i.playerId = id := by
  refine ⟨⟨id.toNat, h⟩, ?_⟩
  rw [← UInt8.toNat_inj, toNat_playerId]

end Robot

variable {f f' : p.Field} {pos u : Position} {d : Way} {n : ℕ}

namespace Field

@[simp] theorem toNat_x : f.position.x.toNat = f.x := by
  have hlt := p.sizeX.toNat_lt
  exact Nat.mod_eq_of_lt (f.x.isLt.trans hlt)

@[simp] theorem toNat_y : f.position.y.toNat = f.y := by
  have hlt := p.sizeY.toNat_lt
  exact Nat.mod_eq_of_lt (f.y.isLt.trans hlt)

theorem position_eq_iff : f.position = pos ↔ (f.x : ℕ) = pos.x.toNat ∧ (f.y : ℕ) = pos.y.toNat := by
  rw [Position.ext_iff, ← UInt16.toNat_inj, ← UInt16.toNat_inj, toNat_x, toNat_y]

theorem position_inj : f.position = f'.position ↔ f = f' := by
  rw [position_eq_iff, toNat_x, toNat_y, Field.ext_iff, Fin.ext_iff, Fin.ext_iff]

end Field

theorem exists_position_iff : (∃ f : p.Field, f.position = pos) ↔
    pos.x < p.sizeX ∧ pos.y < p.sizeY := by
  rw [UInt16.lt_iff_toNat_lt, UInt16.lt_iff_toNat_lt]
  constructor
  · rintro ⟨f, rfl⟩
    rw [Field.toNat_x, Field.toNat_y]
    exact ⟨f.x.isLt, f.y.isLt⟩
  · rintro ⟨hx, hy⟩
    exact ⟨⟨⟨_, hx⟩, ⟨_, hy⟩⟩, Field.position_eq_iff.mpr ⟨rfl, rfl⟩⟩

theorem checkPosition_position {β : Type} {e : GameEngine β} (he : e.gameParams = p) :
    e.checkPosition f.position = true := by
  rw [checkPosition_iff, he]
  exact exists_position_iff.mp ⟨f, rfl⟩

theorem fieldAt_eq_some_iff {x y : ℤ} :
    p.fieldAt x y = some f ↔ (f.x : ℤ) = x ∧ (f.y : ℤ) = y := by
  have hx := f.x.isLt
  have hy := f.y.isLt
  unfold fieldAt
  split
  · simp only [Option.some.injEq, Field.ext_iff, Fin.ext_iff]
    omega
  · simp only [reduceCtorEq, false_iff]
    omega

variable [NeZero p.sizeX.toNat] [NeZero p.sizeY.toNat]

theorem next_eq_some_iff :
    p.rules.next d f = some f' ↔ newPosition f.position u d.1 = f'.position := by
  obtain ⟨d, hd⟩ := d
  have hx := p.sizeX.toNat_lt
  have hy := p.sizeY.toNat_lt
  have := f.x.isLt
  have := f.y.isLt
  have := f'.x.isLt
  have := f'.y.isLt
  rw [rules, fieldAt_eq_some_iff, eq_comm (b := f'.position), Field.position_eq_iff]
  cases d with
  | unnamed code => simp [Direction.named] at hd
  | _ =>
    simp only [newPosition, UInt16.toNat_add, UInt16.toNat_sub, UInt16.reduceToNat,
      Direction.dx, Direction.dy, Field.toNat_x, Field.toNat_y]
    omega

theorem checkPosition_of_next_none {β : Type} {e : GameEngine β} (he : e.gameParams = p)
    (h : p.rules.next d f = none) : e.checkPosition (newPosition f.position u d.1) = false := by
  rw [← Bool.not_eq_true, checkPosition_iff, he, ← exists_position_iff]
  rintro ⟨f', hf'⟩
  rw [next_eq_some_iff.mpr hf'.symm] at h
  cases h

theorem position_draw : (p.rules.draw n).position = (Server.randomAfter p n).position p := by
  have hmod : ∀ (r : UInt32) (size : UInt16), 0 < size.toNat →
      (r % size.toUInt32).toUInt16.toNat = r.toNat % size.toNat := by
    intro r size hpos
    have hlt := (Nat.mod_lt r.toNat hpos).trans size.toNat_lt
    rw [UInt32.toNat_toUInt16, UInt32.toNat_mod, UInt16.toNat_toUInt32, Nat.mod_eq_of_lt hlt]
  rw [Field.position_eq_iff]
  simp only [rules, Random.position, Fin.val_ofNat]
  rw [hmod _ _ (NeZero.pos _), hmod _ _ (NeZero.pos _)]
  exact ⟨rfl, rfl⟩

section Blast

variable {β : Type} [PositionSet β] {e : GameEngine β} {blocks : Set p.Field} {c : p.Field}

/-- The front of a blast moves along the ray that the server scans. -/
theorem front_eq_some_iff (he : e.gameParams = p)
    (hb : ∀ f : p.Field, e.hasBlock f.position = true ↔ f ∈ blocks) :
    p.rules.front blocks c d n = some f ↔ f.position = ray c.position d.1 n ∧
      ∀ m < n, e.checkPosition (ray c.position d.1 m) = true ∧
        e.hasBlock (ray c.position d.1 m) = false := by
  induction n generalizing f with
  | zero =>
    simp only [Game.Rules.front, ray_zero, Option.some.injEq, Nat.not_lt_zero, false_implies,
      implies_true, and_true]
    exact eq_comm.trans Field.position_inj.symm
  | succ n ih =>
    have hfree : ∀ f' : p.Field, f' ∉ blocks ↔ e.hasBlock f'.position = false := by
      intro f'
      rw [← hb, Bool.not_eq_true]
    simp only [Game.Rules.front, Option.bind_eq_some_iff, ih, Option.ite_none_left_eq_some, hfree,
      next_eq_some_iff (u := default), ray_succ (u := default) d.2]
    constructor
    · rintro ⟨f', ⟨hf', hray⟩, hblock, hnext⟩
      rw [hf'] at hblock hnext
      refine ⟨hnext.symm, fun m hm => ?_⟩
      rcases Nat.lt_succ_iff_lt_or_eq.mp hm with hm | rfl
      · exact hray m hm
      · exact ⟨hf' ▸ checkPosition_position he, hblock⟩
    · rintro ⟨hnext, hray⟩
      obtain ⟨hcheck, hblock⟩ := hray n (Nat.lt_succ_self n)
      rw [checkPosition_iff, he] at hcheck
      obtain ⟨f', hf'⟩ := exists_position_iff.mpr hcheck
      rw [← hf'] at hblock hnext
      exact ⟨f', ⟨hf', fun m hm => hray m (Nat.lt_succ_of_lt hm)⟩, hblock, hnext.symm⟩

theorem mem_blast_iff (he : e.gameParams = p)
    (hb : ∀ f : p.Field, e.hasBlock f.position = true ↔ f ∈ blocks) :
    f ∈ p.rules.blast blocks c ↔ e.Reaches c.position f.position := by
  have hc : e.checkPosition c.position = true := checkPosition_position he
  simp only [Game.Rules.blast, Set.mem_ofPred_eq, front_eq_some_iff he hb, Reaches, rays_eq,
    List.mem_map, exists_exists_and_eq_and]
  constructor
  · rintro ⟨d, n, hn, hf, hray⟩
    rcases Nat.eq_zero_or_pos n with rfl | hpos
    · exact .inl (hf.trans ray_zero)
    · have hzero := (hray 0 hpos).2
      rw [ray_zero] at hzero
      refine .inr ⟨hzero, d.1, d.2, n, hpos, he ▸ hn, fun m _ hm => hray m hm, ?_, hf⟩
      exact hf ▸ checkPosition_position he
  · rintro (hf | ⟨hzero, d, hd, n, -, hn, hray, -, hf⟩)
    · exact ⟨⟨.down, by decide⟩, 0, Nat.zero_le _, hf.trans ray_zero.symm, by simp⟩
    · refine ⟨⟨d, hd⟩, n, he ▸ hn, hf, fun m hm => ?_⟩
      rcases Nat.eq_zero_or_pos m with rfl | hpos
      · rw [ray_zero]
        exact ⟨hc, hzero⟩
      · exact hray m hpos hm

end Blast

end ServerParameters

end Bomberrobots
