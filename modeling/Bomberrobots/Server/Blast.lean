import Bomberrobots.Library.WhileLoop
import Bomberrobots.Server.Geometry
import Bomberrobots.Server.Parameters
import Bomberrobots.Server.Rounds

/-! # When and what a bomb destroys

The ray loop counts the distance in 16 bits and compares it with a radius of 16 bits, so it
exits for every radius but the largest. What it has collected by then is the blast: the
centre and, unless the centre holds a block, the fields up to the first block on each ray.
-/

namespace Bomberrobots

namespace GameEngine

variable {β : Type} [PositionSet β] {e : GameEngine β} {c pos : Position} {x : Explosion}

def Rays.all : Rays := ⟨true, true, true, true⟩

def rayLoop (e : GameEngine β) (c : Position) : WhileLoop (UInt16 × Rays × Explosion) where
  guard s := s.1 ≤ e.gameParams.explosionRadius
  body s := (s.1 + 1, e.scanRays c s.1 s.2.1 s.2.2)

theorem explosionLoop_eq_exec {fuel : ℕ} {i : UInt16} {go : Rays} :
    e.explosionLoop c fuel i go x =
      match (e.rayLoop c).exec fuel (i, go, x) with
      | some s => .ok s.2.2
      | none => .error .endlessLoop := by
  induction fuel generalizing i go x with
  | zero => rfl
  | succ fuel ih =>
    unfold explosionLoop WhileLoop.exec
    by_cases hi : i ≤ e.gameParams.explosionRadius
    · have hg : (e.rayLoop c).guard (i, go, x) = true := decide_eq_true hi
      rw [if_pos hi, if_pos hg]
      exact ih
    · have hg : (e.rayLoop c).guard (i, go, x) = false := decide_eq_false hi
      rw [if_neg hi, if_neg (by simp [hg])]

/-- The loop of the source returns with some fuel exactly when the ray loop exits. -/
theorem explosionLoop_ok_iff : (∃ fuel y, e.explosionLoop c fuel 1 Rays.all x = .ok y) ↔
    (e.rayLoop c).Exits (1, Rays.all, x) := by
  rw [WhileLoop.exits_iff_exec]
  constructor
  · rintro ⟨fuel, y, h⟩
    rw [explosionLoop_eq_exec] at h
    split at h
    · exact ⟨fuel, _, ‹_›⟩
    · cases h
  · rintro ⟨fuel, s, h⟩
    refine ⟨fuel, s.2.2, ?_⟩
    rw [explosionLoop_eq_exec, h]

theorem after_rayLoop (k : ℕ) : (e.rayLoop c).after (1, Rays.all, x) k =
    (.ofNat (k + 1), e.clearRays c (k + 1),
      x.hit e ((List.range' 1 k).flatMap (e.fieldsAt c))) := by
  refine WhileLoop.after_invariant (I := fun k t => t = (UInt16.ofNat (k + 1),
    e.clearRays c (k + 1), x.hit e ((List.range' 1 k).flatMap (e.fieldsAt c)))) ?_ ?_ k
  · simp [clearRays, Rays.all]
  · rintro k t rfl
    have hs : UInt16.ofNat (k + 1) + 1 = UInt16.ofNat (k + 1 + 1) := by simp
    rw [List.range'_1_concat, List.flatMap_append, Explosion.hit_append, Nat.add_comm 1 k]
    simp only [rayLoop, scanRays_eq (Nat.le_add_left 1 k), hs, List.flatMap_singleton]

/-- The ray loop of an explosion exits, if the explosion gets to it at all. -/
def RaysEnd (e : GameEngine β) (c : Position) : Prop :=
  e.hasBlock c = false → ∀ x, (e.rayLoop c).Exits (1, Rays.all, x)

theorem exits_rayLoop_iff :
    (e.rayLoop c).Exits (1, Rays.all, x) ↔ e.gameParams.explosionRadius ≠ 65535 := by
  constructor
  · rintro ⟨k, hg⟩ hmax
    rw [after_rayLoop] at hg
    have hgt : ¬ UInt16.ofNat (k + 1) ≤ e.gameParams.explosionRadius := of_decide_eq_false hg
    rw [hmax, UInt16.le_iff_toNat_le] at hgt
    have hlt := (UInt16.ofNat (k + 1)).toNat_lt
    simp only [UInt16.reduceToNat] at hgt
    omega
  · intro hmax
    have hne : e.gameParams.explosionRadius.toNat ≠ 65535 := fun h => hmax (UInt16.toNat_inj.mp h)
    have hlt := e.gameParams.explosionRadius.toNat_lt
    refine ⟨e.gameParams.explosionRadius.toNat, ?_⟩
    rw [after_rayLoop]
    apply decide_eq_false
    rw [UInt16.le_iff_toNat_le, UInt16.toNat_ofNat_of_lt' (by simp [UInt16.size]; omega)]
    omega

theorem raysEnd_iff : e.RaysEnd c ↔ e.Exits c := by
  constructor
  · intro h
    cases hb : e.hasBlock c with
    | false => exact .inl (exits_rayLoop_iff.mp (h hb ⟨[], [], ∅, []⟩))
    | true => exact .inr hb
  · rintro (hmax | hb) hn x
    · exact exits_rayLoop_iff.mpr hmax
    · exact Bool.noConfusion (hn.symm.trans hb)

theorem explode_returns_iff : (∃ y, e.explode c x = .ok y) ↔ e.RaysEnd c := by
  rw [raysEnd_iff, explode_eq]
  split <;> simp [*]

/-- The ray loop exits for every radius but the largest. -/
theorem raysEnd_iff_radius {options : Options} {parsed : ParsedParameters}
    (h : parseParameters (some options) = .ok parsed)
    (he : e.gameParams = parsed.toServerParameters) :
    e.RaysEnd c ↔ options.explosionRadius ≠ 65535 ∨ e.hasBlock c = true := by
  have hradius : parsed.explosionRadius = options.explosionRadius := by
    unfold parseParameters at h
    dsimp only at h
    split_ifs at h
    obtain rfl := Except.ok.inj h
    rfl
  rw [raysEnd_iff, Exits, he, hradius]

def widest : Options where
  bombTimer := 2
  playersCountU16 := 2
  turnDuration := 100
  explosionRadius := 65535
  initialBlocks := 0
  gameLength := 3
  serverName := []
  port := 2022
  seed := 0
  sizeX := 3
  sizeY := 3
  help := false

theorem raysEnd_iff_radius_widest : ∃ parsed, parseParameters (some widest) = .ok parsed ∧
    ¬ (GameEngine.new parsed.toServerParameters : GameEngine (StdSet Position)).RaysEnd ⟨1, 1⟩ := by
  have hparsed : parseParameters (some widest) = .ok _ := rfl
  refine ⟨_, hparsed, fun hend => ?_⟩
  have hor := (raysEnd_iff_radius hparsed rfl).mp hend
  revert hor
  decide

/-- A bomb can freeze the server. -/
theorem exists_not_raysEnd : ¬ ∀ options parsed, parseParameters (some options) = .ok parsed →
    ∀ (e : GameEngine (StdSet Position)) (c : Position),
      e.gameParams = parsed.toServerParameters → e.RaysEnd c := by
  intro h
  have hend := h widest _ rfl (.new _) ⟨1, 1⟩ rfl
  exact absurd (raysEnd_iff.mp hend) (by decide)

/--
The blast of a bomb: its own field and, unless that carries a block, in each direction the
fields of the board within the radius that have no block between them and the bomb.
-/
def InBlast (e : GameEngine β) (c pos : Position) : Prop :=
  pos = c ∨ e.hasBlock c = false ∧ ∃ d ∈ Direction.named, ∃ n : ℕ,
    1 ≤ n ∧ n ≤ e.gameParams.explosionRadius.toNat ∧ e.checkPosition pos = true ∧
    c.Offset pos (n * d.dx) (n * d.dy) ∧
    ∀ (m : ℕ) (pos' : Position), 1 ≤ m → m < n → c.Offset pos' (m * d.dx) (m * d.dy) →
      e.hasBlock pos' = false

theorem reaches_iff_inBlast (hc : e.checkPosition c = true) :
    e.Reaches c pos ↔ e.InBlast c pos := by
  refine or_congr_right (and_congr_right' ?_)
  simp only [rays_eq, List.mem_map, exists_exists_and_eq_and]
  refine exists_congr fun d => and_congr_right fun hd => exists_congr fun n => ?_
  refine and_congr_right' (and_congr_right' ?_)
  constructor
  · rintro ⟨hclear, hn, rfl⟩
    have hline := offset_ray (n := n) hd hc fun m hm hle => by
      rcases hle.eq_or_lt with rfl | hlt
      · exact hn
      · exact (hclear m hm hlt).1
    refine ⟨hn, hline, fun m pos' hm hlt hpos' => ?_⟩
    rw [eq_ray_of_offset hd hpos']
    exact (hclear m hm hlt).2
  · rintro ⟨hpos, hline, hclear⟩
    have hray : ∀ m ≤ n, e.checkPosition (ray c d m) = true := fun m hm =>
      checkPosition_ray hd hc hpos hline hm
    refine ⟨fun m hm hlt => ⟨hray m hlt.le, ?_⟩, hray n le_rfl, eq_ray_of_offset hd hline⟩
    exact hclear m _ hm hlt (offset_ray hd hc fun k _ hk => hray k (hk.trans hlt.le))

theorem mem_fieldsAt_offset {n : ℕ} (hc : e.checkPosition c = true) (h : pos ∈ e.fieldsAt c n) :
    ∃ d ∈ Direction.named, c.Offset pos (n * d.dx) (n * d.dy) := by
  rw [mem_fieldsAt_iff, rays_eq] at h
  obtain ⟨_, hray, hclear, hn, rfl⟩ := h
  obtain ⟨d, hd, rfl⟩ := List.mem_map.mp hray
  refine ⟨d, hd, offset_ray hd hc fun m hm hle => ?_⟩
  rcases hle.eq_or_lt with rfl | hlt
  · exact hn
  · exact (hclear m hm hlt).1

theorem nodup_fieldsAt {n : ℕ} (hc : e.checkPosition c = true) (hn : 1 ≤ n) :
    (e.fieldsAt c n).Nodup := by
  have hcovers : ∀ d ∈ Direction.named, ∀ p, p ∈ (if Ray.covers e.checkPosition e.hasBlock
      (ray c d) n then [ray c d n] else []) → c.Offset p (n * d.dx) (n * d.dy) := by
    intro d hd p hp
    split at hp
    · obtain rfl := List.mem_singleton.mp hp
      obtain ⟨hclear, hlast⟩ := (Ray.covers_iff ..).mp ‹_›
      refine offset_ray hd hc fun m hm hle => ?_
      rcases hle.eq_or_lt with rfl | hlt
      · exact hlast
      · exact (hclear m hm hlt).1
    · cases hp
  rw [fieldsAt, rays_eq, List.flatMap_map, List.nodup_flatMap]
  constructor
  · intro d _
    split <;> simp
  · have hnamed : Direction.named.Nodup := by decide
    refine hnamed.pairwise_of_forall_ne fun d hd d' hd' hne p hp hp' => hne ?_
    obtain ⟨hx, hy⟩ := (hcovers d hd p hp).offset_eq (hcovers d' hd' p hp')
    exact (Direction.named_injective hd hd' hn hx hy).2

theorem nodup_blast (hc : e.checkPosition c = true) : (e.blast c).Nodup := by
  unfold blast
  split
  · exact List.nodup_singleton c
  · rw [List.nodup_cons]
    constructor
    · intro hm
      obtain ⟨n, hn, hm⟩ := List.mem_flatMap.mp hm
      obtain ⟨d, hd, hline⟩ := mem_fieldsAt_offset hc hm
      obtain ⟨hx, hy⟩ := hline.offset_eq Position.Offset.zero
      have hpos := (List.mem_range'_1.mp hn).1
      have hzero := Direction.named_injective (m := 0) hd hd hpos (by simpa using hx)
        (by simpa using hy)
      omega
    · rw [List.nodup_flatMap]
      refine ⟨fun n hn => nodup_fieldsAt hc (List.mem_range'_1.mp hn).1, ?_⟩
      have hrange : (List.range' 1 e.gameParams.explosionRadius.toNat).Nodup := List.nodup_range'
      refine hrange.pairwise_of_forall_ne fun n hn m hm hne p hp hp' => hne ?_
      obtain ⟨d, hd, hline⟩ := mem_fieldsAt_offset hc hp
      obtain ⟨d', hd', hline'⟩ := mem_fieldsAt_offset hc hp'
      obtain ⟨hx, hy⟩ := hline.offset_eq hline'
      exact (Direction.named_injective hd hd' (List.mem_range'_1.mp hn).1 hx hy).1

theorem nodup_blastRobots (hc : e.checkPosition c = true) : (e.blastRobots c).Nodup := by
  rw [blastRobots, List.nodup_flatMap]
  refine ⟨fun _ _ => nodup_robotsAt, (nodup_blast hc).imp fun hne id hid hid' => hne ?_⟩
  exact Option.some.inj ((mem_robotsAt.mp hid).symm.trans (mem_robotsAt.mp hid'))

/--
An explosion whose loop exits records the robots and the blocks of the blast, each of them
once, and changes nothing else.
-/
theorem handleExplosion_exact {id : BombId} {bomb : Bomb}
    (hc : e.checkPosition bomb.position = true) (ht : e.currentTurn.toNat < e.turns.length)
    (hend : e.RaysEnd bomb.position) :
    ∃ (robots : List PlayerId) (blocks : List Position) (e' : GameEngine β),
      e.handleExplosion id bomb = .ok e' ∧
      robots.Nodup ∧ (∀ k, k ∈ robots ↔
        ∃ pos, e.playersPositions[k]? = some pos ∧ e.InBlast bomb.position pos) ∧
      blocks.Nodup ∧ (∀ pos, pos ∈ blocks ↔
        e.InBlast bomb.position pos ∧ PositionSet.contains e.blocksPositions pos = true) ∧
      (∀ k, k ∈ e'.currentPlayersToDestroy ↔ k ∈ e.currentPlayersToDestroy ∨ k ∈ robots) ∧
      e' = { e with
        turns := logEvents e.turns e.currentTurn.toNat [.bombExploded id robots blocks]
        currentPlayersToDestroy := e'.currentPlayersToDestroy
        currentBlocksToErase := e.currentBlocksToErase ++ blocks } := by
  refine ⟨e.blastRobots bomb.position, e.blastBlocks bomb.position, { e with
      turns := logEvents e.turns e.currentTurn.toNat [e.explodedEvent (id, bomb)]
      currentPlayersToDestroy := (e.blastRobots bomb.position).foldl Std.ExtTreeSet.insert
        e.currentPlayersToDestroy
      currentBlocksToErase := e.currentBlocksToErase ++ e.blastBlocks bomb.position }, ?_,
    nodup_blastRobots hc, ?_, (nodup_blast hc).sublist List.filter_sublist, ?_, ?_, rfl⟩
  · unfold handleExplosion
    rw [explode_eq, if_pos (raysEnd_iff.mp hend)]
    exact addEvent_ok_iff.mpr ⟨ht, rfl⟩
  · intro k
    simp only [mem_blastRobots_iff, reaches_iff_inBlast hc]
  · intro pos
    rw [blastBlocks, List.mem_filter, mem_blast_iff, reaches_iff_inBlast hc]
    rfl
  · intro k
    exact Std.ExtTreeSet.mem_foldl_insert _

/--
A board of nine fields with a block in the corner, under which one robot stands and another one
to the left of it. The set of the program finds this block like `StdSet` does.
-/
def crossing : GameEngine (StdSet Position) :=
  { (GameEngine.new ⟨2, 2, 2, 0, 3, [], 0, 3, 3⟩ : GameEngine (StdSet Position)) with
    playersPositions := (Std.ExtTreeMap.insert ∅ 0 ⟨2, 1⟩).insert 1 ⟨1, 1⟩
    blocksPositions := Std.ExtTreeSet.insert ∅ ⟨2, 2⟩
    turns := [.new 0] }

theorem handleExplosion_exact_crossing :
    ∃ (robots : List PlayerId) (blocks : List Position) (e' : GameEngine (StdSet Position)),
      crossing.handleExplosion 0 ⟨⟨2, 1⟩, 0⟩ = .ok e' ∧ robots.Nodup ∧ blocks.Nodup ∧
      (∀ k, k ∈ robots ↔
        ∃ pos, crossing.playersPositions[k]? = some pos ∧ crossing.InBlast ⟨2, 1⟩ pos) ∧
      ∀ pos, pos ∈ blocks ↔
        crossing.InBlast ⟨2, 1⟩ pos ∧ crossing.blocksPositions.contains pos = true := by
  obtain ⟨robots, blocks, e', h, hr, hrobots, hb, hblocks, -⟩ :=
    @handleExplosion_exact _ _ crossing 0 ⟨⟨2, 1⟩, 0⟩ (by decide) (by decide)
      (raysEnd_iff.mpr (.inl (by decide)))
  exact ⟨robots, blocks, e', h, hr, hb, hrobots, hblocks⟩

end GameEngine

end Bomberrobots
