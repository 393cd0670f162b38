import Bomberrobots.Library.Ray
import Bomberrobots.Library.Tree
import Bomberrobots.Server.Seeding
import Bomberrobots.Server.Turn

/-! # What an explosion does

The ray loop of `handle_explosion` visits a list of fields that depends on the board
alone. On each of them it collects the robots and the block, whatever has been
collected before, so that every bomb explodes as if it exploded alone.
-/

namespace Bomberrobots

namespace GameEngine

variable {β : Type} {e : GameEngine β}

def robotsAt (e : GameEngine β) (pos : Position) : List PlayerId :=
  (e.playersPositions.toList.filter fun player => player.2 = pos).map Prod.fst

theorem mem_robotsAt {pos : Position} {id : PlayerId} :
    id ∈ e.robotsAt pos ↔ e.playersPositions[id]? = some pos := by
  simp [robotsAt, Std.ExtTreeMap.mem_toList_iff_getElem?_eq_some]

theorem nodup_robotsAt {pos : Position} : (e.robotsAt pos).Nodup := by
  have hkeys : (e.playersPositions.toList.map Prod.fst).Nodup := by
    rw [Std.ExtTreeMap.map_fst_toList_eq_keys]
    exact Std.ExtTreeMap.nodup_keys
  exact hkeys.sublist (List.filter_sublist.map _)

namespace Explosion

def add (x : Explosion) (robots : List PlayerId) (blocks : List Position) : Explosion where
  robotsDestroyed := x.robotsDestroyed ++ robots
  blocksDestroyed := x.blocksDestroyed ++ blocks
  currentPlayersToDestroy := robots.foldl Std.ExtTreeSet.insert x.currentPlayersToDestroy
  currentBlocksToErase := x.currentBlocksToErase ++ blocks

variable {x : Explosion}

@[simp] theorem add_nil : x.add [] [] = x := by
  simp [add]

theorem add_add {robots robots' : List PlayerId} {blocks blocks' : List Position} :
    (x.add robots blocks).add robots' blocks' = x.add (robots ++ robots') (blocks ++ blocks') := by
  simp [add]

end Explosion

theorem destroyRobots_eq {pos : Position} {x : Explosion} :
    e.destroyRobots pos x = x.add (e.robotsAt pos) [] := by
  unfold destroyRobots robotsAt
  induction e.playersPositions.toList generalizing x with
  | nil => simp
  | cons player players ih =>
    rw [List.foldl_cons, ih]
    by_cases h : player.2 = pos <;> simp [h, Explosion.add]

variable [PositionSet β]

def hasBlock (e : GameEngine β) (pos : Position) : Bool :=
  PositionSet.contains e.blocksPositions pos

/-- The four rays from a field, in the order in which the loop looks at them. -/
def rays (c : Position) : List (ℕ → Position) :=
  [fun n => down c (.ofNat n), fun n => up c (.ofNat n), fun n => left c (.ofNat n),
    fun n => right c (.ofNat n)]

def fieldsAt (e : GameEngine β) (c : Position) (n : ℕ) : List Position :=
  (rays c).flatMap fun f => if Ray.covers e.checkPosition e.hasBlock f n then [f n] else []

/-- The fields covered by an explosion, in the order in which the loop visits them. -/
def blast (e : GameEngine β) (c : Position) : List Position :=
  c :: if e.hasBlock c then []
    else (List.range' 1 e.gameParams.explosionRadius.toNat).flatMap (e.fieldsAt c)

def blastRobots (e : GameEngine β) (c : Position) : List PlayerId := (e.blast c).flatMap e.robotsAt

def blastBlocks (e : GameEngine β) (c : Position) : List Position := (e.blast c).filter e.hasBlock

/--
The blast of a bomb in terms of the board: its own field, and on each ray from there the
fields within the radius that have only free fields of the board before them.
-/
def Reaches (e : GameEngine β) (c pos : Position) : Prop :=
  pos = c ∨ e.hasBlock c = false ∧ ∃ ray ∈ rays c, ∃ n, 1 ≤ n ∧
    n ≤ e.gameParams.explosionRadius.toNat ∧
    (∀ m, 1 ≤ m → m < n → e.checkPosition (ray m) = true ∧ e.hasBlock (ray m) = false) ∧
    e.checkPosition (ray n) = true ∧ pos = ray n

theorem mem_fieldsAt_iff {c pos : Position} {n : ℕ} : pos ∈ e.fieldsAt c n ↔ ∃ ray ∈ rays c,
    (∀ m, 1 ≤ m → m < n → e.checkPosition (ray m) = true ∧ e.hasBlock (ray m) = false) ∧
      e.checkPosition (ray n) = true ∧ pos = ray n := by
  simp only [fieldsAt, List.mem_flatMap, List.mem_ite_nil_right, List.mem_singleton, Ray.covers_iff,
    and_assoc]

theorem mem_blast_iff {c pos : Position} : pos ∈ e.blast c ↔ e.Reaches c pos := by
  rw [blast, List.mem_cons, Reaches]
  refine or_congr_right ?_
  cases hb : e.hasBlock c with
  | true => simp
  | false =>
    simp only [Bool.false_eq_true, if_false, true_and, List.mem_flatMap, List.mem_range'_1,
      mem_fieldsAt_iff]
    constructor
    · rintro ⟨n, ⟨hn, hr⟩, ray, hray, h⟩
      exact ⟨ray, hray, n, hn, by omega, h⟩
    · rintro ⟨ray, hray, n, hn, hr, h⟩
      exact ⟨n, ⟨hn, by omega⟩, ray, hray, h⟩

theorem mem_blastRobots_iff {c : Position} {id : PlayerId} :
    id ∈ e.blastRobots c ↔ ∃ pos, e.playersPositions[id]? = some pos ∧ e.Reaches c pos := by
  simp only [blastRobots, List.mem_flatMap, mem_blast_iff, mem_robotsAt, and_comm]

namespace Explosion

variable {x : Explosion}

def hit (e : GameEngine β) (fields : List Position) (x : Explosion) : Explosion :=
  x.add (fields.flatMap e.robotsAt) (fields.filter e.hasBlock)

@[simp] theorem hit_nil : x.hit e [] = x := add_nil

theorem hit_append {fields fields' : List Position} :
    x.hit e (fields ++ fields') = (x.hit e fields).hit e fields' := by
  simp [hit, add_add]

end Explosion

theorem scanField_eq {pos : Position} {go : Bool} {x : Explosion} :
    e.scanField pos go x = (go && Ray.passes e.checkPosition e.hasBlock pos,
      x.hit e (if go && e.checkPosition pos then [pos] else [])) := by
  unfold scanField
  rw [destroyRobots_eq]
  cases go <;> cases hc : e.checkPosition pos <;> cases hb : e.hasBlock pos <;>
    simp [hasBlock] at hb <;>
    simp [hc, hb, Ray.passes, Explosion.hit, Explosion.add, destroyBlock, hasBlock]

def clearRays (e : GameEngine β) (c : Position) (n : ℕ) : Rays where
  goDown := Ray.clear e.checkPosition e.hasBlock (fun n => down c (.ofNat n)) n
  goUp := Ray.clear e.checkPosition e.hasBlock (fun n => up c (.ofNat n)) n
  goLeft := Ray.clear e.checkPosition e.hasBlock (fun n => left c (.ofNat n)) n
  goRight := Ray.clear e.checkPosition e.hasBlock (fun n => right c (.ofNat n)) n

theorem scanRays_eq {c : Position} {n : ℕ} {x : Explosion} (hn : 1 ≤ n) :
    e.scanRays c (.ofNat n) (e.clearRays c n) x =
      (e.clearRays c (n + 1), x.hit e (e.fieldsAt c n)) := by
  simp only [scanRays, scanField_eq, clearRays, Ray.clear_succ _ _ _ hn, fieldsAt, rays,
    List.flatMap_cons, List.flatMap_nil, Explosion.hit_append, Ray.covers, Explosion.hit_nil]
  rfl

/-- The loop from distance `i` on collects what the rays cover from there. -/
theorem explosionLoop_eq {c : Position} {fuel k : ℕ} {i : ℕ} {x : Explosion} (hi : 1 ≤ i)
    (hr : e.gameParams.explosionRadius.toNat + 1 = i + k) (hk : k < fuel)
    (hmax : e.gameParams.explosionRadius.toNat < 2 ^ 16 - 1) :
    e.explosionLoop c fuel (.ofNat i) (e.clearRays c i) x =
      .ok (x.hit e ((List.range' i k).flatMap (e.fieldsAt c))) := by
  induction k generalizing fuel i x with
  | zero =>
    obtain ⟨fuel, rfl⟩ := Nat.exists_eq_succ_of_ne_zero (Nat.ne_of_gt hk)
    have hgt : ¬ UInt16.ofNat i ≤ e.gameParams.explosionRadius := by
      rw [UInt16.le_iff_toNat_le, UInt16.toNat_ofNat_of_lt' (by simp [UInt16.size]; omega)]
      omega
    simp [explosionLoop, hgt]
  | succ k ih =>
    obtain ⟨fuel, rfl⟩ := Nat.exists_eq_succ_of_ne_zero (Nat.ne_of_gt (Nat.zero_lt_of_lt hk))
    have hle : UInt16.ofNat i ≤ e.gameParams.explosionRadius := by
      rw [UInt16.le_iff_toNat_le, UInt16.toNat_ofNat_of_lt' (by simp [UInt16.size]; omega)]
      omega
    have hs : UInt16.ofNat i + 1 = UInt16.ofNat (i + 1) := by simp
    simp only [explosionLoop, hle, if_true, scanRays_eq hi, hs]
    rw [ih (by omega) (by omega) (by omega), List.range'_succ, List.flatMap_cons,
      Explosion.hit_append]

/-- At the largest radius the counter never exceeds it. -/
theorem explosionLoop_endless {c : Position} {fuel : ℕ} {i : UInt16} {go : Rays} {x : Explosion}
    (hmax : e.gameParams.explosionRadius = 65535) :
    e.explosionLoop c fuel i go x = .error .endlessLoop := by
  induction fuel generalizing i go x with
  | zero => rfl
  | succ fuel ih =>
    have hle : i ≤ e.gameParams.explosionRadius := by
      rw [hmax, UInt16.le_iff_toNat_le]
      exact Nat.le_of_lt_succ i.toNat_lt
    simp only [explosionLoop, hle, if_true]
    exact ih

/-- Whether the ray loop exits or is not entered. -/
def Exits (e : GameEngine β) (c : Position) : Prop :=
  e.gameParams.explosionRadius ≠ 65535 ∨ e.hasBlock c = true

instance {c : Position} : Decidable (e.Exits c) := instDecidableOr

theorem explode_eq {c : Position} {x : Explosion} :
    e.explode c x = if e.Exits c then .ok (x.hit e (e.blast c)) else .error .endlessLoop := by
  have hx : x.hit e [c] = if e.hasBlock c then destroyBlock c (e.destroyRobots c x)
      else e.destroyRobots c x := by
    cases hb : e.hasBlock c <;>
      simp [hb, Explosion.hit, Explosion.add, destroyRobots_eq, destroyBlock]
  cases hb : e.hasBlock c
  · have hx' : x.hit e [c] = e.destroyRobots c x := by simp [hx, hb]
    have hb' : PositionSet.contains e.blocksPositions c = false := hb
    have h1 : e.clearRays c 1 = ⟨true, true, true, true⟩ := by simp [clearRays]
    by_cases hmax : e.gameParams.explosionRadius = 65535
    · simp [explode, hb', explosionLoop_endless hmax, Exits, hmax, hb]
    · have hne : e.gameParams.explosionRadius.toNat ≠ 65535 := fun h => hmax (UInt16.toNat_inj.mp h)
      have hlt := e.gameParams.explosionRadius.toNat_lt
      have hloop : e.explosionLoop c (2 ^ 16) (.ofNat 1) (e.clearRays c 1) (x.hit e [c]) = _ :=
        explosionLoop_eq le_rfl (Nat.add_comm ..) (by omega) (by omega)
      rw [h1, show UInt16.ofNat 1 = 1 from rfl] at hloop
      have hexit : e.Exits c := .inl hmax
      simp only [explode, hb', blast, hb, if_pos hexit, Bool.false_eq_true, if_false]
      rw [← hx', hloop, ← Explosion.hit_append, List.singleton_append]
  · have hb' : PositionSet.contains e.blocksPositions c = true := hb
    simp [explode, hb', Exits, hb, blast, hx]

end GameEngine

end Bomberrobots
