import Bomberrobots.Server.Blast
import Bomberrobots.Server.Safety

/-! # Everything stays on the board

Whatever a step adds has passed the bounds check or stood on the board before. This needs
nothing of the set of the blocks but that it invents no positions.
-/

namespace Bomberrobots

/-- A set that holds nothing but what has been inserted. -/
class PositionSet.Grounded (β : Type) [PositionSet β] : Prop where
  toList_empty : PositionSet.toList (PositionSet.empty : β) = []
  mem_insert : ∀ {s : β} {pos pos' : Position},
    pos ∈ PositionSet.toList (PositionSet.insert s pos') → pos = pos' ∨ pos ∈ PositionSet.toList s
  mem_erase : ∀ {s : β} {pos pos' : Position},
    pos ∈ PositionSet.toList (PositionSet.erase s pos') → pos ∈ PositionSet.toList s

namespace PositionSet

instance Grounded.instStdSet : Grounded (StdSet Position) where
  toList_empty := rfl
  mem_insert {s pos pos'} h := by
    rcases Std.ExtTreeSet.mem_insert.mp (Std.ExtTreeSet.mem_toList.mp h) with heq | hm
    · exact .inl (Std.LawfulEqCmp.compare_eq_iff_eq.mp heq).symm
    · exact .inr (Std.ExtTreeSet.mem_toList.mpr hm)
  mem_erase h := by
    have hm := Std.ExtTreeSet.mem_erase.mp (Std.ExtTreeSet.mem_toList.mp h)
    exact Std.ExtTreeSet.mem_toList.mpr hm.2

variable {β : Type} [PositionSet β] [Grounded β] {s : β} {pos : Position} {l : List Position}

theorem mem_foldl_insert (h : pos ∈ toList (l.foldl insert s)) : pos ∈ l ∨ pos ∈ toList s := by
  induction l generalizing s with
  | nil => exact .inr h
  | cons pos' l ih =>
    rcases ih h with hl | hs
    · exact .inl (List.mem_cons_of_mem _ hl)
    · rcases Grounded.mem_insert hs with rfl | hs
      · exact .inl List.mem_cons_self
      · exact .inr hs

theorem mem_foldl_erase (h : pos ∈ toList (l.foldl erase s)) : pos ∈ toList s := by
  induction l generalizing s with
  | nil => exact h
  | cons pos' l ih => exact Grounded.mem_erase (ih h)

end PositionSet

def Event.positions : Event → List Position
  | .bombPlaced _ position => [position]
  | .bombExploded _ _ blocksDestroyed => blocksDestroyed
  | .playerMoved _ position => [position]
  | .blockPlaced position => [position]

def ServerParameters.HasField (p : ServerParameters) (pos : Position) : Prop :=
  pos.x < p.sizeX ∧ pos.y < p.sizeY

namespace GameEngine

variable {β : Type} {e : GameEngine β} {p : ServerParameters}

theorem checkPosition_of_hasField {pos : Position} (he : e.gameParams = p) (h : p.HasField pos) :
    e.checkPosition pos = true :=
  checkPosition_iff.mpr (he ▸ h)

theorem hasField_of_checkPosition {pos : Position} (he : e.gameParams = p)
    (h : e.checkPosition pos = true) : p.HasField pos :=
  he ▸ checkPosition_iff.mp h

theorem hasField_of_movedEvents {robots : List (PlayerId × Position)}
    (hr : ∀ robot ∈ robots, e.checkPosition robot.2 = true) (he : e.gameParams = p) :
    ∀ event ∈ robots.map movedEvent, ∀ pos ∈ event.positions, p.HasField pos := by
  intro event hm pos hpos
  obtain ⟨robot, hrobot, rfl⟩ := List.mem_map.mp hm
  obtain rfl := List.mem_singleton.mp hpos
  exact hasField_of_checkPosition he (hr robot hrobot)

variable [PositionSet β]

/-- Every position that the engine keeps is a field of the board. -/
structure OnBoard (p : ServerParameters) (e : GameEngine β) : Prop where
  params : e.gameParams = p
  robots : ∀ (id : PlayerId) (pos : Position), e.playersPositions[id]? = some pos → p.HasField pos
  blocks : ∀ pos ∈ PositionSet.toList e.blocksPositions, p.HasField pos
  bombs : ∀ (id : BombId) (bomb : Bomb), e.bombs[id]? = some bomb → p.HasField bomb.position
  erase : ∀ pos ∈ e.currentBlocksToErase, p.HasField pos
  events : ∀ event ∈ allEvents e.turns, ∀ pos ∈ event.positions, p.HasField pos

def Rays.goes (go : Rays) : Direction → Bool
  | .down => go.goDown
  | .up => go.goUp
  | .left => go.goLeft
  | .right => go.goRight
  | .unnamed _ => false

/--
No bounds check lets a position through that has wrapped around: a move leads to the next
field, and in the round `k + 1` of its loop an explosion looks at the distance `k + 1`.
-/
structure NoWrap (p : ServerParameters) (e : GameEngine β) : Prop where
  move : ∀ pos u : Position, ∀ d ∈ Direction.named, p.HasField pos →
    e.checkPosition (newPosition pos u d) = true → pos.Offset (newPosition pos u d) d.dx d.dy
  blast : ∀ (c : Position) (x : Explosion) (k : ℕ), ∀ d ∈ Direction.named, p.HasField c →
    ((e.rayLoop c).after (1, Rays.all, x) k).2.1.goes d = true →
    e.checkPosition (fieldAt c d ((e.rayLoop c).after (1, Rays.all, x) k).1) = true →
    c.Offset (fieldAt c d ((e.rayLoop c).after (1, Rays.all, x) k).1)
      ((k + 1 : ℕ) * d.dx) ((k + 1 : ℕ) * d.dy)

theorem noWrap (he : e.gameParams = p) : NoWrap p e where
  move pos u d hd hpos hnew := offset_newPosition hd (checkPosition_of_hasField he hpos) hnew
  blast c x k d hd hc hgo hcheck := by
    rw [after_rayLoop] at hgo hcheck ⊢
    have hclear : Ray.clear e.checkPosition e.hasBlock (ray c d) (k + 1) = true := by
      cases d with
      | unnamed code => simp [Direction.named] at hd
      | _ => exact hgo
    refine offset_ray (n := k + 1) hd (checkPosition_of_hasField he hc) fun m hm hle => ?_
    rcases hle.eq_or_lt with rfl | hlt
    · exact hcheck
    · exact ((Ray.clear_iff ..).mp hclear m hm hlt).1

theorem hasField_of_mem_blastBlocks {c pos : Position} (he : e.gameParams = p)
    (hc : p.HasField c) (h : pos ∈ e.blastBlocks c) : p.HasField pos := by
  rcases mem_blast_iff.mp (List.mem_of_mem_filter h) with rfl | ⟨-, ray, -, n, -, -, -, hn, rfl⟩
  · exact hc
  · exact hasField_of_checkPosition he hn

namespace OnBoard

variable {handler : ServerTcpHandler}

theorem withHandler (h : OnBoard p e) : OnBoard p (e.withHandler handler) :=
  { h with }

theorem log {e' : GameEngine β} {k : ℕ} {events : List Event} (h : OnBoard p e)
    (ht : e'.turns = logEvents e.turns k events)
    (hev : ∀ event ∈ events, ∀ pos ∈ event.positions, p.HasField pos) :
    ∀ event ∈ allEvents e'.turns, ∀ pos ∈ event.positions, p.HasField pos := by
  intro event he
  rw [ht] at he
  rcases mem_allEvents_logEvents he with he | he
  · exact h.events event he
  · exact hev event he

theorem assigned {robots : List (PlayerId × Position)} (h : OnBoard p e)
    (hr : ∀ robot ∈ robots, e.checkPosition robot.2 = true) {id : PlayerId} {pos : Position}
    (hid : (e.playersPositions.assign robots)[id]? = some pos) : p.HasField pos := by
  rcases Std.ExtTreeMap.mem_or_of_getElem?_assign hid with hm | hold
  · exact hasField_of_checkPosition h.params (hr _ hm)
  · exact h.robots id pos hold

theorem seeded {robots : List (PlayerId × Position)} {random : Random} (h : OnBoard p e)
    (hr : ∀ robot ∈ robots, e.checkPosition robot.2 = true) : OnBoard p (e.seeded robots random) :=
  { h with
    robots := fun _ _ hid => h.assigned hr hid
    events := h.log rfl (hasField_of_movedEvents hr h.params) }

theorem moved {id : PlayerId} {pos : Position} (h : OnBoard p e)
    (hpos : e.checkPosition pos = true) : OnBoard p (e.moved id pos) := by
  have hr : ∀ robot ∈ [(id, pos)], e.checkPosition robot.2 = true := by simpa using hpos
  exact { h with
    robots := fun _ _ hid => h.assigned hr hid
    events := h.log rfl (hasField_of_movedEvents hr h.params) }

theorem bombPlaced {pos : Position} (h : OnBoard p e) (hpos : p.HasField pos) :
    OnBoard p (e.bombPlaced pos) :=
  { h with
    bombs := by
      intro id bomb hb
      simp only [GameEngine.bombPlaced, Std.ExtTreeMap.getElem?_insertIfNew] at hb
      split at hb
      · obtain rfl := Option.some.inj hb
        exact hpos
      · exact h.bombs id bomb hb
    events := h.log rfl (by simpa [Event.positions] using hpos) }

section Blocks

variable [PositionSet.Grounded β]

theorem blockPlaced {pos : Position} (h : OnBoard p e) (hpos : p.HasField pos) :
    OnBoard p (e.blockPlaced pos) :=
  { h with
    blocks := by
      intro pos' hm
      rcases PositionSet.Grounded.mem_insert hm with rfl | hm
      · exact hpos
      · exact h.blocks pos' hm
    events := h.log rfl (by simpa [Event.positions] using hpos) }

theorem init : OnBoard p (GameEngine.new p : GameEngine β) where
  params := rfl
  robots _ _ h := by simp [GameEngine.new] at h
  blocks pos h := by simp [GameEngine.new, PositionSet.Grounded.toList_empty] at h
  bombs _ _ h := by simp [GameEngine.new] at h
  erase _ h := by simp [GameEngine.new] at h
  events _ h := by simp [GameEngine.new] at h

theorem startGameplay {e' : GameEngine β} {sent : List Sending} (h : OnBoard p e)
    (hg : e.startGameplay = .ok (e', sent)) : OnBoard p e' := by
  obtain ⟨robots, blocks, random, -, -, hr, hb, -, rfl⟩ := startGameplay_ok hg
  have hnew : ∀ pos ∈ blocks, p.HasField pos := fun pos hm =>
    hasField_of_checkPosition h.params (hb pos hm)
  have hturns : ∀ event ∈ allEvents (e.turns ++ [TurnInfo.new 0]), ∀ pos ∈ event.positions,
      p.HasField pos := by
    intro event he
    rw [allEvents_concat, TurnInfo.new, List.append_nil] at he
    exact h.events event he
  exact { h with
    robots := fun _ _ hid => h.assigned hr hid
    blocks := by
      intro pos hm
      rcases PositionSet.mem_foldl_insert hm with hm | hm
      · exact hnew pos hm
      · exact h.blocks pos hm
    events := by
      intro event he
      rcases mem_allEvents_logEvents he with he | he
      · rcases mem_allEvents_logEvents he with he | he
        · exact hturns event he
        · exact hasField_of_movedEvents hr h.params event he
      · intro pos hpos
        obtain ⟨block, hblock, rfl⟩ := List.mem_map.mp he
        obtain rfl := List.mem_singleton.mp hpos
        exact hnew _ hblock }

theorem beginTurn {e' : GameEngine β} (h : OnBoard p e) (hb : e.beginTurn = .ok e') :
    OnBoard p e' := by
  obtain ⟨-, t, rfl, rfl⟩ := beginTurn_ticked hb
  have hdue : ∀ entry ∈ dueBombs e.bombs.toList, p.HasField entry.2.position := fun entry hm =>
    h.bombs _ _ (mem_dueBombs.mp hm).1
  constructor
  · exact h.params
  · exact h.robots
  · exact fun pos hm => h.blocks pos (PositionSet.mem_foldl_erase hm)
  · intro id bomb hid
    simp only [ticked, turned, Std.ExtTreeMap.assign_toList_map fun _ bomb => tickedBomb bomb,
      Std.ExtTreeMap.getElem?_filter', Std.ExtTreeMap.getElem?_map] at hid
    obtain ⟨hid, -⟩ := Option.filter_eq_some_iff.mp hid
    obtain ⟨old, hold, rfl⟩ := Option.map_eq_some_iff.mp hid
    exact h.bombs id old hold
  · intro pos hm
    rcases List.mem_append.mp hm with hm | hm
    · exact h.erase pos hm
    · obtain ⟨entry, hentry, hm⟩ := List.mem_flatMap.mp hm
      exact hasField_of_mem_blastBlocks h.params (hdue entry hentry) hm
  · intro event he
    rcases mem_allEvents_logEvents he with he | he
    · rw [turned, allEvents_concat, TurnInfo.new, List.append_nil] at he
      exact h.events event he
    · obtain ⟨entry, hentry, rfl⟩ := List.mem_map.mp he
      intro pos hm
      exact hasField_of_mem_blastBlocks h.params (hdue entry hentry) hm

theorem handled {e' : GameEngine β} {i : Slot} {u : Position} {msg : ClientMessage}
    {sent : List Sending} (h : OnBoard p e) (hh : Handled e i u msg e' sent) : OnBoard p e' := by
  cases hh with
  | late hs => exact h
  | join hs ha hn => exact { h with }
  | @start name address _ _ hs ha hn hg =>
    have hj : OnBoard p (e.joined i ⟨name, address⟩) := { h with }
    exact hj.startGameplay hg
  | idle hm ha => exact h
  | bomb ha hp => exact h.bombPlaced (h.robots _ _ hp)
  | block ha hp => exact h.blockPlaced (h.robots _ _ hp)
  | stay ha hp hc => exact h
  | move ha hp hc => exact h.moved (Bool.and_eq_true_iff.mp hc).1

theorem finished (h : OnBoard p e) : OnBoard p e.finishTurn.1 := by
  unfold finishTurn
  dsimp only
  split
  · constructor
    · exact h.params
    · simp [endGameplay]
    · simp [endGameplay, PositionSet.Grounded.toList_empty]
    · simp [endGameplay]
    · simp [endGameplay]
    · simp [endGameplay]
  · exact { h with erase := by simp }

end Blocks

end OnBoard

end GameEngine

namespace Server

open GameEngine

variable {β : Type} [PositionSet β] [PositionSet.Grounded β] {p : ServerParameters}
  {s s' : Server β} {env : Env} {out : List Sending}

theorem Stepped.onBoard (h : Stepped env s s' out) (hI : OnBoard p s.engine) :
    OnBoard p s'.engine := by
  cases h with
  | lobby hs => exact hI.withHandler
  | openTurn hs hb => exact hI.withHandler.beginTurn hb
  | quiet hp => exact hI
  | polled hp => exact hI.withHandler
  | noClient hn => exact hI
  | full hn hf => exact hI.withHandler
  | greet hn hf he => exact he ▸ hI.withHandler
  | noMessage hm => exact hI
  | refused hm hr => exact hI.withHandler
  | handled hm hr hh => exact hI.handled hh
  | rest hs => exact hI
  | send hs ht =>
    obtain ⟨robots, random, turn, -, hr, -, rfl, -, -⟩ := sendTurn_ok ht
    have hseeded : OnBoard p (GameEngine.seeded _ robots random) := hI.seeded hr
    exact { hseeded with }
  | finish => exact hI.finished

variable {tr : List (Machine.Step (Server β) Env Sending)}

theorem onBoard_of_run (h : (machine β p).Run tr s) : OnBoard p s.engine :=
  h.invariant (I := fun _ s => OnBoard p s.engine) OnBoard.init
    fun _ _ _ _ _ _ hI hs => (step_stepped hs).onBoard hI

/-- Throughout every run everything is on the board, and no bounds check is passed by a wrap. -/
theorem run_onBoard (h : (machine β p).Run tr s) : OnBoard p s.engine ∧ NoWrap p s.engine := by
  have hboard := onBoard_of_run h
  exact ⟨hboard, noWrap hboard.params⟩

def vast : ServerParameters := { solo with sizeX := 65535, sizeY := 65535 }

def lost : List Env :=
  soloJoin ++ pass true (.ready [1] ⟨none, []⟩ (some [1])) ++
    (pass true { Env.ready [1] ⟨none, []⟩ (some [3, 9]) with
      uninitialised := ⟨65534, 65534⟩ }).dropLast

theorem run_onBoard_lost : ∃ tr s, (machine (StdSet Position) vast).Run tr s ∧
    s.engine.playersPositions[(0 : PlayerId)]? = some ⟨65534, 65534⟩ ∧ s.engine.bombs.size = 1 ∧
    OnBoard vast s.engine ∧ NoWrap vast s.engine := by
  have hcheck : (machine (StdSet Position) vast).check lost (fun _ s =>
      s.engine.playersPositions[(0 : PlayerId)]? = some ⟨65534, 65534⟩ ∧
        s.engine.bombs.size = 1) = true := by decide +kernel
  obtain ⟨tr, s, h, htest⟩ := Machine.run_of_check hcheck
  obtain ⟨hpos, hbombs⟩ := of_decide_eq_true htest
  exact ⟨tr, s, h, hpos, hbombs, run_onBoard h⟩

end Server

end Bomberrobots
