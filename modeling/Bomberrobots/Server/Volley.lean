import Bomberrobots.Server.Blast
import Bomberrobots.Server.Safety

/-! # Simultaneous explosions

The bombs that run out in one turn explode one after another, on a board that none of them
changes. Each explodes as it would alone, and the order in which they are visited shows in
nothing but the order of the events.
-/

namespace Bomberrobots

def Event.blocksDestroyed : Event → List Position
  | .bombExploded _ _ blocksDestroyed => blocksDestroyed
  | _ => []

namespace GameEngine

section Bombs

variable {β : Type} [PositionSet β] {e e' : GameEngine β} {order : List (BombId × Bomb)} {f : Fault}

theorem handleExplosion_not_exits {id : BombId} {bomb : Bomb}
    (h : e.handleExplosion id bomb = .error f) (hlen : e.currentTurn.toNat < e.turns.length) :
    ¬ e.Exits bomb.position := by
  intro hx
  rcases Except.bind_eq_error_iff.mp h with h | ⟨x, -, h⟩
  · rw [explode_eq, if_pos hx] at h
    cases h
  · have hle := addEvent_error h
    simp only at hle
    omega

theorem tickBomb_not_exits {entry : BombId × Bomb} (h : e.tickBomb entry = .error f)
    (hlen : e.currentTurn.toNat < e.turns.length) :
    entry ∈ dueBombs [entry] ∧ ¬ e.Exits entry.2.position := by
  simp only [tickBomb] at h
  split at h
  · rename_i hd
    have hn := handleExplosion_not_exits h hlen
    exact ⟨by simp [dueBombs, tickedBomb, hd], hn⟩
  · cases h

theorem foldlM_tickBomb (hx : ∀ entry ∈ dueBombs order, e.Exits entry.2.position)
    (hlen : e.currentTurn.toNat < e.turns.length) :
    order.foldlM tickBomb e = .ok (e.ticked order) := by
  have hstep : ∀ (done : List (BombId × Bomb)) entry (t t' : GameEngine β),
      done ++ [entry] <+: order → t = e.ticked done → t.tickBomb entry = .ok t' →
      t' = e.ticked (done ++ [entry]) := by
    rintro done entry _ t' - rfl ht
    exact (tickBomb_ticked ht).2
  cases h : order.foldlM tickBomb e with
  | ok t => rw [Except.foldlM_ok _ h ticked_nil.symm hstep]
  | error f =>
    obtain ⟨done, entry, _, hp, rfl, ht⟩ := Except.foldlM_error _ h ticked_nil.symm hstep
    obtain ⟨hdue, hn⟩ := tickBomb_not_exits ht (by simpa [ticked] using hlen)
    have hmem : entry ∈ dueBombs order := by
      rw [dueBombs, List.mem_filter] at hdue ⊢
      exact ⟨hp.subset (by simp), hdue.2⟩
    exact absurd (hx entry hmem) hn

/-- `begin_turn`, visiting the bombs in a given order. -/
def beginTurnIn (e : GameEngine β) (order : List (BombId × Bomb)) :
    Except Fault (GameEngine β) := do
  let e ← order.foldlM tickBomb e.turned
  let e := { e with bombs := e.bombs.filter fun _ bomb => bomb.timer != 0 }
  pure { e with blocksPositions :=
    e.currentBlocksToErase.foldl PositionSet.erase e.blocksPositions }

theorem beginTurn_eq_beginTurnIn : e.beginTurn = e.beginTurnIn e.bombs.toList := rfl

/-- The same board with one bomb on it. -/
def alone (e : GameEngine β) (entry : BombId × Bomb) : GameEngine β :=
  { e with bombs := Std.ExtTreeMap.insert ∅ entry.1 entry.2 }

def openedIn (e : GameEngine β) (order : List (BombId × Bomb)) : GameEngine β :=
  { e with
    currentTurn := e.currentTurn + 1
    turns := e.turns ++ [⟨e.currentTurn + 1, (dueBombs order).map e.explodedEvent⟩]
    bombs := (e.bombs.assign (order.map fun entry => (entry.1, tickedBomb entry.2))).filter
      fun _ bomb => bomb.timer != 0
    currentPlayersToDestroy :=
      (e.dueRobots order).foldl Std.ExtTreeSet.insert e.currentPlayersToDestroy
    currentBlocksToErase := e.currentBlocksToErase ++ e.dueBlocks order
    blocksPositions := (e.currentBlocksToErase ++ e.dueBlocks order).foldl PositionSet.erase
      e.blocksPositions }

theorem beginTurnIn_eq (hx : ∀ entry ∈ dueBombs order, e.Exits entry.2.position)
    (hlen : (e.currentTurn + 1).toNat = e.turns.length) :
    e.beginTurnIn order = .ok (e.openedIn order) := by
  have hloop : order.foldlM tickBomb e.turned = .ok (e.turned.ticked order) :=
    foldlM_tickBomb hx (by simp [turned, hlen])
  unfold beginTurnIn
  rw [hloop]
  refine congrArg Except.ok ?_
  simp only [ticked, turned, openedIn, logEvents_concat hlen, TurnInfo.new, List.nil_append]
  rfl

theorem beginTurn_alone {entry : BombId × Bomb} (hdue : entry ∈ dueBombs order)
    (hx : e.Exits entry.2.position) (hlen : (e.currentTurn + 1).toNat = e.turns.length) :
    ∃ t, (e.alone entry).beginTurn = .ok t ∧
      t.turns = e.turns ++ [⟨e.currentTurn + 1, [e.explodedEvent entry]⟩] := by
  have hlist : (e.alone entry).bombs.toList = [entry] := Std.ExtTreeMap.toList_insert_empty
  have hself : dueBombs [entry] = [entry] := by
    rw [dueBombs, List.filter_eq_self]
    intro b hb
    obtain rfl := List.mem_singleton.mp hb
    exact (List.mem_filter.mp hdue).2
  refine ⟨(e.alone entry).openedIn [entry], ?_, ?_⟩
  · rw [beginTurn_eq_beginTurnIn, hlist]
    refine beginTurnIn_eq (e := e.alone entry) (fun b hb => ?_) hlen
    rw [hself] at hb
    obtain rfl := List.mem_singleton.mp hb
    exact hx
  · simp only [openedIn, hself]
    rfl

end Bombs

variable {e : GameEngine (StdSet Position)} {order order' : List (BombId × Bomb)}

/-- The order of the visits shows in the order of the events and of the blocks to erase. -/
theorem openedIn_perm (hp : order'.Perm order) (h : (order.map Prod.fst).Nodup) :
    e.openedIn order' = { e.openedIn order with
      turns := e.turns ++ [⟨e.currentTurn + 1, (dueBombs order').map e.explodedEvent⟩]
      currentBlocksToErase := e.currentBlocksToErase ++ e.dueBlocks order' } := by
  have hdue : (dueBombs order').Perm (dueBombs order) := hp.filter _
  have hrobots : ∀ k, k ∈ e.dueRobots order' ↔ k ∈ e.dueRobots order := fun k =>
    (hdue.flatMap_right _).mem_iff
  have hblocks : ∀ pos, pos ∈ e.currentBlocksToErase ++ e.dueBlocks order' ↔
      pos ∈ e.currentBlocksToErase ++ e.dueBlocks order := fun pos =>
    ((hdue.flatMap_right _).append_left _).mem_iff
  have hbombs : e.bombs.assign (order'.map fun entry => (entry.1, tickedBomb entry.2)) =
      e.bombs.assign (order.map fun entry => (entry.1, tickedBomb entry.2)) := by
    refine (Std.ExtTreeMap.assign_perm (hp.symm.map _) ?_).symm
    simpa [List.map_map, Function.comp_def] using h
  have hboard : (e.currentBlocksToErase ++ e.dueBlocks order').foldl PositionSet.erase
      e.blocksPositions = (e.currentBlocksToErase ++ e.dueBlocks order).foldl PositionSet.erase
        e.blocksPositions := Std.ExtTreeSet.foldl_erase_congr hblocks
  simp only [openedIn, Std.ExtTreeSet.foldl_insert_congr hrobots, hbombs, hboard]

end GameEngine

namespace Server

open GameEngine

variable {p : ServerParameters} {s : Server (StdSet Position)}
  {tr : List (Machine.Step (Server (StdSet Position)) Env Sending)}

/--
The bombs that run out in a turn explode as each of them would alone on the board before the
turn. The robots and the blocks of all their events are destroyed, the other bombs are
counted down, and another order of the visits yields the same up to the order of what has
been collected.
-/
theorem run_volley (h : (machine (StdSet Position) p).Run tr s) (hp : s.point = .top)
    (hs : s.engine.gameplayStarted = true)
    (hend : ∀ entry ∈ dueBombs s.engine.bombs.toList, s.engine.RaysEnd entry.2.position) :
    ∃ e' events, s.engine.beginTurn = .ok e' ∧
      e'.turns = s.engine.turns ++ [⟨s.engine.currentTurn + 1, events⟩] ∧
      List.Forall₂ (fun entry event => ∃ t, (s.engine.alone entry).beginTurn = .ok t ∧
        t.turns = s.engine.turns ++ [⟨s.engine.currentTurn + 1, [event]⟩])
        (dueBombs s.engine.bombs.toList) events ∧
      (∀ k, k ∈ e'.currentPlayersToDestroy ↔ ∃ event ∈ events, k ∈ event.robotsDestroyed) ∧
      (∀ pos, pos ∈ e'.blocksPositions ↔
        pos ∈ s.engine.blocksPositions ∧ ∀ event ∈ events, pos ∉ event.blocksDestroyed) ∧
      (∀ id : BombId, e'.bombs[id]? = (s.engine.bombs[id]?.filter fun bomb =>
        bomb.timer != 1).map fun bomb => { bomb with timer := bomb.timer - 1 }) ∧
      ∀ order : List (BombId × Bomb), order.Perm s.engine.bombs.toList →
        ∃ events' blocks, events'.Perm events ∧ blocks.Perm e'.currentBlocksToErase ∧
          s.engine.beginTurnIn order = .ok { e' with
            turns := s.engine.turns ++ [⟨s.engine.currentTurn + 1, events'⟩]
            currentBlocksToErase := blocks } := by
  have hw := run_wf (playersCount_pos h hs) h
  have hg := hw.gameplay hs
  obtain ⟨hlt, he, hd⟩ := hw.closed hp hs
  rw [← hw.params] at hlt
  have hlen := hg.nextTurn hlt
  have hexits : ∀ entry ∈ dueBombs s.engine.bombs.toList, s.engine.Exits entry.2.position :=
    fun entry hm => raysEnd_iff.mp (hend entry hm)
  have hbegin : s.engine.beginTurn = .ok (s.engine.openedIn s.engine.bombs.toList) :=
    beginTurnIn_eq hexits hlen
  have hopened : s.engine.openedIn s.engine.bombs.toList = s.engine.opened :=
    (beginTurn_ok hbegin hlen).2
  rw [hopened] at hbegin
  refine ⟨s.engine.opened, (dueBombs s.engine.bombs.toList).map s.engine.explodedEvent, hbegin, rfl,
    ?_, ?_, ?_, fun id => getElem?_bombs_opened, ?_⟩
  · rw [List.forall₂_map_right_iff, List.forall₂_same]
    intro entry hm
    exact beginTurn_alone hm (hexits entry hm) hlen
  · intro k
    simp only [GameEngine.opened, Std.ExtTreeSet.mem_foldl_insert, hd, dueRobots]
    simp [explodedEvent, Event.robotsDestroyed]
  · intro pos
    have hmem : pos ∈ s.engine.opened.blocksPositions ↔
        pos ∈ s.engine.blocksPositions ∧ pos ∉ s.engine.dueBlocks s.engine.bombs.toList := by
      simp only [GameEngine.opened, he, List.nil_append]
      exact Std.ExtTreeSet.mem_foldl_erase _
    rw [hmem, dueBlocks, List.forall_mem_map]
    simp only [List.mem_flatMap, not_exists, not_and]
    rfl
  · intro order hperm
    have hdue : (dueBombs order).Perm (dueBombs s.engine.bombs.toList) := hperm.filter _
    refine ⟨_, _, hdue.map s.engine.explodedEvent,
      (hdue.flatMap_right fun entry => s.engine.blastBlocks entry.2.position).append_left
        s.engine.currentBlocksToErase, ?_⟩
    rw [beginTurnIn_eq (fun entry hm => hexits entry (hdue.mem_iff.mp hm)) hlen,
      openedIn_perm hperm Std.ExtTreeMap.nodup_map_fst_toList, hopened]
    rfl

def salvo : List Env :=
  pass false (.ready [0] ⟨some 5, []⟩ none) ++ pass false (.ready [0] ⟨some 6, []⟩ none) ++
    pass true (.ready [1, 2] ⟨none, []⟩ (some [0, 0])) ++
    pass true (.ready [1, 2] ⟨none, []⟩ (some [1])) ++ pass true (.ready [] ⟨none, []⟩ none)

theorem run_volley_salvo : ∃ tr s e' events, (machine (StdSet Position) duo).Run tr s ∧
    (dueBombs s.engine.bombs.toList).map Prod.fst = [0, 1] ∧ s.engine.beginTurn = .ok e' ∧
    e'.turns = s.engine.turns ++ [⟨s.engine.currentTurn + 1, events⟩] ∧
    List.Forall₂ (fun entry event => ∃ t, (s.engine.alone entry).beginTurn = .ok t ∧
      t.turns = s.engine.turns ++ [⟨s.engine.currentTurn + 1, [event]⟩])
      (dueBombs s.engine.bombs.toList) events ∧
    ∃ events' blocks, events'.Perm events ∧ blocks.Perm e'.currentBlocksToErase ∧
      s.engine.beginTurnIn s.engine.bombs.toList.reverse = .ok { e' with
        turns := s.engine.turns ++ [⟨s.engine.currentTurn + 1, events'⟩]
        currentBlocksToErase := blocks } := by
  have hcheck : (machine (StdSet Position) duo).check salvo (fun _ s =>
      s.point = .top ∧ s.engine.gameplayStarted ∧ s.engine.gameParams.explosionRadius ≠ 65535 ∧
      (dueBombs s.engine.bombs.toList).map Prod.fst = [0, 1]) = true := by decide +kernel
  obtain ⟨tr, s, h, htest⟩ := Machine.run_of_check hcheck
  obtain ⟨hp, hs, hr, hdue⟩ := of_decide_eq_true htest
  obtain ⟨e', events, hb, ht, hone, -, -, -, horder⟩ :=
    run_volley h hp hs fun entry _ => raysEnd_iff.mpr (.inl hr)
  exact ⟨tr, s, e', events, h, hdue, hb, ht, hone, horder _ (List.reverse_perm _)⟩

end Server

end Bomberrobots
