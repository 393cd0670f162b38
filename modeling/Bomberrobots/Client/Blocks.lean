import Bomberrobots.Client.Follow
import Bomberrobots.Library.SearchTree
import Bomberrobots.Messages.Order
import Bomberrobots.Server.Bounds

/-! # The store of the blocks

Both programs keep the blocks in a set that is ordered by the comparison of positions. With
an order by coordinates the set would hold the blocks that are on the board. The comparison
of the programs takes the row of the second position for its column, and is no order.
-/

namespace Bomberrobots

/-- `std::set<position_t>` over a comparison. -/
def StoreOf (_ : Position → Position → Prop) : Type := SearchTree Position

instance StoreOf.instPositionSet (r : Position → Position → Prop) [DecidableRel r] :
    PositionSet (StoreOf r) where
  empty := SearchTree.leaf
  insert t pos := SearchTree.insert r pos t
  erase t pos := SearchTree.erase r pos t
  contains t pos := SearchTree.contains r pos t
  toList t := SearchTree.toList t

instance StoreOf.instGrounded (r : Position → Position → Prop) [DecidableRel r] :
    PositionSet.Grounded (StoreOf r) where
  toList_empty := rfl
  mem_insert h := SearchTree.eq_or_mem_of_mem_insert h
  mem_erase h := SearchTree.toList_erase_sublist.subset h

/-- `std::set<position_t>` as the programs instantiate it. -/
abbrev PositionStore := StoreOf Position.less

inductive BlockOp
  | place (pos : Position)
  | destroy (pos : Position)

namespace BlockOp

def apply {β : Type} [PositionSet β] (blocks : β) : BlockOp → β
  | place pos => PositionSet.insert blocks pos
  | destroy pos => PositionSet.erase blocks pos

def store {β : Type} [PositionSet β] (ops : List BlockOp) : β := ops.foldl apply PositionSet.empty

/-- Whether a field carries a block: it was placed and has not been destroyed since. -/
def carries (ops : List BlockOp) (pos : Position) : Bool :=
  ops.foldl (fun carried op =>
    match op with
    | place pos' => carried || pos = pos'
    | destroy pos' => carried && pos ≠ pos') false

section Lists

variable {β : Type} [PositionSet β] {ops : List BlockOp} {op : BlockOp} {pos pos' : Position}

theorem store_append : (store (ops ++ [op]) : β) = apply (store ops) op := List.foldl_append

theorem carries_place :
    carries (ops ++ [.place pos']) pos = true ↔ carries ops pos = true ∨ pos = pos' := by
  rw [carries, List.foldl_append]
  simp [carries]

theorem carries_destroy :
    carries (ops ++ [.destroy pos']) pos = true ↔ carries ops pos = true ∧ pos ≠ pos' := by
  rw [carries, List.foldl_append]
  simp [carries]

end Lists

/-- The store holds the blocks that are on the board, throughout a sequence of operations. -/
structure Keeps (β : Type) [PositionSet β] (ops : List BlockOp) : Prop where
  contains : ∀ before, before <+: ops → ∀ pos,
    PositionSet.contains (store before : β) pos = true ↔ carries before pos = true
  insert : ∀ before pos', before ++ [.place pos'] <+: ops → ∀ pos,
    PositionSet.contains (store before : β) pos = true →
    PositionSet.contains (store (before ++ [.place pos']) : β) pos = true
  refuses : ∀ before, before <+: ops → ∀ e : GameEngine β, e.blocksPositions = store before →
    ∀ pos, carries before pos = true → e.checkPositionToMove pos = false

variable {ops : List BlockOp}

theorem keeps_of_contains {β : Type} [PositionSet β]
    (h : ∀ before, before <+: ops → ∀ pos,
      PositionSet.contains (store before : β) pos = true ↔ carries before pos = true) :
    Keeps β ops where
  contains := h
  insert before pos' hp pos hpos := by
    have hbefore : before <+: ops := (List.prefix_append ..).trans hp
    exact (h _ hp pos).mpr (carries_place.mpr (.inl ((h _ hbefore pos).mp hpos)))
  refuses before hp e he pos hpos := by
    have hcontains := (h before hp pos).mpr hpos
    simp [GameEngine.checkPositionToMove, he, hcontains]

section Order

variable {r : Position → Position → Prop} [DecidableRel r] [IsStrictTotalOrder Position r]

theorem store_ordered (ops : List BlockOp) :
    SearchTree.Ordered r (store ops : StoreOf r) ∧
      ∀ pos, pos ∈ SearchTree.toList (store ops : StoreOf r) ↔ carries ops pos = true := by
  induction ops using List.reverseRecOn with
  | nil =>
    exact ⟨SearchTree.ordered_leaf, fun _ => iff_of_false List.not_mem_nil Bool.false_ne_true⟩
  | append_singleton ops op ih =>
    obtain ⟨hord, hmem⟩ := ih
    rw [store_append]
    cases op with
    | place pos' =>
      refine ⟨hord.insert, fun pos => ?_⟩
      exact SearchTree.mem_toList_insert.trans (by rw [hmem, carries_place, or_comm])
    | destroy pos' =>
      refine ⟨hord.erase, fun pos => ?_⟩
      exact (SearchTree.mem_toList_erase hord).trans (by rw [hmem, carries_destroy, and_comm])

theorem keeps_of_order (ops : List BlockOp) : Keeps (StoreOf r) ops := by
  apply keeps_of_contains
  intro before hp pos
  obtain ⟨hord, hmem⟩ := store_ordered (r := r) before
  exact (SearchTree.contains_iff hord).trans (hmem pos)

end Order

theorem keeps_lex (ops : List BlockOp) : Keeps (StoreOf Position.lex) ops := keeps_of_order ops

def corner : Position := ⟨65535, 65535⟩

theorem not_corner_less (pos : Position) : ¬ corner.less pos := by
  have hx := pos.x.toNat_lt
  have hy := pos.y.toNat_lt
  simp only [Position.less, corner, UInt16.lt_iff_toNat_lt, UInt16.reduceToNat]
  omega

theorem less_corner_iff {pos : Position} : pos.less corner ↔ pos ≠ corner := by
  have hx := pos.x.toNat_lt
  have hy := pos.y.toNat_lt
  simp only [Position.less, corner, ne_eq, Position.ext_iff, UInt16.lt_iff_toNat_lt,
    ← UInt16.toNat_inj, UInt16.reduceToNat]
  omega

theorem store_of_corner (h : ∀ pos, .place pos ∈ ops → pos = corner) :
    (store ops : PositionStore) = SearchTree.leaf ∧ (∀ pos, ¬ carries ops pos = true) ∨
    (store ops : PositionStore) = SearchTree.node .leaf corner .leaf ∧
      ∀ pos, carries ops pos = true ↔ pos = corner := by
  induction ops using List.reverseRecOn with
  | nil => exact .inl ⟨rfl, fun _ => Bool.false_ne_true⟩
  | append_singleton ops op ih =>
    have hold := ih fun pos hpos => h pos (List.mem_append_left _ hpos)
    rw [store_append]
    cases op with
    | place pos' =>
      obtain rfl : pos' = corner := h pos' (by simp)
      right
      rcases hold with ⟨hs, hc⟩ | ⟨hs, hc⟩
      · rw [hs]
        exact ⟨rfl, fun pos => by simp [carries_place, hc]⟩
      · rw [hs]
        refine ⟨?_, fun pos => by simp [carries_place, hc]⟩
        change SearchTree.insert Position.less corner (.node .leaf corner .leaf) = _
        rw [SearchTree.insert, if_neg (not_corner_less _), if_neg (not_corner_less _)]
    | destroy pos' =>
      rcases hold with ⟨hs, hc⟩ | ⟨hs, hc⟩
      · rw [hs]
        exact .inl ⟨rfl, fun pos => by simp [carries_destroy, hc]⟩
      · rw [hs]
        change SearchTree.erase Position.less pos' (.node .leaf corner .leaf) = _ ∧ _ ∨
          SearchTree.erase Position.less pos' (.node .leaf corner .leaf) = _ ∧ _
        rw [SearchTree.erase, if_neg (not_corner_less _)]
        by_cases hpos : pos' = corner
        · subst hpos
          rw [if_neg (not_corner_less _)]
          exact .inl ⟨rfl, fun pos => by simp [carries_destroy, hc]⟩
        · rw [if_pos (less_corner_iff.mpr hpos)]
          refine .inr ⟨rfl, fun pos => ?_⟩
          rw [carries_destroy, hc, and_iff_left_iff_imp]
          rintro rfl
          exact Ne.symm hpos

theorem contains_single {pos pos' : Position} :
    SearchTree.contains Position.less pos' (.node .leaf pos .leaf) = true ↔
      ¬ pos'.less pos ∧ ¬ pos.less pos' := by
  unfold SearchTree.contains SearchTree.contains
  split_ifs with hlt hgt
  · exact iff_of_false id fun h => h.1 hlt
  · exact iff_of_false id fun h => h.2 hgt
  · exact iff_of_true rfl ⟨hlt, hgt⟩

theorem exists_confused {pos : Position} (h : pos ≠ corner) : ∃ pos', pos' ≠ corner ∧
    (SearchTree.contains Position.less pos' (.node .leaf pos .leaf) = true ↔ pos' ≠ pos) := by
  have hx := pos.x.toNat_lt
  have hy := pos.y.toNat_lt
  by_cases hlt : pos.x < pos.y
  · refine ⟨pos, h, ?_⟩
    rw [contains_single]
    exact iff_of_false (fun hn => hn.1 (.inl hlt)) (fun hn => hn rfl)
  · -- a field of row 0 in another column, which is not left of the row of the block
    have hother : ∃ x : UInt16, x ≠ pos.x ∧ pos.y ≤ x := by
      simp only [corner, ne_eq, Position.ext_iff, ← UInt16.toNat_inj, UInt16.reduceToNat] at h
      simp only [ne_eq, ← UInt16.toNat_inj, UInt16.le_iff_toNat_le]
      by_cases hlast : pos.x.toNat = 65535
      · exact ⟨65534, by rw [hlast]; decide, by simp only [UInt16.reduceToNat]; omega⟩
      · exact ⟨65535, Ne.symm hlast, Nat.le_of_lt_succ hy⟩
    obtain ⟨x, hne, hle⟩ := hother
    refine ⟨⟨x, 0⟩, ?_, ?_⟩
    · intro heq
      cases congrArg Position.y heq
    · rw [contains_single]
      refine iff_of_true ⟨?_, ?_⟩ fun heq => hne (congrArg Position.x heq)
      · rintro (hxy | ⟨hxx, -⟩)
        · exact UInt16.not_lt.mpr hle hxy
        · exact hne hxx
      · rintro (hxy | ⟨hxx, -⟩)
        · exact UInt16.not_lt_zero hxy
        · exact hne hxx.symm

theorem exists_unfaithful {pos : Position} (hops : ∀ pos, .place pos ∈ ops → pos = corner)
    (hne : pos ≠ corner) :
    ∃ pos', ¬(PositionSet.contains (store (ops ++ [.place pos]) : PositionStore) pos' = true ↔
      carries (ops ++ [.place pos]) pos' = true) := by
  obtain ⟨pos', hcorner, hconfused⟩ := exists_confused hne
  refine ⟨pos', fun hkeeps => ?_⟩
  rw [store_append, carries_place] at hkeeps
  have hsearch : PositionSet.contains (apply (store ops : PositionStore) (.place pos)) pos' =
      SearchTree.contains Position.less pos' (.node .leaf pos .leaf) ∧
      ¬ carries ops pos' = true := by
    rcases store_of_corner hops with ⟨hs, hc⟩ | ⟨hs, hc⟩
    · rw [hs]
      exact ⟨rfl, hc pos'⟩
    · rw [hs]
      change SearchTree.contains _ _ (SearchTree.insert _ pos (.node .leaf corner .leaf)) = _ ∧ _
      rw [SearchTree.insert, if_pos (less_corner_iff.mpr hne), SearchTree.contains,
        if_pos (less_corner_iff.mpr hcorner)]
      exact ⟨rfl, fun hcarried => hcorner ((hc pos').mp hcarried)⟩
  rw [hsearch.1, hconfused, or_iff_right hsearch.2] at hkeeps
  exact iff_not_self hkeeps.symm

/--
The store of the programs keeps the blocks only where none is placed, but in a field that no
board has.
-/
theorem keeps_iff (ops : List BlockOp) :
    Keeps PositionStore ops ↔ ∀ pos, .place pos ∈ ops → pos = ⟨65535, 65535⟩ := by
  constructor
  · intro h
    induction ops using List.reverseRecOn with
    | nil => simp
    | append_singleton ops op ih =>
      have hops := ih
        { contains := fun before hp => h.contains before (hp.trans (List.prefix_append ..))
          insert := fun before pos' hp => h.insert before pos' (hp.trans (List.prefix_append ..))
          refuses := fun before hp => h.refuses before (hp.trans (List.prefix_append ..)) }
      intro pos hpos
      rcases List.mem_append.mp hpos with hpos | hpos
      · exact hops pos hpos
      · obtain rfl := List.mem_singleton.mp hpos
        by_contra hne
        obtain ⟨pos', hunfaithful⟩ := exists_unfaithful hops hne
        exact hunfaithful (h.contains _ (List.prefix_refl _) pos')
  · intro h
    apply keeps_of_contains
    intro before hp pos
    rcases store_of_corner fun pos hpos => h pos (hp.subset hpos) with ⟨hs, hc⟩ | ⟨hs, hc⟩
    · rw [hs]
      exact iff_of_false Bool.false_ne_true (hc pos)
    · rw [hs, hc]
      change SearchTree.contains Position.less pos (.node .leaf corner .leaf) = true ↔ _
      rw [SearchTree.contains, if_neg (not_corner_less _)]
      by_cases hpos : pos = corner
      · simp [hpos, not_corner_less]
      · simp [less_corner_iff, hpos, SearchTree.contains]

/-- A block at the left edge of the board is not found again. -/
theorem exists_not_keeps : ¬ ∀ ops, Keeps PositionStore ops := by
  intro h
  have hfound := (h [.place ⟨0, 1⟩]).contains _ (List.prefix_refl _) ⟨0, 1⟩
  revert hfound
  decide

end BlockOp

/--
What an event does to a store. The client takes the destroyed blocks out of a set of its
own, which may list them otherwise.
-/
def Event.blockOps (listed : List Position → List Position) : Event → List BlockOp
  | .bombExploded _ _ blocksDestroyed => (listed blocksDestroyed).map .destroy
  | .blockPlaced position => [.place position]
  | _ => []

section Stores

variable {β γ : Type} [PositionSet β] [PositionSet γ] {events : List Event}

theorem foldl_destroy {blocks : β} {positions : List Position} :
    (positions.map BlockOp.destroy).foldl BlockOp.apply blocks =
      positions.foldl PositionSet.erase blocks := by
  rw [List.foldl_map]
  rfl

theorem Board.blocks_foldl_apply {b : Board β} : (events.foldl Board.apply b).blocks =
    (events.flatMap (Event.blockOps id)).foldl BlockOp.apply b.blocks := by
  rw [List.foldl_flatMap]
  refine (List.foldl_hom Board.blocks fun b event => ?_).symm
  cases event with
  | bombExploded id robotsDestroyed blocksDestroyed => exact foldl_destroy
  | _ => rfl

theorem GameInfo.blocks_foldl_seen {g : GameInfo γ} : (events.foldl GameInfo.seen g).blocks =
    (events.flatMap (Event.blockOps fun l => PositionSet.toList (readPositionList l : γ))).foldl
      BlockOp.apply g.blocks := by
  rw [List.foldl_flatMap]
  refine (List.foldl_hom GameInfo.blocks fun g event => ?_).symm
  cases event with
  | bombExploded id robotsDestroyed blocksDestroyed => exact foldl_destroy
  | _ => rfl

namespace Server

open GameEngine

/-- The blocks of the server and of a client that follows it are stores of this kind. -/
theorem run_stores {p : ServerParameters} {s : Server β} {c : Client γ}
    {tr : List (Machine.Step (Server β) Env Sending)} (h : (machine β p).Run tr s)
    (hp : s.point = .broadcast) {before after : List ServerMessage}
    {players : StdMap PlayerId Player}
    (hb : broadcasts (Machine.log tr) = before ++ .gameStarted players :: after)
    (hlast : ∀ players', .gameStarted players' ∉ after) (hfull : c.lobbyInfo.players = players) :
    s.engine.blocksPositions =
      BlockOp.store ((allEvents s.engine.turns).flatMap (Event.blockOps id)) ∧
    ∃ c', c.handleServerMessages (.gameStarted players :: after) = .ok c' ∧ c'.gameInfo.blocks =
      BlockOp.store ((allEvents s.engine.turns).flatMap (Event.blockOps fun l =>
        PositionSet.toList (readPositionList l : γ))) := by
  have hs := started_of_broadcast h hp
  constructor
  · have htracks := run_tracked (playersCount_pos h hs) h hs
    rw [← htracks.blocks]
    exact Board.blocks_foldl_apply
  · obtain ⟨-, c', turn, hread, hgame⟩ := run_follow h hp hb hlast hfull
    refine ⟨c', hread, ?_⟩
    rw [hgame]
    exact GameInfo.blocks_foldl_seen

end Server

end Stores

end Bomberrobots
