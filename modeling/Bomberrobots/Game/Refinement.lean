import Bomberrobots.Game.Field
import Bomberrobots.Server.Commute

/-! # The engine refines the game

An engine keeps a board of the game in words. What it does to open a turn, for a message and to
close a turn is what the rules say about the board that it keeps.
-/

namespace Bomberrobots

def ClientMessage.command : ClientMessage → Option (Game.Command ServerParameters.Way)
  | .join _ => none
  | .placeBomb => some .bomb
  | .placeBlock => some .block
  | .move d => if hd : d ∈ Direction.named then some (.move ⟨d, hd⟩) else none

namespace GameEngine

open ServerParameters Server

variable {p : ServerParameters} {e e' : GameEngine (StdSet Position)} {gone : StdSet PlayerId}
  {board : Game.State p.Robot p.Field}

/--
The engine keeps a board in words. The timer of a bomb wraps around without harm, since there are
too few turns for it to come back to one.
-/
structure Keeps (e : GameEngine (StdSet Position)) (gone : StdSet PlayerId)
    (board : Game.State p.Robot p.Field) : Prop where
  params : e.gameParams = p
  robots : ∀ i : p.Robot, e.playersPositions[i.playerId]? = some (board.robots i).position
  blocks : ∀ pos : Position, pos ∈ e.blocksPositions ↔ ∃ f ∈ board.blocks, f.position = pos
  bombs : ∀ k : BombId, e.bombs[k]? =
    (board.bombs k.toNat).map fun bomb => ⟨bomb.1.position, .ofInt bomb.2⟩
  timers : ∀ k bomb, board.bombs k = some bomb →
    k < board.placed ∧ -(e.currentTurn.toNat : ℤ) ≤ bomb.2 ∧ bomb.2 < 2 ^ 16
  placed : e.nextBombId.toNat = board.placed
  points : ∀ i : p.Robot, e.scores[i.playerId]?.map UInt32.toNat = some (board.points i)
  hit : ∀ i : p.Robot, i.playerId ∈ gone ↔ i ∈ board.hit
  random : e.random = randomAfter p board.drawn

theorem ofInt_eq_one_iff {t : ℤ} (h₀ : -65535 < t) (h₁ : t < 2 ^ 16) :
    UInt16.ofInt t = 1 ↔ t = 1 := by
  rw [UInt16.ofInt, ← UInt16.toNat_inj]
  simp only [UInt16.toNat_ofNat', UInt16.reduceToNat]
  omega

namespace Keeps

theorem hasBlock (h : Keeps e gone board) (f : p.Field) :
    e.hasBlock f.position = true ↔ f ∈ board.blocks := by
  rw [GameEngine.hasBlock, PositionSet.contains]
  refine Std.ExtTreeSet.contains_iff_mem.trans ((h.blocks _).trans ?_)
  simp only [Field.position_inj, exists_eq_right]

theorem checkPositionToMove (h : Keeps e gone board) (f : p.Field) :
    e.checkPositionToMove f.position = true ↔ f ∉ board.blocks := by
  rw [GameEngine.checkPositionToMove, checkPosition_position h.params, Bool.true_and,
    Bool.not_eq_true', ← Bool.not_eq_true]
  exact not_congr (h.hasBlock f)

theorem timer_eq_one_iff (h : Keeps e gone board) (hlt : e.currentTurn < e.gameParams.gameLength)
    {k : ℕ} {bomb : p.Field × ℤ} (hb : board.bombs k = some bomb) :
    UInt16.ofInt bomb.2 = 1 ↔ bomb.2 = 1 := by
  obtain ⟨-, hlow, hhigh⟩ := h.timers k bomb hb
  have hmax := e.gameParams.gameLength.toNat_lt
  rw [UInt16.lt_iff_toNat_lt] at hlt
  exact ofInt_eq_one_iff (by omega) hhigh

theorem moved {inst : DecidableEq p.Robot} {j : p.Robot} {f : p.Field}
    (h : Keeps e gone board) :
    Keeps (e.moved j.playerId f.position) gone
      { board with robots := Function.update board.robots j f } where
  params := h.params
  robots i := by
    simp only [GameEngine.moved, Std.ExtTreeMap.getElem?_insert,
      Std.LawfulEqCmp.compare_eq_iff_eq, Robot.playerId_inj, Function.update_apply,
      eq_comm (a := i)]
    split
    · rfl
    · exact h.robots i
  blocks := h.blocks
  bombs := h.bombs
  timers := h.timers
  placed := h.placed
  points := h.points
  hit := h.hit
  random := h.random

variable [NeZero p.sizeX.toNat] [NeZero p.sizeY.toNat]

theorem mem_burning_iff (h : Keeps e gone board) (hlt : e.currentTurn < e.gameParams.gameLength)
    {f : p.Field} : f ∈ p.rules.burning board ↔
      ∃ entry ∈ dueBombs e.bombs.toList, e.Reaches entry.2.position f.position := by
  have hblast : ∀ c : p.Field, f ∈ p.rules.blast board.blocks c ↔
      e.Reaches c.position f.position := fun c => ServerParameters.mem_blast_iff h.params h.hasBlock
  simp only [Game.Rules.burning, Set.mem_ofPred_eq, hblast, mem_dueBombs]
  constructor
  · rintro ⟨k, c, hb, hf⟩
    have hk : (UInt32.ofNat k).toNat = k := by
      have hlt := e.nextBombId.toNat_lt
      have hplaced := (h.timers k _ hb).1
      rw [← h.placed] at hplaced
      exact Nat.mod_eq_of_lt (hplaced.trans hlt)
    refine ⟨(.ofNat k, ⟨c.position, 1⟩), ⟨?_, rfl⟩, hf⟩
    rw [h.bombs, hk, hb]
    rfl
  · rintro ⟨⟨k, bomb⟩, ⟨hbomb, htimer⟩, hf⟩
    rw [h.bombs] at hbomb
    obtain ⟨⟨c, t⟩, hb, rfl⟩ := Option.map_eq_some_iff.mp hbomb
    obtain rfl : t = 1 := (h.timer_eq_one_iff hlt hb).mp htimer
    exact ⟨_, c, hb, hf⟩

theorem opened (h : Keeps e ∅ board) (hlt : e.currentTurn < e.gameParams.gameLength)
    (he : e.currentBlocksToErase = []) (hd : e.currentPlayersToDestroy = ∅) :
    Keeps e.opened e.opened.currentPlayersToDestroy (p.rules.explode board) where
  params := h.params
  robots := h.robots
  blocks pos := by
    have herase : ∀ f : p.Field, f ∈ board.blocks → (f.position ∈ e.dueBlocks e.bombs.toList ↔
        f ∈ p.rules.burning board) := by
      intro f hf
      simp only [dueBlocks, List.mem_flatMap, blastBlocks, List.mem_filter,
        GameEngine.mem_blast_iff, (h.hasBlock f).mpr hf, and_true, h.mem_burning_iff hlt]
    have hblocks : pos ∈ e.opened.blocksPositions ↔
        pos ∈ e.blocksPositions ∧ pos ∉ e.dueBlocks e.bombs.toList := by
      simp only [GameEngine.opened, he, List.nil_append]
      exact Std.ExtTreeSet.mem_foldl_erase _
    rw [hblocks, h.blocks]
    constructor
    · rintro ⟨⟨f, hf, rfl⟩, hnot⟩
      exact ⟨f, ⟨hf, mt (herase f hf).mpr hnot⟩, rfl⟩
    · rintro ⟨f, ⟨hf, hnot⟩, rfl⟩
      exact ⟨⟨f, hf, rfl⟩, mt (herase f hf).mp hnot⟩
  bombs k := by
    rw [getElem?_bombs_opened, h.bombs]
    cases hb : board.bombs k.toNat with
    | none => simp [Game.Rules.explode, hb]
    | some bomb =>
      have htimer := h.timer_eq_one_iff hlt hb
      by_cases hone : bomb.2 = 1
      · simp [Game.Rules.explode, hb, hone, Option.filter]
      · have hne := mt htimer.mp hone
        simp [Game.Rules.explode, hb, hone, hne, Option.filter, tickedBomb, sub_eq_add_neg]
  timers k bomb hb := by
    obtain ⟨old, hold, rfl⟩ := Option.map_eq_some_iff.mp hb
    obtain ⟨hk, hlow, hhigh⟩ := h.timers k old (Option.filter_eq_some_iff.mp hold).1
    refine ⟨hk, ?_, by omega⟩
    have hmax := e.gameParams.gameLength.toNat_lt
    rw [UInt16.lt_iff_toNat_lt] at hlt
    have hturn : e.opened.currentTurn.toNat = e.currentTurn.toNat + 1 := by
      simp only [GameEngine.opened, UInt16.toNat_add, UInt16.toNat_one]
      omega
    omega
  placed := h.placed
  points := h.points
  hit i := by
    have hdestroy : i.playerId ∈ e.opened.currentPlayersToDestroy ↔
        i.playerId ∈ e.dueRobots e.bombs.toList := by
      simp only [GameEngine.opened, hd, Std.ExtTreeSet.mem_foldl_insert]
      simp
    simp only [hdestroy, dueRobots, List.mem_flatMap, mem_blastRobots_iff, h.robots,
      Option.some.injEq, exists_eq_left', Game.Rules.explode, Finset.mem_filter, Finset.mem_univ,
      true_and, h.mem_burning_iff hlt]
  random := h.random

section Messages

variable {i : Slot} {j : p.Robot} {msg : ClientMessage} {c : Game.Command Way}

theorem bombPlaced (h : Keeps e gone board) (hn : e.nextBombId ∉ e.bombs)
    (hlt : e.nextBombId.toNat + 1 < 2 ^ 32) :
    Keeps (e.bombPlaced (board.robots j).position) gone (p.rules.act board j .bomb) where
  params := h.params
  robots := h.robots
  blocks := h.blocks
  bombs k := by
    have hk : e.nextBombId = k ↔ k.toNat = board.placed := by
      rw [← h.placed, UInt32.toNat_inj, eq_comm]
    simp only [GameEngine.bombPlaced, Std.ExtTreeMap.getElem?_insertIfNew, hn, not_false_eq_true,
      and_true, Std.LawfulEqCmp.compare_eq_iff_eq, Game.Rules.act, Function.update_apply, hk]
    split
    · have hfuse : UInt16.ofInt p.bombTimer.toNat = p.bombTimer := by
        rw [UInt16.ofInt, ← UInt16.toNat_inj, UInt16.toNat_ofNat']
        have hmax := p.bombTimer.toNat_lt
        omega
      simp [ServerParameters.rules, h.params, hfuse]
    · exact h.bombs k
  timers k bomb hb := by
    simp only [Game.Rules.act, Function.update_apply] at hb ⊢
    split at hb
    · obtain rfl := Option.some.inj hb
      have hfuse := p.bombTimer.toNat_lt
      simp only [ServerParameters.rules]
      omega
    · obtain ⟨hk, ht⟩ := h.timers k bomb hb
      exact ⟨Nat.lt_succ_of_lt hk, ht⟩
  placed := by
    simp only [GameEngine.bombPlaced, Game.Rules.act, ← h.placed, UInt32.toNat_add,
      UInt32.toNat_one, Nat.mod_eq_of_lt hlt]
  points := h.points
  hit := h.hit
  random := h.random

theorem blockPlaced (h : Keeps e gone board) :
    Keeps (e.blockPlaced (board.robots j).position) gone (p.rules.act board j .block) where
  params := h.params
  robots := h.robots
  blocks pos := by
    have hinsert : pos ∈ (e.blockPlaced (board.robots j).position).blocksPositions ↔
        (board.robots j).position = pos ∨ pos ∈ e.blocksPositions :=
      Std.ExtTreeSet.mem_insert.trans (or_congr_left Std.LawfulEqCmp.compare_eq_iff_eq)
    rw [hinsert, h.blocks]
    simp [Game.Rules.act]
  bombs := h.bombs
  timers := h.timers
  placed := h.placed
  points := h.points
  hit := h.hit
  random := h.random

/-- A message amounts to a command to the robot of its sender. -/
theorem perform (h : Keeps e e.currentPlayersToDestroy board) (hn : e.nextBombId ∉ e.bombs)
    (hlt : e.nextBombId.toNat + 1 < 2 ^ 32) (hid : e.playerIds[i]? = some j.playerId)
    (hc : msg.command = some c) :
    Keeps (e.perform (e.act i msg)) e.currentPlayersToDestroy (p.rules.obey board (j, c)) := by
  by_cases hj : j ∈ board.hit
  · have hnone : e.actingPlayer i = none := by
      rw [Option.eq_none_iff_forall_ne_some]
      intro id ha
      obtain ⟨hid', hd⟩ := actingPlayer_eq_some.mp ha
      obtain rfl := Option.some.inj (hid.symm.trans hid')
      exact hd ((h.hit j).mpr hj)
    simpa [Game.Rules.obey, hj, act, hnone, GameEngine.perform] using h
  · have ha : e.actingPlayer i = some j.playerId :=
      actingPlayer_eq_some.mpr ⟨hid, mt (h.hit j).mp hj⟩
    have hp := h.robots j
    simp only [Game.Rules.obey, hj, if_false]
    cases msg with
    | join name => cases hc
    | placeBomb =>
      obtain rfl := Option.some.inj hc
      simp only [act, ha, hp, GameEngine.perform]
      exact h.bombPlaced hn hlt
    | placeBlock =>
      obtain rfl := Option.some.inj hc
      simp only [act, ha, hp, GameEngine.perform]
      exact h.blockPlaced
    | move d =>
      simp only [ClientMessage.command] at hc
      split at hc
      · obtain rfl := Option.some.inj hc
        simp only [act, ha, hp, Game.Rules.act]
        cases hnext : p.rules.next ⟨d, ‹_›⟩ (board.robots j) with
        | none =>
          have hout : e.checkPositionToMove (newPosition (board.robots j).position default d) =
              false := by
            rw [GameEngine.checkPositionToMove, checkPosition_of_next_none h.params hnext,
              Bool.false_and]
          simp only [hout, Bool.false_eq_true, if_false, GameEngine.perform, Option.elim_none]
          exact h
        | some f =>
          have hf : newPosition (board.robots j).position default d = f.position :=
            next_eq_some_iff.mp hnext
          by_cases hblock : f ∈ board.blocks
          · have hstay := mt (h.checkPositionToMove f).mp (not_not.mpr hblock)
            simp only [hf, hblock, hstay, if_true, GameEngine.perform, Option.elim_some]
            exact h
          · have hgo := (h.checkPositionToMove f).mpr hblock
            simp only [hf, hblock, hgo, if_true, if_false, GameEngine.perform, Option.elim_some]
            exact h.moved
      · cases hc

end Messages

end Keeps

section Drawing

variable {ids : List PlayerId} {who : Finset p.Robot} {n k : ℕ} {m : StdMap PlayerId Position}

theorem length_eq_card (hnd : ids.Nodup) (hm : ∀ id, id ∈ ids ↔ ∃ i ∈ who, i.playerId = id) :
    ids.length = who.card := by
  have himage : ids.toFinset = who.image Robot.playerId := by
    ext id
    rw [List.mem_toFinset, Finset.mem_image, hm]
  rw [← List.toFinset_card_of_nodup hnd, himage, Finset.card_image_of_injective]
  exact fun i j hij => Robot.playerId_inj.mp hij

variable [NeZero p.sizeX.toNat] [NeZero p.sizeY.toNat]

theorem getElem?_assign_robotsDrawn (he : e.gameParams = p) (hr : e.random = randomAfter p n)
    (hs : ids.Pairwise (· < ·)) (hm : ∀ id, id ∈ ids ↔ ∃ i ∈ who, i.playerId = id) (i : p.Robot) :
    (m.assign (e.robotsDrawn ids))[i.playerId]? =
      if i ∈ who then some (p.rules.draw (n + Game.Rules.rank who i)).position
      else m[i.playerId]? := by
  have hmem : i.playerId ∈ ids ↔ i ∈ who := by
    simp only [hm, Robot.playerId_inj, exists_eq_right]
  split
  case isTrue hi =>
    obtain ⟨k, hk⟩ := List.mem_iff_getElem?.mp (hmem.mpr hi)
    have hrank : k = Game.Rules.rank who i := by
      have hlt : ids.Pairwise fun a b => a.toNat < b.toNat := hs.imp UInt8.lt_iff_toNat_lt.mp
      have hnd : ids.Nodup := hs.imp UInt8.ne_of_lt
      rw [← List.length_filter_lt hlt hk]
      refine length_eq_card (hnd.filter _) fun id => ?_
      rw [List.mem_filter, hm, Robot.toNat_playerId, decide_eq_true_eq]
      constructor
      · rintro ⟨⟨j, hj, rfl⟩, hid⟩
        rw [Robot.toNat_playerId] at hid
        exact ⟨j, Finset.mem_filter.mpr ⟨hj, hid⟩, rfl⟩
      · rintro ⟨j, hj, rfl⟩
        obtain ⟨hj, hji⟩ := Finset.mem_filter.mp hj
        rw [Robot.toNat_playerId]
        exact ⟨⟨j, hj, rfl⟩, hji⟩
    have hkv : (i.playerId, (p.rules.draw (n + k)).position) ∈ e.robotsDrawn ids := by
      obtain ⟨hlen, hget⟩ := List.getElem?_eq_some_iff.mp hk
      rw [position_draw, ← randomAfter_after, ← hr]
      refine List.mem_iff_getElem?.mpr ⟨k, ?_⟩
      simp [robotsDrawn, Random.positions, hlen, hget, he]
    rw [← hrank]
    exact Std.ExtTreeMap.getElem?_assign_of_nodup
      (map_fst_robotsDrawn.symm ▸ hs.imp UInt8.ne_of_lt) hkv
  case isFalse hi =>
    refine Std.ExtTreeMap.getElem?_assign_of_not_mem ?_
    rw [map_fst_robotsDrawn]
    exact mt hmem.mp hi

theorem blockDrawn_iff {pos : Position} : pos ∈ (randomAfter p n).positions p k ↔
    ∃ j < k, (p.rules.draw (n + j)).position = pos := by
  simp only [Random.positions, List.mem_map, List.mem_range, randomAfter_after, position_draw]

end Drawing

namespace Keeps

variable [NeZero p.sizeX.toNat] [NeZero p.sizeY.toNat]

theorem respawned (h : Keeps e e.currentPlayersToDestroy board)
    (hd : ∀ id : PlayerId, id ∈ e.currentPlayersToDestroy → id.toNat < p.playersCount.toNat)
    (hlt : ∀ (id : PlayerId) (score : Score), e.scores[id]? = some score →
      score.toNat + 1 < 2 ^ 32) :
    Keeps (e.respawned (e.robotsDrawn e.currentPlayersToDestroy.toList)
      (e.random.after (2 * e.currentPlayersToDestroy.toList.length))) ∅
      (p.rules.respawn board) := by
  have hs : e.currentPlayersToDestroy.toList.Pairwise (· < ·) := by
    have hlist : e.currentPlayersToDestroy.toList.Pairwise fun id id' => compare id id' = .lt :=
      Std.ExtTreeSet.ordered_toList
    exact hlist.imp compareOfLessAndEq_eq_lt.mp
  have hm : ∀ id, id ∈ e.currentPlayersToDestroy.toList ↔ ∃ i ∈ board.hit, i.playerId = id := by
    intro id
    rw [Std.ExtTreeSet.mem_toList]
    constructor
    · intro hid
      obtain ⟨i, rfl⟩ := Robot.exists_playerId (hd id hid)
      exact ⟨i, (h.hit i).mp hid, rfl⟩
    · rintro ⟨i, hi, rfl⟩
      exact (h.hit i).mpr hi
  constructor
  · exact h.params
  · intro i
    simp only [GameEngine.respawned, seeded, Game.Rules.respawn,
      getElem?_assign_robotsDrawn h.params h.random hs hm, h.robots]
    split <;> rfl
  · exact h.blocks
  · exact h.bombs
  · exact h.timers
  · exact h.placed
  · intro i
    obtain ⟨score, hscore, hpoints⟩ := Option.map_eq_some_iff.mp (h.points i)
    have hmem : i.playerId ∈ e.currentPlayersToDestroy.toList ↔ i ∈ board.hit := by
      rw [Std.ExtTreeSet.mem_toList, h.hit]
    have hmax := hlt _ _ hscore
    simp only [GameEngine.respawned, map_fst_robotsDrawn, hitScores, Std.ExtTreeMap.getElem?_map,
      hscore, Option.map_some, hmem, Game.Rules.respawn]
    split
    · rw [UInt32.toNat_add, UInt32.toNat_one, Nat.mod_eq_of_lt hmax, hpoints]
    · rw [hpoints]
  · intro i
    simp [Game.Rules.respawn]
  · rw [length_eq_card (hs.imp UInt8.ne_of_lt) hm]
    simp only [GameEngine.respawned, seeded, Game.Rules.respawn]
    rw [h.random, randomAfter_after]

theorem keys_pairwise_lt (players : StdMap PlayerId Player) : players.keys.Pairwise (· < ·) := by
  have hkeys : players.keys.Pairwise fun id id' => compare id id' = .lt :=
    Std.ExtTreeMap.ordered_keys
  exact hkeys.imp compareOfLessAndEq_eq_lt.mp

omit [NeZero p.sizeX.toNat] [NeZero p.sizeY.toNat] in
theorem mem_keys_iff_of_registered {id : PlayerId} (h : Registered e p.playersCount.toNat) :
    id ∈ e.players.keys ↔ ∃ j ∈ (Finset.univ : Finset p.Robot), j.playerId = id := by
  rw [Std.ExtTreeMap.mem_keys, h.players]
  constructor
  · intro hid
    obtain ⟨j, rfl⟩ := Robot.exists_playerId hid
    exact ⟨j, Finset.mem_univ j, rfl⟩
  · rintro ⟨j, -, rfl⟩
    rw [Robot.toNat_playerId]
    exact j.isLt

theorem mem_blocks_start_iff {pos : Position} {n : ℕ} :
    pos ∈ ((randomAfter p (n + Fintype.card p.Robot)).positions p
        p.initialBlocks.toNat).foldl PositionSet.insert (PositionSet.empty : StdSet Position) ↔
      ∃ f ∈ (p.rules.start n : Game.State p.Robot p.Field).blocks, f.position = pos := by
  refine (Std.ExtTreeSet.mem_foldl_insert _).trans ?_
  rw [blockDrawn_iff]
  have hempty : pos ∉ (PositionSet.empty : StdSet Position) := Std.ExtTreeSet.not_mem_empty
  simp only [hempty, false_or, Game.Rules.start, Set.mem_ofPred_eq]
  constructor
  · rintro ⟨k, hk, hpos⟩
    exact ⟨_, ⟨k, hk, rfl⟩, hpos⟩
  · rintro ⟨_, ⟨k, hk, rfl⟩, hpos⟩
    exact ⟨k, hk, hpos⟩

theorem start {i : Slot} {player : Player} {sent : List Sending} {n : ℕ} (hl : Lobby e)
    (hn : (e.joined i player).players.size = e.gameParams.playersCount.toNat)
    (hg : (e.joined i player).startGameplay = .ok (e', sent)) (he : e.gameParams = p)
    (hr : e.random = randomAfter p n) (hscores : ∀ (id : PlayerId) (score : Score),
      (e.joined i player).scores[id]? = some score → score = 0) :
    Keeps e' ∅ (p.rules.start n) := by
  have hreg : Registered (e.joined i player) p.playersCount.toNat := by
    have hreg : Registered (e.joined i player) (e.nextPlayerId.toNat + 1) := hl.registered.joined
    rwa [← hreg.size, hn, he] at hreg
  obtain ⟨e₁, h₁, hg⟩ := Except.bind_eq_ok_iff.mp hg
  obtain ⟨e₂, h₂, hg⟩ := Except.bind_eq_ok_iff.mp hg
  obtain rfl := seedPlayers_drawn h₁
  obtain rfl := seedBlocks_drawn h₂
  obtain ⟨rfl, -⟩ := Prod.mk.inj (Except.pure_eq_ok.mp hg)
  have hs := keys_pairwise_lt (e.joined i player).players
  have hm : ∀ id, id ∈ (e.joined i player).players.keys ↔
      ∃ j ∈ (Finset.univ : Finset p.Robot), j.playerId = id := fun _ => mem_keys_iff_of_registered hreg
  have hsize : (e.joined i player).players.keys.length = Fintype.card p.Robot :=
    length_eq_card (hs.imp UInt8.ne_of_lt) hm
  constructor
  · exact he
  · intro j
    have hrobot := @getElem?_assign_robotsDrawn p (e.joined i player) _ _ n ∅ _ _ he hr hs hm j
    rw [if_pos (Finset.mem_univ j)] at hrobot
    simp only [blocked, seeded, GameEngine.joined, hl.positions]
    exact hrobot
  · intro pos
    rw [← mem_blocks_start_iff, ← randomAfter_after, ← hr, ← hsize]
    simp only [blocked, seeded, hl.blocks, GameEngine.joined, he]
  · intro k
    simp [blocked, seeded, GameEngine.joined, hl.bombs, Game.Rules.start]
  · intro k bomb hb
    cases hb
  · simp [blocked, seeded, GameEngine.joined, hl.nextBomb, Game.Rules.start]
  · intro j
    have hmem : j.playerId ∈ (e.joined i player).scores := by
      rw [hreg.scores, Robot.toNat_playerId]
      exact j.isLt
    obtain ⟨score, hscore⟩ := Std.ExtTreeMap.mem_iff_exists_getElem?.mp hmem
    obtain rfl := hscores _ score hscore
    exact congrArg (Option.map UInt32.toNat) hscore
  · simp [Game.Rules.start]
  · simp only [Game.Rules.start, ← randomAfter_after, ← hr, ← hsize]
    simp only [blocked, seeded, GameEngine.joined, he]
    rfl

end Keeps

namespace Keeps

variable {gone' : StdSet PlayerId}

theorem playersPositions_eq (h : Keeps e gone board) (h' : Keeps e' gone' board) (hg : Gameplay e)
    (hg' : Gameplay e') : e.playersPositions = e'.playersPositions := by
  ext id : 1
  by_cases hid : id.toNat < p.playersCount.toNat
  · obtain ⟨i, rfl⟩ := Robot.exists_playerId hid
    rw [h.robots, h'.robots]
  · have hnone : ∀ {t : GameEngine (StdSet Position)}, Gameplay t → t.gameParams = p →
        t.playersPositions[id]? = none := fun ht hp =>
      Std.ExtTreeMap.getElem?_eq_none (mt (ht.positions id).mp (hp ▸ hid))
    rw [hnone hg h.params, hnone hg' h'.params]

theorem scores_eq (h : Keeps e gone board) (h' : Keeps e' gone' board) (hg : Gameplay e)
    (hg' : Gameplay e') : e.scores = e'.scores := by
  ext id : 1
  by_cases hid : id.toNat < p.playersCount.toNat
  · obtain ⟨i, rfl⟩ := Robot.exists_playerId hid
    have hsame := (h.points i).trans (h'.points i).symm
    exact Option.map_injective (fun _ _ => UInt32.toNat_inj.mp) hsame
  · have hnone : ∀ {t : GameEngine (StdSet Position)}, Gameplay t → t.gameParams = p →
        t.scores[id]? = none := fun ht hp =>
      Std.ExtTreeMap.getElem?_eq_none (mt (ht.registered.scores id).mp (hp ▸ hid))
    rw [hnone hg h.params, hnone hg' h'.params]

theorem blocksPositions_eq (h : Keeps e gone board) (h' : Keeps e' gone' board) :
    e.blocksPositions = e'.blocksPositions := by
  ext pos
  rw [h.blocks, h'.blocks]

theorem bombs_eq (h : Keeps e gone board) (h' : Keeps e' gone' board) : e.bombs = e'.bombs := by
  ext id : 1
  rw [h.bombs, h'.bombs]

theorem nextBombId_eq (h : Keeps e gone board) (h' : Keeps e' gone' board) :
    e.nextBombId = e'.nextBombId :=
  UInt32.toNat_inj.mp (h.placed.trans h'.placed.symm)

end Keeps

end GameEngine

end Bomberrobots
