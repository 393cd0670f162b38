import Bomberrobots.Server.Explosion

/-! # What opening and closing a turn does

`begin_turn` adds a turn that holds the explosions of the bombs that run out,
evaluated on the board before the turn. Up to its broadcast, `summarise_turn` scores
and seeds again every robot that is to be destroyed.
-/

namespace Bomberrobots

namespace GameEngine

variable {β : Type} {e e' : GameEngine β} {f : Fault}

section Opening

variable [PositionSet β]

def tickedBomb (bomb : Bomb) : Bomb := { bomb with timer := bomb.timer - 1 }

def dueBombs (bombs : List (BombId × Bomb)) : List (BombId × Bomb) :=
  bombs.filter fun entry => (tickedBomb entry.2).timer = 0

theorem timer_tickedBomb {bomb : Bomb} : (tickedBomb bomb).timer = 0 ↔ bomb.timer = 1 := by
  rw [tickedBomb, UInt16.sub_eq_iff_eq_add, UInt16.zero_add]

section Due

variable {bombs : StdMap BombId Bomb} {id : BombId}

theorem mem_dueBombs {entry : BombId × Bomb} :
    entry ∈ dueBombs bombs.toList ↔ bombs[entry.1]? = some entry.2 ∧ entry.2.timer = 1 := by
  rw [dueBombs, List.mem_filter, decide_eq_true_eq, timer_tickedBomb]
  exact and_congr_left' Std.ExtTreeMap.mem_toList_iff_getElem?_eq_some

theorem mem_map_fst_dueBombs : id ∈ (dueBombs bombs.toList).map Prod.fst ↔
    ∃ bomb, bombs[id]? = some bomb ∧ bomb.timer = 1 := by
  simp only [List.mem_map, mem_dueBombs]
  constructor
  · rintro ⟨entry, h, rfl⟩
    exact ⟨entry.2, h⟩
  · rintro ⟨bomb, h⟩
    exact ⟨(id, bomb), h, rfl⟩

theorem pairwise_dueBombs :
    (dueBombs bombs.toList).Pairwise fun entry entry' => entry.1 < entry'.1 := by
  have hkeys : bombs.toList.Pairwise fun entry entry' => compare entry.1 entry'.1 = .lt :=
    Std.ExtTreeMap.ordered_keys_toList
  exact (hkeys.sublist List.filter_sublist).imp compareOfLessAndEq_eq_lt.mp

theorem nodup_dueBombs : ((dueBombs bombs.toList).map Prod.fst).Nodup :=
  List.pairwise_map.mpr (pairwise_dueBombs.imp UInt32.ne_of_lt)

end Due

def explodedEvent (e : GameEngine β) (entry : BombId × Bomb) : Event :=
  .bombExploded entry.1 (e.blastRobots entry.2.position) (e.blastBlocks entry.2.position)

def dueRobots (e : GameEngine β) (bombs : List (BombId × Bomb)) : List PlayerId :=
  (dueBombs bombs).flatMap fun entry => e.blastRobots entry.2.position

def dueBlocks (e : GameEngine β) (bombs : List (BombId × Bomb)) : List Position :=
  (dueBombs bombs).flatMap fun entry => e.blastBlocks entry.2.position

theorem handleExplosion_ok {id : BombId} {bomb : Bomb} (h : e.handleExplosion id bomb = .ok e') :
    e.Exits bomb.position ∧ e' = { e with
      currentPlayersToDestroy := (e.blastRobots bomb.position).foldl Std.ExtTreeSet.insert
        e.currentPlayersToDestroy
      currentBlocksToErase := e.currentBlocksToErase ++ e.blastBlocks bomb.position
      turns := logEvents e.turns e.currentTurn.toNat [e.explodedEvent (id, bomb)] } := by
  obtain ⟨x, hx, h⟩ := Except.bind_eq_ok_iff.mp h
  rw [explode_eq] at hx
  split at hx
  · obtain rfl := Except.ok.inj hx
    obtain ⟨-, rfl⟩ := addEvent_ok_iff.mp h
    exact ⟨‹_›, rfl⟩
  · cases hx

theorem handleExplosion_error {id : BombId} {bomb : Bomb}
    (h : e.handleExplosion id bomb = .error f) (hlen : e.currentTurn.toNat < e.turns.length) :
    f = .endlessLoop := by
  rcases Except.bind_eq_error_iff.mp h with h | ⟨x, -, h⟩
  · rw [explode_eq] at h
    split at h
    · cases h
    · exact (Except.error.inj h).symm
  · have := addEvent_error h
    simp only at this
    omega

theorem tickBomb_error {entry : BombId × Bomb} (h : e.tickBomb entry = .error f)
    (hlen : e.currentTurn.toNat < e.turns.length) : f = .endlessLoop := by
  simp only [tickBomb] at h
  split at h
  · exact handleExplosion_error h hlen
  · cases h

/-- The engine inside `begin_turn` after some bombs have been counted down. -/
def ticked (e : GameEngine β) (bombs : List (BombId × Bomb)) : GameEngine β :=
  { e with
    bombs := e.bombs.assign (bombs.map fun entry => (entry.1, tickedBomb entry.2))
    currentPlayersToDestroy :=
      (e.dueRobots bombs).foldl Std.ExtTreeSet.insert e.currentPlayersToDestroy
    currentBlocksToErase := e.currentBlocksToErase ++ e.dueBlocks bombs
    turns := logEvents e.turns e.currentTurn.toNat ((dueBombs bombs).map e.explodedEvent) }

theorem ticked_nil : e.ticked [] = e := by
  simp [ticked, dueRobots, dueBlocks, dueBombs]

theorem tickBomb_ticked {bombs : List (BombId × Bomb)} {entry : BombId × Bomb}
    (h : (e.ticked bombs).tickBomb entry = .ok e') :
    (entry ∈ dueBombs [entry] → e.Exits entry.2.position) ∧ e' = e.ticked (bombs ++ [entry]) := by
  by_cases hd : (tickedBomb entry.2).timer = 0
  · have hd' : entry.2.timer - 1 = 0 := hd
    simp only [tickBomb, hd', if_true] at h
    obtain ⟨hx, rfl⟩ := handleExplosion_ok h
    refine ⟨fun _ => hx, ?_⟩
    simp only [ticked, dueBombs, dueRobots, dueBlocks, List.filter_append, List.filter_cons, hd,
      decide_true, if_true, List.filter_nil, List.map_append, List.map_cons, List.map_nil,
      Std.ExtTreeMap.assign_append, List.flatMap_append, List.flatMap_cons, List.flatMap_nil,
      List.append_nil, List.foldl_append, logEvents_append, List.append_assoc]
    simp only [tickedBomb, hd']
    rfl
  · have hd' : entry.2.timer - 1 ≠ 0 := hd
    simp only [tickBomb, hd', if_false] at h
    obtain rfl := Except.ok.inj h
    refine ⟨fun hm => absurd (List.mem_filter.mp hm).2 (by simpa using hd), ?_⟩
    simp only [ticked, dueBombs, dueRobots, dueBlocks, List.filter_append, List.filter_cons, hd,
      decide_false, List.filter_nil, List.map_append, List.map_cons, List.map_nil,
      Std.ExtTreeMap.assign_append, List.append_nil, Bool.false_eq_true, if_false]
    rfl

def opened (e : GameEngine β) : GameEngine β :=
  { e with
    currentTurn := e.currentTurn + 1
    turns := e.turns ++ [⟨e.currentTurn + 1, (dueBombs e.bombs.toList).map e.explodedEvent⟩]
    bombs := (e.bombs.map fun _ bomb => tickedBomb bomb).filter fun _ bomb => bomb.timer != 0
    currentPlayersToDestroy :=
      (e.dueRobots e.bombs.toList).foldl Std.ExtTreeSet.insert e.currentPlayersToDestroy
    currentBlocksToErase := e.currentBlocksToErase ++ e.dueBlocks e.bombs.toList
    blocksPositions := (e.currentBlocksToErase ++ e.dueBlocks e.bombs.toList).foldl
      PositionSet.erase e.blocksPositions }

theorem getElem?_bombs_opened {id : BombId} : e.opened.bombs[id]? =
    (e.bombs[id]?.filter fun bomb => bomb.timer != 1).map tickedBomb := by
  simp only [opened, Std.ExtTreeMap.getElem?_filter', Std.ExtTreeMap.getElem?_map]
  cases e.bombs[id]? with
  | none => rfl
  | some bomb =>
    by_cases hz : bomb.timer = 1
    · simp [Option.filter, hz, tickedBomb]
    · have hne : (tickedBomb bomb).timer ≠ 0 := mt timer_tickedBomb.mp hz
      simp [Option.filter, hz, hne]

theorem map_bombs_opened {α : Type} {f : Position → α} {id : BombId} :
    (if id ∈ (dueBombs e.bombs.toList).map Prod.fst then none
      else e.bombs[id]?.map fun bomb => f bomb.position) =
    e.opened.bombs[id]?.map fun bomb => f bomb.position := by
  rw [getElem?_bombs_opened]
  simp only [mem_map_fst_dueBombs]
  cases hb : e.bombs[id]? with
  | none => simp
  | some bomb =>
    by_cases hz : bomb.timer = 1
    · simp [hz]
    · simp [tickedBomb, hz]

def turned (e : GameEngine β) : GameEngine β :=
  { e with currentTurn := e.currentTurn + 1
           turns := e.turns ++ [TurnInfo.new (e.currentTurn + 1)] }

/-- `begin_turn` counts all bombs down, where it does not hang in an explosion. -/
theorem beginTurn_ticked (h : e.beginTurn = .ok e') :
    (∀ entry ∈ dueBombs e.bombs.toList, e.Exits entry.2.position) ∧
      ∃ t, t = e.turned.ticked e.bombs.toList ∧
        e' = { t with
          bombs := t.bombs.filter fun _ bomb => bomb.timer != 0
          blocksPositions :=
            t.currentBlocksToErase.foldl PositionSet.erase t.blocksPositions } := by
  obtain ⟨t, ht, h⟩ := Except.bind_eq_ok_iff.mp h
  have hloop := Except.foldlM_ok (I := fun done t =>
      (∀ entry ∈ dueBombs done, e.Exits entry.2.position) ∧ t = e.turned.ticked done) _ ht
    ⟨by simp [dueBombs], ticked_nil.symm⟩ (by
      rintro done entry _ t' - ⟨hx, rfl⟩ ht'
      obtain ⟨hx', rfl⟩ := tickBomb_ticked ht'
      refine ⟨fun b hb => ?_, rfl⟩
      rw [dueBombs, List.filter_append] at hb
      rcases List.mem_append.mp hb with hb | hb
      · exact hx b hb
      · obtain rfl := List.mem_singleton.mp (List.mem_of_mem_filter hb)
        exact hx' hb)
  exact ⟨hloop.1, t, hloop.2, (Except.pure_eq_ok.mp h).symm⟩

theorem beginTurn_tcpHandler (h : e.beginTurn = .ok e') : e'.tcpHandler = e.tcpHandler := by
  obtain ⟨-, t, rfl, rfl⟩ := beginTurn_ticked h
  rfl

theorem beginTurn_ok (h : e.beginTurn = .ok e')
    (hlen : (e.currentTurn + 1).toNat = e.turns.length) :
    (∀ entry ∈ dueBombs e.bombs.toList, e.Exits entry.2.position) ∧ e' = e.opened := by
  obtain ⟨hx, t, rfl, rfl⟩ := beginTurn_ticked h
  refine ⟨hx, ?_⟩
  simp only [ticked, turned, opened, logEvents_concat hlen, TurnInfo.new, List.nil_append,
    Std.ExtTreeMap.assign_toList_map fun _ bomb => tickedBomb bomb]
  rfl

theorem beginTurn_error (h : e.beginTurn = .error f)
    (hlen : (e.currentTurn + 1).toNat = e.turns.length) : f = .endlessLoop := by
  rcases Except.bind_eq_error_iff.mp h with h | ⟨t, -, h⟩
  · obtain ⟨done, entry, _, -, rfl, ht⟩ := Except.foldlM_error
      (I := fun done t => t = e.turned.ticked done) _ h ticked_nil.symm (by
        rintro done entry _ t' - rfl ht'
        exact (tickBomb_ticked ht').2)
    exact tickBomb_error ht (by simp [ticked, turned, hlen])
  · exact absurd h Except.pure_ne_error

end Opening

section Closing

/-- The scores after one more hit of every listed robot. -/
def hitScores (scores : StdMap PlayerId Score) (ids : List PlayerId) : StdMap PlayerId Score :=
  scores.map fun id score => if id ∈ ids then score + 1 else score

section Scores

variable {scores : StdMap PlayerId Score} {ids ids' : List PlayerId}

@[simp] theorem hitScores_nil : hitScores scores [] = scores := by
  simp [hitScores]

@[simp] theorem mem_hitScores {id : PlayerId} : id ∈ hitScores scores ids ↔ id ∈ scores :=
  Std.ExtTreeMap.mem_map

theorem hitScores_congr (h : ∀ id, id ∈ ids ↔ id ∈ ids') :
    hitScores scores ids = hitScores scores ids' := by
  simp only [hitScores, h]

theorem hitScores_append (h : ids.Disjoint ids') :
    hitScores (hitScores scores ids) ids' = hitScores scores (ids ++ ids') := by
  ext id : 1
  simp only [hitScores, Std.ExtTreeMap.getElem?_map, Option.map_map, List.mem_append]
  congr 1
  funext score
  by_cases hid : id ∈ ids
  · have hid' : id ∉ ids' := h hid
    simp [hid, hid']
  · simp [hid]

end Scores

theorem hitScores_concat {scores : StdMap PlayerId Score} {ids : List PlayerId} {id : PlayerId}
    {score : Score} (hs : scores[id]? = some score) :
    (hitScores scores ids).insert id (score + 1) = hitScores scores (ids ++ [id]) := by
  ext k : 1
  by_cases hk : id = k
  · subst hk
    simp [hitScores, hs]
  · simp [hitScores, Std.ExtTreeMap.getElem?_insert, hk, Ne.symm hk]

/-- The engine inside `summarise_turn` after some robots have been seeded again. -/
def respawned (e : GameEngine β) (robots : List (PlayerId × Position)) (random : Random) :
    GameEngine β :=
  { e.seeded robots random with scores := hitScores e.scores (robots.map Prod.fst) }

theorem respawned_nil : e.respawned [] e.random = e := by
  simp [respawned, hitScores, seeded_nil]

theorem respawnPlayer_respawned {id : PlayerId} {robots : List (PlayerId × Position)}
    {random : Random} (hid : id ∉ robots.map Prod.fst)
    (h : (e.respawned robots random).respawnPlayer id = .ok e') :
    id ∈ e.scores ∧ ∃ pos random, e.checkPosition pos = true ∧
      e' = e.respawned (robots ++ [(id, pos)]) random := by
  unfold respawnPlayer at h
  split at h
  case h_2 => cases h
  case h_1 score hs =>
    obtain ⟨pos, random, hpos, -, rfl⟩ := seedPlayer_ok h
    have hs' : e.scores[id]? = some score := by simpa [respawned, hitScores, hid] using hs
    refine ⟨Std.ExtTreeMap.mem_iff_exists_getElem?.mpr ⟨_, hs'⟩, pos, random, hpos, ?_⟩
    simp only [respawned, seeded, List.map_append, List.map_singleton, logEvents_append,
      Std.ExtTreeMap.assign_append, ← hitScores_concat hs']
    rfl

/-- The robots seeded again are those to be destroyed, and each of them has a score. -/
theorem sendTurn_ok {sent : List Sending} (h : e.sendTurn = .ok (e', sent)) :
    ∃ robots random turn, robots.map Prod.fst = e.currentPlayersToDestroy.toList ∧
      (∀ robot ∈ robots, e.checkPosition robot.2 = true) ∧
      (∀ id ∈ e.currentPlayersToDestroy, id ∈ e.scores) ∧ e' = e.respawned robots random ∧
      e'.turns[e.currentTurn.toNat]? = some turn ∧
      sent = e.tcpHandler.sendMessageToAll (.turn turn) := by
  obtain ⟨t, ht, h⟩ := Except.bind_eq_ok_iff.mp h
  have hloop := Except.foldlM_ok (I := fun done t => ∃ robots random,
      robots.map Prod.fst = done ∧ (∀ robot ∈ robots, e.checkPosition robot.2 = true) ∧
      (∀ id ∈ done, id ∈ e.scores) ∧ t = e.respawned robots random) _ ht
    ⟨[], e.random, rfl, by simp, by simp, respawned_nil.symm⟩ (by
      rintro done id _ t' hp ⟨robots, random, rfl, hr, hd, rfl⟩ ht'
      have hnd := hp.sublist.nodup Std.ExtTreeSet.nodup_toList
      have hid : id ∉ robots.map Prod.fst := by
        intro hm
        exact (List.disjoint_of_nodup_append hnd) hm (List.mem_singleton_self _)
      obtain ⟨hs, pos, random, hpos, rfl⟩ := respawnPlayer_respawned hid ht'
      refine ⟨robots ++ [(id, pos)], random, by simp, ?_, ?_, rfl⟩
      · intro robot hm
        rcases List.mem_append.mp hm with hm | hm
        · exact hr robot hm
        · obtain rfl := List.mem_singleton.mp hm
          exact hpos
      · intro k hm
        rcases List.mem_append.mp hm with hm | hm
        · exact hd k hm
        · obtain rfl := List.mem_singleton.mp hm
          exact hs)
  obtain ⟨robots, random, hk, hr, hd, rfl⟩ := hloop
  split at h
  case h_2 => cases h
  case h_1 turn hturn =>
    obtain ⟨rfl, rfl⟩ := Prod.mk.inj (Except.pure_eq_ok.mp h)
    exact ⟨robots, random, turn, hk, hr, fun id hid => hd id (Std.ExtTreeSet.mem_toList.mpr hid),
      rfl, hturn, rfl⟩

theorem sendTurn_error_sizes (h : e.sendTurn = .error f)
    (hlen : e.currentTurn.toNat < e.turns.length)
    (hs : ∀ id ∈ e.currentPlayersToDestroy, id ∈ e.scores) :
    f = .divisionByZero ∧ (e.gameParams.sizeX = 0 ∨ e.gameParams.sizeY = 0) := by
  have hstep : ∀ (done : List PlayerId) (id : PlayerId) (t t' : GameEngine β),
      done ++ [id] <+: e.currentPlayersToDestroy.toList →
      (∃ robots random, robots.map Prod.fst = done ∧ t = e.respawned robots random) →
      t.respawnPlayer id = .ok t' →
      ∃ robots random, robots.map Prod.fst = done ++ [id] ∧ t' = e.respawned robots random := by
    rintro done id _ t' hp ⟨robots, random, rfl, rfl⟩ ht'
    have hnd := hp.sublist.nodup Std.ExtTreeSet.nodup_toList
    have hid : id ∉ robots.map Prod.fst := by
      intro hm
      exact (List.disjoint_of_nodup_append hnd) hm (List.mem_singleton_self _)
    obtain ⟨-, pos, random, -, rfl⟩ := respawnPlayer_respawned hid ht'
    exact ⟨robots ++ [(id, pos)], random, by simp, rfl⟩
  have hstart : ∃ robots random, robots.map Prod.fst = [] ∧ e = e.respawned robots random :=
    ⟨[], e.random, rfl, respawned_nil.symm⟩
  rcases Except.bind_eq_error_iff.mp h with h | ⟨t, ht, h⟩
  · obtain ⟨done, id, _, hp, ⟨robots, random, rfl, rfl⟩, ht⟩ :=
      Except.foldlM_error _ h hstart hstep
    have hid : id ∈ e.scores := hs id (Std.ExtTreeSet.mem_toList.mp (hp.subset (by simp)))
    have hid' : id ∈ (e.respawned robots random).scores := by
      simpa [respawned, hitScores] using hid
    obtain ⟨score, hscore⟩ := Std.ExtTreeMap.mem_iff_exists_getElem?.mp hid'
    simp only [respawnPlayer, hscore] at ht
    have hdiv := seedPlayer_error ht (by simpa [respawned, seeded] using hlen)
    exact hdiv
  · obtain ⟨robots, random, -, rfl⟩ := Except.foldlM_ok _ ht hstart hstep
    split at h
    · exact absurd h Except.pure_ne_error
    · rename_i hn
      rw [List.getElem?_eq_none_iff] at hn
      simp [respawned, seeded] at hn
      omega

theorem sendTurn_error (h : e.sendTurn = .error f) (hlen : e.currentTurn.toNat < e.turns.length)
    (hs : ∀ id ∈ e.currentPlayersToDestroy, id ∈ e.scores) : f = .divisionByZero :=
  (sendTurn_error_sizes h hlen hs).1

end Closing

end GameEngine

end Bomberrobots
