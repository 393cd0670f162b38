import Bomberrobots.Library.Lehmer
import Bomberrobots.Server.Hits
import Mathlib.NumberTheory.LucasPrimality
import Mathlib.Tactic.ReduceModChar

/-! # What the random generator draws

The generator is advanced twice for every robot and block that is placed, and by nothing else.
How often it has been advanced can be told from the broadcasts: a game draws its robots and its
initial blocks, and then one position for each point that is scored.
-/

namespace Bomberrobots

namespace Random

def after (random : Random) (n : ℕ) : Random := (fun random => random.next.2)^[n] random

def position (random : Random) (p : ServerParameters) : Position :=
  ⟨(random.next.1 % p.sizeX.toUInt32).toUInt16,
    ((random.after 1).next.1 % p.sizeY.toUInt32).toUInt16⟩

def positions (random : Random) (p : ServerParameters) (n : ℕ) : List Position :=
  (List.range n).map fun k => (random.after (2 * k)).position p

variable {random random' : Random} {p : ServerParameters} {size x : UInt16} {n k : ℕ}

@[simp] theorem after_zero : random.after 0 = random := rfl

theorem after_after : (random.after n).after k = random.after (n + k) := by
  rw [after, after, after, Nat.add_comm, Function.iterate_add_apply]

@[simp] theorem length_positions : (random.positions p n).length = n := by
  simp [positions]

theorem positions_succ : random.positions p (n + 1) =
    random.positions p n ++ [(random.after (2 * n)).position p] := by
  simp [positions, List.range_succ]

theorem coordinate_drawn (h : random.coordinate size = .ok (x, random')) :
    x = (random.next.1 % size.toUInt32).toUInt16 ∧ random' = random.after 1 := by
  unfold coordinate at h
  split at h
  · cases h
  · obtain ⟨rfl, rfl⟩ := Prod.mk.inj (Except.ok.inj h)
    exact ⟨rfl, rfl⟩

theorem toNat_next :
    random.next.2.state.toNat = Lehmer.next 48271 2147483647 random.state.toNat := by
  have hlt := Nat.mod_lt (48271 * random.state.toNat) (show 0 < 2147483647 by decide)
  simp only [next, Lehmer.next, UInt32.toNat_ofNat']
  exact Nat.mod_eq_of_lt (hlt.trans (by decide))

theorem toNat_after :
    (random.after n).state.toNat = (Lehmer.next 48271 2147483647)^[n] random.state.toNat := by
  induction n with
  | zero => rfl
  | succ n ih =>
    rw [← after_after, Function.iterate_succ_apply', ← ih]
    exact toNat_next

theorem toNat_new_lt {seed : UInt32} : (new seed).state.toNat < 2147483647 := by
  unfold new
  split
  · decide
  · rw [UInt32.toNat_mod]
    exact Nat.mod_lt _ (by decide)

theorem toNat_new_pos {seed : UInt32} : 0 < (new seed).state.toNat := by
  unfold new
  split
  · decide
  · exact UInt32.lt_iff_toNat_lt.mp (UInt32.pos_iff_ne_zero.mpr ‹_›)

/-- The multiplier is a primitive root, so the modulus is a prime. -/
theorem pow_multiplier_ne {q : ℕ} (hq : q.Prime) (hd : q ∣ 2147483646) :
    (48271 : ZMod 2147483647) ^ (2147483646 / q) ≠ 1 := by
  have hprime : ∀ r ∈ [2, 3, 3, 7, 11, 31, 151, 331], Nat.Prime r := by
    simp only [List.forall_mem_cons]
    norm_num
  have hmem : q ∈ [2, 3, 3, 7, 11, 31, 151, 331] :=
    mem_list_primes_of_dvd_prod hq.prime (fun r hr => (hprime r hr).prime) hd
  simp only [List.mem_cons, List.not_mem_nil, or_false] at hmem
  rcases hmem with rfl | rfl | rfl | rfl | rfl | rfl | rfl | rfl <;> norm_num <;>
    reduce_mod_char <;> decide

theorem orderOf_multiplier : orderOf ((48271 : ℕ) : ZMod 2147483647) = 2147483646 := by
  refine orderOf_eq_of_pow_and_pow_div_prime (by decide) ?_ fun q hq hd => ?_
  · push_cast
    reduce_mod_char
  · exact_mod_cast pow_multiplier_ne hq hd

theorem prime_modulus : Nat.Prime 2147483647 := by
  refine lucas_primality _ 48271 ?_ fun q hq hd => pow_multiplier_ne hq hd
  norm_num
  reduce_mod_char

theorem coprime_multiplier : Nat.Coprime 48271 2147483647 := by decide

theorem coprime_new {seed : UInt32} : (new seed).state.toNat.Coprime 2147483647 :=
  (Nat.coprime_of_lt_prime toNat_new_pos.ne' toNat_new_lt prime_modulus).symm

end Random

namespace GameEngine

variable {β : Type} {e e' : GameEngine β} {ids : List PlayerId}

theorem seedPosition_drawn {pos : Position} (h : e.seedPosition = .ok (pos, e')) :
    pos = e.random.position e.gameParams ∧ e' = { e with random := e.random.after 2 } := by
  obtain ⟨⟨x, r⟩, hx, h⟩ := Except.bind_eq_ok_iff.mp h
  obtain ⟨⟨y, r'⟩, hy, h⟩ := Except.bind_eq_ok_iff.mp h
  obtain ⟨rfl, rfl⟩ := Prod.mk.inj (Except.pure_eq_ok.mp h)
  obtain ⟨rfl, rfl⟩ := Random.coordinate_drawn hx
  obtain ⟨rfl, rfl⟩ := Random.coordinate_drawn hy
  exact ⟨rfl, rfl⟩

theorem seedPlayer_drawn {id : PlayerId} (h : e.seedPlayer id = .ok e') :
    e' = e.seeded [(id, e.random.position e.gameParams)] (e.random.after 2) := by
  obtain ⟨⟨pos, e₁⟩, h₁, h⟩ := Except.bind_eq_ok_iff.mp h
  obtain ⟨e₂, h₂, h⟩ := Except.bind_eq_ok_iff.mp h
  obtain ⟨rfl, rfl⟩ := seedPosition_drawn h₁
  obtain ⟨-, rfl⟩ := addEvent_ok_iff.mp h₂
  exact (Except.pure_eq_ok.mp h).symm

def robotsDrawn (e : GameEngine β) (ids : List PlayerId) : List (PlayerId × Position) :=
  ids.zip (e.random.positions e.gameParams ids.length)

theorem map_fst_robotsDrawn : (e.robotsDrawn ids).map Prod.fst = ids := by
  rw [robotsDrawn, List.map_fst_zip (by simp)]

theorem robotsDrawn_concat {id : PlayerId} : e.robotsDrawn (ids ++ [id]) =
    e.robotsDrawn ids ++ [(id, (e.random.after (2 * ids.length)).position e.gameParams)] := by
  rw [robotsDrawn, List.length_append, List.length_singleton, Random.positions_succ,
    List.zip_append (by simp)]
  rfl

theorem seedPlayers_drawn (h : e.seedPlayers = .ok e') :
    e' = e.seeded (e.robotsDrawn e.players.keys) (e.random.after (2 * e.players.keys.length)) := by
  refine Except.foldlM_ok (I := fun done t =>
    t = e.seeded (e.robotsDrawn done) (e.random.after (2 * done.length))) _ h ?_ ?_
  · exact seeded_nil.symm
  · rintro done id _ t' - rfl ht
    rw [seedPlayer_drawn ht, robotsDrawn_concat, List.length_append, List.length_singleton]
    simp [seeded, logEvents_append, Std.ExtTreeMap.assign_append, Random.after_after, Nat.mul_add]

theorem foldlM_respawnPlayer_drawn (hnd : ids.Nodup) (h : ids.foldlM respawnPlayer e = .ok e') :
    e' = e.respawned (e.robotsDrawn ids) (e.random.after (2 * ids.length)) := by
  refine Except.foldlM_ok (I := fun done t =>
    t = e.respawned (e.robotsDrawn done) (e.random.after (2 * done.length))) _ h ?_ ?_
  · exact respawned_nil.symm
  · rintro done id _ t' hp rfl ht
    have hid : id ∉ done := fun hm =>
      List.disjoint_of_nodup_append (hp.sublist.nodup hnd) hm (List.mem_singleton_self _)
    unfold respawnPlayer at ht
    split at ht
    case h_2 => cases ht
    case h_1 score hs =>
      have hs' : e.scores[id]? = some score := by
        simpa [respawned, hitScores, map_fst_robotsDrawn, hid] using hs
      rw [seedPlayer_drawn ht, robotsDrawn_concat, List.length_append, List.length_singleton]
      simp only [respawned, seeded, List.map_append, map_fst_robotsDrawn, List.map_singleton,
        logEvents_append, Std.ExtTreeMap.assign_append, ← hitScores_concat hs',
        Random.after_after, Nat.mul_add]

theorem sendTurn_drawn {sent : List Sending} (h : e.sendTurn = .ok (e', sent)) :
    e' = e.respawned (e.robotsDrawn e.currentPlayersToDestroy.toList)
      (e.random.after (2 * e.currentPlayersToDestroy.toList.length)) := by
  obtain ⟨t, ht, h⟩ := Except.bind_eq_ok_iff.mp h
  split at h
  · obtain ⟨rfl, -⟩ := Prod.mk.inj (Except.pure_eq_ok.mp h)
    exact foldlM_respawnPlayer_drawn Std.ExtTreeSet.nodup_toList ht
  · cases h

variable [PositionSet β]

theorem seedBlock_drawn (h : e.seedBlock = .ok e') :
    e' = e.blocked [e.random.position e.gameParams] (e.random.after 2) := by
  obtain ⟨⟨pos, e₁⟩, h₁, h⟩ := Except.bind_eq_ok_iff.mp h
  obtain ⟨e₂, h₂, h⟩ := Except.bind_eq_ok_iff.mp h
  obtain ⟨rfl, rfl⟩ := seedPosition_drawn h₁
  obtain ⟨-, rfl⟩ := addEvent_ok_iff.mp h₂
  exact (Except.pure_eq_ok.mp h).symm

theorem seedBlocks_drawn (h : e.seedBlocks = .ok e') :
    e' = e.blocked (e.random.positions e.gameParams e.gameParams.initialBlocks.toNat)
      (e.random.after (2 * e.gameParams.initialBlocks.toNat)) := by
  have hloop := Except.foldlM_ok (I := fun done t => t =
    e.blocked (e.random.positions e.gameParams done.length) (e.random.after (2 * done.length)))
    _ h (by simp [blocked, Random.positions]) (by
      rintro done _ _ t' - rfl ht
      rw [seedBlock_drawn ht, List.length_append, List.length_singleton, Random.positions_succ]
      simp [blocked, logEvents_append, Random.after_after, Nat.mul_add])
  simpa using hloop

theorem startGameplay_drawn {sent : List Sending} (h : e.startGameplay = .ok (e', sent)) :
    e'.random = e.random.after (2 * (e.players.size + e.gameParams.initialBlocks.toNat)) ∧
    e'.turns = logEvents (logEvents (e.turns ++ [TurnInfo.new 0]) e.currentTurn.toNat
      ((e.robotsDrawn e.players.keys).map movedEvent)) 0
      (((e.random.after (2 * e.players.size)).positions e.gameParams
        e.gameParams.initialBlocks.toNat).map .blockPlaced) := by
  obtain ⟨e₁, h₁, h⟩ := Except.bind_eq_ok_iff.mp h
  obtain ⟨e₂, h₂, h⟩ := Except.bind_eq_ok_iff.mp h
  obtain rfl := seedPlayers_drawn h₁
  obtain rfl := seedBlocks_drawn h₂
  obtain ⟨rfl, -⟩ := Prod.mk.inj (Except.pure_eq_ok.mp h)
  simp only [blocked, seeded, robotsDrawn, Std.ExtTreeMap.length_keys, Random.after_after,
    Nat.mul_add]
  trivial

def points (scores : StdMap PlayerId Score) : ℕ :=
  (scores.toList.map fun entry => entry.2.toNat).sum

section Points

variable {scores : StdMap PlayerId Score} {id : PlayerId}

theorem points_eq_zero (h : ∀ (id : PlayerId) (score : Score), scores[id]? = some score →
    score = 0) : points scores = 0 := by
  rw [points, List.sum_eq_zero]
  intro n hn
  obtain ⟨entry, he, rfl⟩ := List.mem_map.mp hn
  rw [h _ _ (Std.ExtTreeMap.mem_toList_iff_getElem?_eq_some.mp he), UInt32.toNat_zero]

theorem sum_add_ite {α : Type} {l : List α} {f : α → ℕ} {P : α → Prop} [DecidablePred P] :
    (l.map fun a => f a + if P a then 1 else 0).sum = (l.map f).sum + l.countP P := by
  induction l with
  | nil => rfl
  | cons a l ih =>
    rw [List.map_cons, List.sum_cons, ih, List.map_cons, List.sum_cons, List.countP_cons]
    simp only [decide_eq_true_eq]
    omega

theorem points_hitScores (hnd : ids.Nodup) (hsub : ∀ id ∈ ids, id ∈ scores)
    (hlt : ∀ (id : PlayerId) (score : Score), scores[id]? = some score →
      score.toNat + 1 < 2 ^ 32) :
    points (hitScores scores ids) = points scores + ids.length := by
  have hentry : ∀ entry ∈ scores.toList,
      (if entry.1 ∈ ids then entry.2 + 1 else entry.2).toNat =
        entry.2.toNat + if entry.1 ∈ ids then 1 else 0 := by
    intro entry hm
    have hmax := hlt _ _ (Std.ExtTreeMap.mem_toList_iff_getElem?_eq_some.mp hm)
    split
    · rw [UInt32.toNat_add, UInt32.toNat_one, Nat.mod_eq_of_lt hmax]
    · rfl
  have hkeys : ((scores.toList.map Prod.fst).filter (· ∈ ids)).Perm ids := by
    rw [List.perm_ext_iff_of_nodup (Std.ExtTreeMap.nodup_map_fst_toList.filter _) hnd]
    intro k
    rw [Std.ExtTreeMap.map_fst_toList_eq_keys, List.mem_filter, Std.ExtTreeMap.mem_keys]
    simpa using hsub k
  rw [points, hitScores, Std.ExtTreeMap.toList_map, List.map_map]
  refine (congrArg List.sum (List.map_congr_left hentry)).trans ?_
  rw [sum_add_ite, ← hkeys.length_eq, ← List.countP_eq_length_filter, List.countP_map]
  rfl

end Points

end GameEngine

namespace Server

open GameEngine

variable {β : Type}

/-- How many positions a game with these scores has drawn. -/
def gameDraws (p : ServerParameters) (scores : StdMap PlayerId Score) : ℕ :=
  p.playersCount.toNat + p.initialBlocks.toNat + points scores

/-- How many positions the games have drawn whose ends have been broadcast. -/
def drawnBefore (p : ServerParameters) (msgs : List ServerMessage) : ℕ :=
  (msgs.map fun
    | .gameEnded scores => gameDraws p scores
    | _ => 0).sum

/-- How many positions have been drawn. -/
def drawn (p : ServerParameters) (msgs : List ServerMessage) (s : Server β) : ℕ :=
  drawnBefore p msgs + if s.engine.gameplayStarted then gameDraws p s.engine.scores else 0

def randomAfter (p : ServerParameters) (n : ℕ) : Random := (Random.new p.seed).after (2 * n)

/-- What turn 0 of a game begins with that draws its positions from a generator. -/
def firstEvents (p : ServerParameters) (ids : List PlayerId) (random : Random) : List Event :=
  (ids.zip (random.positions p p.playersCount.toNat)).map movedEvent ++
    ((random.after (2 * p.playersCount.toNat)).positions p p.initialBlocks.toNat).map .blockPlaced

/-- The generator is where the broadcasts tell, and the game has begun with what it drew. -/
structure Drawn (p : ServerParameters) (msgs : List ServerMessage) (s : Server β) : Prop where
  random : s.engine.random = randomAfter p (drawn p msgs s)
  first : s.engine.gameplayStarted = true → ∃ events, s.engine.turns[0]? = some
    ⟨0, firstEvents p s.engine.players.keys (randomAfter p (drawnBefore p msgs)) ++ events⟩

variable {p : ServerParameters} {msgs new : List ServerMessage} {s s' : Server β}

theorem drawnBefore_append :
    drawnBefore p (msgs ++ new) = drawnBefore p msgs + drawnBefore p new := by
  simp [drawnBefore]

theorem randomAfter_after {n k : ℕ} :
    (randomAfter p n).after (2 * k) = randomAfter p (n + k) := by
  rw [randomAfter, Random.after_after, ← Nat.mul_add, randomAfter]

theorem Drawn.of_lobby (hs : s.engine.gameplayStarted = false)
    (hr : s.engine.random = randomAfter p (drawnBefore p msgs)) : Drawn p msgs s where
  random := by simpa [drawn, hs] using hr
  first hs' := Bool.noConfusion (hs.symm.trans hs')

theorem Drawn.random_of_lobby (h : Drawn p msgs s) (hs : s.engine.gameplayStarted = false) :
    s.engine.random = randomAfter p (drawnBefore p msgs) := by
  simpa [drawn, hs] using h.random

theorem exists_logEvents_zero {turns : List TurnInfo} {first events events' : List Event} {k : ℕ}
    (h : turns[0]? = some ⟨0, first ++ events⟩) :
    ∃ events'', (logEvents turns k events')[0]? = some ⟨0, first ++ events''⟩ := by
  by_cases hk : k = 0
  · subst hk
    refine ⟨events ++ events', ?_⟩
    simp [logEvents, h]
  · exact ⟨events, (getElem?_logEvents_of_ne hk).trans h⟩

theorem Tallied.score_lt {e : GameEngine β} {point : Point} {id : PlayerId} {score : Score}
    (h : Tallied ⟨e, point⟩) (hg : Gameplay e) (hscore : e.scores[id]? = some score) :
    score.toNat + 1 < 2 ^ 32 := by
  have hcount : hitTurns e.turns id = score.toNat + _ := h.game hg.started id score hscore
  have hle : hitTurns e.turns id ≤ e.turns.length := List.countP_le_length
  have hmax := e.currentTurn.toNat_lt
  rw [hg.length] at hle
  omega

theorem Drawn.keep (h : Drawn p msgs s) (hs : s.engine.gameplayStarted = true)
    (hs' : s'.engine.gameplayStarted = true) (hp : s'.engine.players = s.engine.players)
    (hr : s'.engine.random = s.engine.random) (hscores : s'.engine.scores = s.engine.scores)
    (hfirst : ∀ first events, s.engine.turns[0]? = some ⟨0, first ++ events⟩ →
      ∃ events', s'.engine.turns[0]? = some ⟨0, first ++ events'⟩) : Drawn p (msgs ++ []) s' where
  random := by
    rw [hr, h.random, List.append_nil, drawn, drawn, if_pos hs, if_pos hs', hscores]
  first _ := by
    obtain ⟨events, hturn⟩ := h.first hs
    rw [List.append_nil, hp]
    exact hfirst _ _ hturn

theorem drawn_respawned {e : GameEngine β} {robots : List (PlayerId × Position)}
    {random : Random} {turn : TurnInfo} (hg : Gameplay e) (ht : Tallied ⟨e, .bottom⟩)
    (hr : robots.map Prod.fst = e.currentPlayersToDestroy.toList) :
    drawn p (msgs ++ [.turn turn]) ⟨e.respawned robots random, .broadcast⟩ =
      drawn p msgs ⟨e, .bottom⟩ + e.currentPlayersToDestroy.toList.length := by
  have hpoints := points_hitScores Std.ExtTreeSet.nodup_toList (fun id hid =>
    (hg.registered.scores id).mpr (hg.destroy id (Std.ExtTreeSet.mem_toList.mp hid)))
    fun id score => ht.score_lt hg
  have hnew : drawnBefore p (msgs ++ [.turn turn]) = drawnBefore p msgs := drawnBefore_append
  have hs : (e.respawned robots random).gameplayStarted = true := hg.started
  rw [drawn, drawn, if_pos hs, if_pos hg.started, hnew, gameDraws, gameDraws]
  simp only [GameEngine.respawned, hr, hpoints, Nat.add_assoc]

variable [PositionSet β] {env : Env} {out : List Sending}

theorem Drawn.started {e e' : GameEngine β} {i : Slot} {player : Player} {sent : List Sending}
    {point : Point} (hI : Drawn p msgs ⟨e, .client i⟩) (hl : Lobby e)
    (hn : (e.joined i player).players.size = e.gameParams.playersCount.toNat)
    (hg : (e.joined i player).startGameplay = .ok (e', sent)) (hp : e.gameParams = p)
    (ht : Tallied (⟨e, .client i⟩ : Server β)) :
    Drawn p (msgs ++ [.acceptedPlayer e.nextPlayerId player,
      .gameStarted (e.joined i player).players]) ⟨e', point⟩ := by
  have hrandom : (e.joined i player).random = _ := hI.random_of_lobby hl.started
  have hplayers : e'.players = (e.joined i player).players := by
    obtain ⟨robots, blocks, hb⟩ := hl.begun hg
    exact hb.players
  have hzero : points e'.scores = 0 := by
    obtain ⟨robots, blocks, hb⟩ := hl.begun hg
    rw [hb.scores]
    exact points_eq_zero (scores_joined (ht.lobby hl.started))
  have hnew : drawnBefore p (msgs ++ [.acceptedPlayer e.nextPlayerId player,
      .gameStarted (e.joined i player).players]) = drawnBefore p msgs := drawnBefore_append
  obtain ⟨hr, hlog⟩ := startGameplay_drawn hg
  have hstart := (hl.startGameplay hn hg).1.started
  have hparams : (e.joined i player).gameParams = p := hp
  have hturn : (e.joined i player).currentTurn.toNat = 0 := by simp [GameEngine.joined, hl.turn]
  have hturns : (e.joined i player).turns = [] := hl.turns
  rw [hp] at hn
  rw [hn, hrandom, hparams, randomAfter_after] at hr
  constructor
  · rw [hr, Server.drawn, if_pos hstart, gameDraws, hzero, hnew, Nat.add_zero]
  · intro _
    refine ⟨[], ?_⟩
    rw [hlog, hturn, hturns, hnew, hn, robotsDrawn, Std.ExtTreeMap.length_keys, hn, hrandom,
      hparams, hplayers, firstEvents]
    simp [logEvents, TurnInfo.new]

theorem Played.drawn (h : Played env s s' new) (hw : Wf p s) (hI : Drawn p msgs s)
    (ht : Tallied s) (hsend : s'.point = .broadcast → ∃ sent, s.engine.sendTurn =
      .ok (s'.engine, sent)) : Drawn p (msgs ++ new) s' := by
  cases h with
  | @still e point point' handler hp =>
    rw [List.append_nil]
    exact ⟨hI.random, hI.first⟩
  | joined hl hlt hn =>
    refine .of_lobby hl.started ?_
    rw [drawnBefore_append]
    exact hI.random_of_lobby hl.started
  | started hl hn hg => exact hI.started hl hn hg hw.params ht
  | @acted e e' i msg hg hm hr hh =>
    obtain ⟨events, hlog⟩ := hh.logged hg
    refine hI.keep hg.started (hlog.started.trans hg.started) hlog.players ?_ hlog.scores ?_
    · obtain ⟨-, rfl | ⟨id, pos, -, -, rfl | rfl | ⟨pos', -, rfl⟩⟩⟩ := hh.gameplay hg <;> rfl
    · intro first events' hfirst
      rw [hlog.turns]
      exact exists_logEvents_zero hfirst
  | @opened e handler hg hlt he hd =>
    refine hI.keep hg.started hg.started rfl rfl rfl fun first events hfirst => ⟨events, ?_⟩
    have hlen : 0 < e.turns.length := by simp [hg.length]
    simp only [GameEngine.opened, withHandler, List.getElem?_append_left hlen]
    exact hfirst
  | @sent e robots random turn hg hr hcheck hturn =>
    obtain ⟨sent, hsent⟩ := hsend rfl
    have he : e.respawned robots random = e.respawned (e.robotsDrawn _) (e.random.after _) :=
      sendTurn_drawn hsent
    obtain ⟨events, hfirst⟩ := hI.first hg.started
    have hnew : drawnBefore p (msgs ++ [.turn turn]) = drawnBefore p msgs := drawnBefore_append
    rw [he]
    constructor
    · rw [drawn_respawned hg ht map_fst_robotsDrawn, ← randomAfter_after, ← hI.random]
      rfl
    · intro _
      rw [hnew]
      exact exists_logEvents_zero hfirst
  | @closed e hg hlt =>
    exact hI.keep hg.started hg.started rfl rfl rfl fun _ events h => ⟨events, h⟩
  | ended hg hlast =>
    refine .of_lobby rfl ?_
    rw [drawnBefore_append]
    have hrandom := hI.random
    rw [Server.drawn, if_pos hg.started] at hrandom
    exact hrandom

section Runs

variable {tr tr' : List (Machine.Step (Server β) Env Sending)}

theorem run_drawn (hc : 0 < p.playersCount) (h : (machine β p).Run tr s) :
    Drawn p (broadcasts (Machine.log tr)) s := by
  refine h.invariant (I := fun tr s => Drawn p (broadcasts (Machine.log tr)) s)
    (.of_lobby rfl rfl) ?_
  intro tr s env s' out hr hI hs
  obtain ⟨hw, hb⟩ := run_wf_below hc hr
  have hs' := step_stepped hs
  have hsend : s'.point = .broadcast → ∃ sent, s.engine.sendTurn = .ok (s'.engine, sent) :=
    fun hp => ⟨out, (hs'.of_broadcast hp).2.2⟩
  rw [Machine.log_append, broadcasts_append]
  simpa using (hw.played hb.room hs').drawn hw hI (run_tallied hc hr) hsend

/--
The state of the random generator follows from the seed and the number of positions that have
been drawn, which the broadcasts tell, and it never gets to zero.
-/
theorem run_random (hc : 0 < p.playersCount) (h : (machine β p).Run tr s) :
    s.engine.random.state.toNat = 48271 ^ (2 * drawn p (broadcasts (Machine.log tr)) s) *
      (Random.new p.seed).state.toNat % 2147483647 ∧ 0 < s.engine.random.state.toNat := by
  rw [(run_drawn hc h).random, randomAfter, Random.toNat_after]
  constructor
  · exact Lehmer.iterate_next _ Random.toNat_new_lt
  · exact Lehmer.iterate_pos _ (by decide) Random.coprime_multiplier Random.coprime_new

/--
Two runs of servers with the same parameters, or two moments of a run, find the generator in
the same state exactly if the numbers of positions drawn differ by a multiple of half the period.
-/
theorem run_random_eq_iff {s' : Server β} (hc : 0 < p.playersCount)
    (h : (machine β p).Run tr s) (h' : (machine β p).Run tr' s') :
    s.engine.random = s'.engine.random ↔
      drawn p (broadcasts (Machine.log tr)) s ≡ drawn p (broadcasts (Machine.log tr')) s'
        [MOD 1073741823] := by
  have hstate : ∀ random random' : Random, random = random' ↔
      random.state.toNat = random'.state.toNat := by
    rintro ⟨state⟩ ⟨state'⟩
    rw [Random.mk.injEq, UInt32.toNat_inj]
  rw [(run_drawn hc h).random, (run_drawn hc h').random, hstate, randomAfter, randomAfter,
    Random.toNat_after, Random.toNat_after, Lehmer.iterate_eq_iff Random.coprime_multiplier
    Random.coprime_new Random.toNat_new_lt, Random.orderOf_multiplier,
    show 2147483646 = 2 * 1073741823 by rfl, Nat.ModEq.mul_left_cancel_iff' two_ne_zero]

/--
The first turn of a game begins with the robots and the blocks at the next positions drawn, and
a turn that is broadcast ends with the robots it destroys at the positions drawn last.
-/
theorem run_seeded (h : (machine β p).Run tr s) (hs : s.engine.gameplayStarted = true) :
    (∃ events, s.engine.turns[0]? = some ⟨0, firstEvents p s.engine.players.keys
      (randomAfter p (drawnBefore p (broadcasts (Machine.log tr)))) ++ events⟩) ∧
    (s.point = .broadcast → ∃ events n,
      drawn p (broadcasts (Machine.log tr)) s = n + s.engine.currentPlayersToDestroy.size ∧
      s.engine.turns[s.engine.currentTurn.toNat]? = some ⟨s.engine.currentTurn, events ++
        (s.engine.currentPlayersToDestroy.toList.zip ((randomAfter p n).positions p
          s.engine.currentPlayersToDestroy.size)).map movedEvent⟩) := by
  have hc := playersCount_pos h hs
  refine ⟨(run_drawn hc h).first hs, fun hp => ?_⟩
  cases h with
  | nil => cases hp
  | @snoc tr s₀ _ env out hr hstep =>
    obtain ⟨hp₀, hs₀, hsend⟩ := (step_stepped hstep).of_broadcast hp
    obtain ⟨e, point⟩ := s₀
    obtain ⟨e', point'⟩ := s
    obtain rfl : point = .bottom := hp₀
    obtain rfl : point' = .broadcast := hp
    have hg : Gameplay e := (run_wf hc hr).gameplay hs₀
    obtain ⟨-, -, turn, -, -, -, -, -, rfl⟩ := sendTurn_ok hsend
    obtain rfl := sendTurn_drawn hsend
    obtain ⟨info, hinfo⟩ : ∃ info, e.turns[e.currentTurn.toNat]? = some info :=
      ⟨_, List.getElem?_eq_getElem hg.currentTurn_lt⟩
    have hnum : info.turn = e.currentTurn := UInt16.toNat_inj.mp (hg.numbered _ _ hinfo)
    refine ⟨info.events, drawn p (broadcasts (Machine.log tr)) ⟨e, .bottom⟩, ?_, ?_⟩
    · rw [Machine.log_append, broadcasts_append]
      refine (drawn_respawned hg (run_tallied hc hr) map_fst_robotsDrawn).trans ?_
      rw [Std.ExtTreeSet.length_toList]
      rfl
    · have hrandom : e.random = _ := (run_drawn hc hr).random
      have hparams : e.gameParams = p := (run_wf hc hr).params
      simp [GameEngine.respawned, GameEngine.seeded, logEvents, hinfo, hnum, robotsDrawn, hrandom,
        hparams, Std.ExtTreeSet.length_toList]

end Runs

theorem run_random_fuses : ∃ tr s, (machine (StdSet Position) solo).Run tr s ∧
    drawn solo (broadcasts (Machine.log tr)) s = 2 ∧
    s.engine.random.state.toNat = 48271 ^ 4 % 2147483647 := by
  have hcheck : (machine (StdSet Position) solo).check fuses (fun tr s =>
      drawn solo (broadcasts (Machine.log tr)) s = 2) = true := by decide +kernel
  obtain ⟨tr, s, h, htest⟩ := Machine.run_of_check hcheck
  have hdrawn := of_decide_eq_true htest
  have hrandom := (run_random (by decide) h).1
  rw [hdrawn] at hrandom
  exact ⟨tr, s, h, hdrawn, hrandom⟩

theorem run_random_eq_iff_fuses : ∃ tr s tr' s', (machine (StdSet Position) solo).Run tr s ∧
    (machine (StdSet Position) solo).Run tr' s' ∧ s.engine.random ≠ s'.engine.random := by
  have hcheck : (machine (StdSet Position) solo).check fuses (fun tr s =>
      drawn solo (broadcasts (Machine.log tr)) s = 2) = true := by decide +kernel
  have hcheck' : (machine (StdSet Position) solo).check soloJoin (fun tr s =>
      drawn solo (broadcasts (Machine.log tr)) s = 1) = true := by decide +kernel
  obtain ⟨tr, s, h, htest⟩ := Machine.run_of_check hcheck
  obtain ⟨tr', s', h', htest'⟩ := Machine.run_of_check hcheck'
  refine ⟨tr, s, tr', s', h, h', fun heq => ?_⟩
  have hmod := (run_random_eq_iff (by decide) h h').mp heq
  rw [of_decide_eq_true htest, of_decide_eq_true htest'] at hmod
  exact absurd hmod (by decide)

theorem run_seeded_fuses : ∃ tr s events n, (machine (StdSet Position) solo).Run tr s ∧
    drawn solo (broadcasts (Machine.log tr)) s = n + 1 ∧
    s.engine.turns[s.engine.currentTurn.toNat]? = some ⟨s.engine.currentTurn,
      events ++ ([0].zip ((randomAfter solo n).positions solo 1)).map movedEvent⟩ := by
  have hcheck : (machine (StdSet Position) solo).check fuses (fun _ s =>
      s.point = .broadcast ∧ s.engine.gameplayStarted ∧
        s.engine.currentPlayersToDestroy.size = 1 ∧
        s.engine.currentPlayersToDestroy.toList = [0]) = true := by decide +kernel
  obtain ⟨tr, s, h, htest⟩ := Machine.run_of_check hcheck
  obtain ⟨hp, hs, hsize, hlist⟩ := of_decide_eq_true htest
  obtain ⟨events, n, hdrawn, hturn⟩ := (run_seeded h hs).2 hp
  rw [hsize] at hdrawn hturn
  rw [hlist] at hturn
  exact ⟨tr, s, events, n, h, hdrawn, hturn⟩

end Server

end Bomberrobots
