import Bomberrobots.Server.Lifecycle
import Bomberrobots.Server.Replay
import Bomberrobots.Server.TurnShape

/-! # Scores and the turn log

The score of a player is the number of turns in which an explosion has destroyed its robot.
In each of these turns the robot is placed again once.
-/

namespace Bomberrobots

namespace GameEngine

variable {turns : List TurnInfo} {k : ℕ} {events : List Event} {info : TurnInfo} {id : PlayerId}

def hit (id : PlayerId) (info : TurnInfo) : Bool :=
  info.events.any fun event => event.robotsDestroyed.contains id

def hitTurns (turns : List TurnInfo) (id : PlayerId) : ℕ := turns.countP (hit id)

theorem hit_iff : hit id info = true ↔ ∃ event ∈ info.events, id ∈ event.robotsDestroyed := by
  simp [hit]

theorem hitTurns_concat :
    hitTurns (turns ++ [info]) id = hitTurns turns id + if hit id info then 1 else 0 := by
  simp [hitTurns, List.countP_append, List.countP_cons]

theorem hitTurns_logEvents (h : ∀ event ∈ events, event.robotsDestroyed = []) :
    hitTurns (logEvents turns k events) id = hitTurns turns id := by
  have hnone : (events.any fun event => event.robotsDestroyed.contains id) = false := by
    rw [List.any_eq_false]
    intro event he
    simp [h event he]
  have hsame : (logEvents turns k events).map (hit id) = turns.map (hit id) := by
    apply List.ext_getElem?
    intro j
    rw [List.getElem?_map, List.getElem?_map, logEvents, List.getElem?_modify]
    cases turns[j]? with
    | none => rfl
    | some info =>
      by_cases hj : k = j
      · simp only [hj, if_true, Option.map_eq_map, Option.map_some, hit, List.any_append, hnone,
          Bool.or_false]
      · simp [hj]
  have hcount : ∀ turns : List TurnInfo, hitTurns turns id = (turns.map (hit id)).count true := by
    intro turns
    rw [List.count, List.countP_map, hitTurns]
    congr 1
    funext info
    simp
  rw [hcount, hcount, hsame]

theorem hitTurns_eq_zero (h : ∀ event ∈ allEvents turns, event.robotsDestroyed = []) :
    hitTurns turns id = 0 := by
  rw [hitTurns, List.countP_eq_zero]
  intro info hi hh
  obtain ⟨event, he, hid⟩ := hit_iff.mp hh
  rw [h event (List.mem_flatMap.mpr ⟨info, hi, he⟩)] at hid
  cases hid

/-- The robot is placed again once at the end of the turn, and is not moved before. -/
def RespawnedOnce (info : TurnInfo) (id : PlayerId) : Prop :=
  ∃ (front : List Event) (robots : List (PlayerId × Position)),
    info.events = front ++ robots.map movedEvent ∧
    front.countP (Event.movesPlayer id) = 0 ∧ (robots.map Prod.fst).count id = 1

theorem IsActionOf.robotsDestroyed {event : Event} (h : event.IsActionOf id) :
    event.robotsDestroyed = [] := by
  cases event with
  | bombExploded => cases h
  | _ => rfl

theorem Shaped.hit_iff {explosions : List Event} {acts : List (PlayerId × Event)}
    {robots : List (PlayerId × Position)} (h : Shaped info.events explosions acts robots) :
    hit id info = true ↔ id ∈ explosions.flatMap Event.robotsDestroyed := by
  rw [GameEngine.hit_iff, h.split, List.mem_flatMap]
  constructor
  · rintro ⟨event, he, hid⟩
    rcases List.mem_append.mp he with he | he
    · rcases List.mem_append.mp he with he | he
      · exact ⟨event, he, hid⟩
      · obtain ⟨act, hact, rfl⟩ := List.mem_map.mp he
        rw [IsActionOf.robotsDestroyed (h.actions act hact)] at hid
        cases hid
    · rw [robotsDestroyed_movedEvent event he] at hid
      cases hid
  · rintro ⟨event, he, hid⟩
    exact ⟨event, List.mem_append_left _ (List.mem_append_left _ he), hid⟩

theorem Shaped.respawnedOnce {explosions : List Event} {acts : List (PlayerId × Event)}
    {robots : List (PlayerId × Position)} (h : Shaped info.events explosions acts robots)
    (hid : hit id info = true) : RespawnedOnce info id := by
  rw [h.hit_iff] at hid
  exact ⟨_, robots, h.split, h.countP_front hid, h.count_robots hid⟩

section Opening

variable {β : Type} {e : GameEngine β} [PositionSet β]

theorem hitTurns_opened (hd : e.currentPlayersToDestroy = ∅) : hitTurns e.opened.turns id =
    hitTurns e.turns id + if id ∈ e.opened.currentPlayersToDestroy then 1 else 0 := by
  have hhit : hit id ⟨e.currentTurn + 1, (dueBombs e.bombs.toList).map e.explodedEvent⟩ = true ↔
      id ∈ e.opened.currentPlayersToDestroy := by
    rw [GameEngine.hit_iff, GameEngine.opened, Std.ExtTreeSet.mem_foldl_insert, hd]
    simp [dueRobots, explodedEvent, Event.robotsDestroyed]
  simp only [← hhit]
  exact hitTurns_concat

end Opening

end GameEngine

namespace Server

open GameEngine

variable {β : Type} {s s' : Server β}

/-- The scores count the turns of the log, but for the robots that are still to be scored. -/
structure Tallied (s : Server β) : Prop where
  lobby : s.engine.gameplayStarted = false → ∀ (id : PlayerId) (score : Score),
    s.engine.scores[id]? = some score → score = 0
  game : s.engine.gameplayStarted = true → ∀ (id : PlayerId) (score : Score),
    s.engine.scores[id]? = some score →
      hitTurns s.engine.turns id = score.toNat + if id ∈ s.gone then 1 else 0
  /-- Nobody is destroyed in the first turn. -/
  first : s.engine.gameplayStarted = true → ∀ t event, InTurn s.engine.turns t event →
    event.robotsDestroyed ≠ [] → 0 < t

theorem Tallied.of_started (hs : s.engine.gameplayStarted = true)
    (h : ∀ (id : PlayerId) (score : Score), s.engine.scores[id]? = some score →
      hitTurns s.engine.turns id = score.toNat + if id ∈ s.gone then 1 else 0)
    (hf : ∀ t event, InTurn s.engine.turns t event → event.robotsDestroyed ≠ [] → 0 < t) :
    Tallied s :=
  ⟨fun hs' => Bool.noConfusion (hs.symm.trans hs'), fun _ => h, fun _ => hf⟩

theorem Tallied.first_logged {e : GameEngine β} {point : Point} {events : List Event} {t : ℕ}
    {event : Event} (h : Tallied ⟨e, point⟩) (hg : Gameplay e)
    (hn : ∀ event ∈ events, event.robotsDestroyed = [])
    (he : InTurn (logEvents e.turns e.currentTurn.toNat events) t event)
    (hd : event.robotsDestroyed ≠ []) : 0 < t := by
  rcases (inTurn_logEvents hg.currentTurn_lt).mp he with he | ⟨-, he⟩
  · exact h.first hg.started t event he hd
  · exact absurd (hn event he) hd

theorem scores_joined {e : GameEngine β} {i : Slot} {player : Player}
    (h : ∀ (id : PlayerId) (score : Score), e.scores[id]? = some score → score = 0) :
    ∀ (id : PlayerId) (score : Score), (e.joined i player).scores[id]? = some score →
      score = 0 := by
  intro id score hscore
  simp only [GameEngine.joined, Std.ExtTreeMap.getElem?_insertIfNew] at hscore
  split at hscore
  · exact (Option.some.inj hscore).symm
  · exact h id score hscore

theorem Tallied.game_respawned {e : GameEngine β} {robots : List (PlayerId × Position)}
    {random : Random} {id : PlayerId} {score : Score} (h : Tallied ⟨e, .bottom⟩) (hg : Gameplay e)
    (hr : robots.map Prod.fst = e.currentPlayersToDestroy.toList)
    (hscore : (e.respawned robots random).scores[id]? = some score) :
    hitTurns (e.respawned robots random).turns id = score.toNat := by
  simp only [GameEngine.respawned, hitScores, Std.ExtTreeMap.getElem?_map,
    Option.map_eq_some_iff] at hscore
  obtain ⟨old, hold, rfl⟩ := hscore
  have hcount := h.game hg.started id old hold
  rw [gone_of_unsent Point.sent_bottom] at hcount
  have hlog : hitTurns (e.respawned robots random).turns id = hitTurns e.turns id :=
    hitTurns_logEvents robotsDestroyed_movedEvent
  have hmem : id ∈ robots.map Prod.fst ↔ id ∈ e.currentPlayersToDestroy := by
    rw [hr, Std.ExtTreeSet.mem_toList]
  rw [hlog, hcount]
  simp only [hmem]
  by_cases hid : id ∈ e.currentPlayersToDestroy
  · -- the score stays below the number of turns, which fits in its type
    have hle : hitTurns e.turns id ≤ e.turns.length := List.countP_le_length
    have hmax := e.currentTurn.toNat_lt
    simp only [if_pos hid] at hcount ⊢
    rw [hg.length] at hle
    rw [UInt32.toNat_add, UInt32.toNat_one, Nat.mod_eq_of_lt]
    omega
  · simp [hid]

variable [PositionSet β] {p : ServerParameters} {env : Env} {msgs : List ServerMessage}

theorem Played.tallied (h : Played env s s' msgs) (hI : Tallied s) : Tallied s' := by
  cases h with
  | @still e point point' handler hp =>
    refine ⟨hI.lobby, fun hs => ?_, hI.first⟩
    rw [gone_withHandler (hp hs)]
    exact hI.game hs
  | joined hl hlt hn =>
    refine ⟨fun _ => scores_joined (hI.lobby hl.started), fun hs => ?_, fun hs => ?_⟩
    · exact Bool.noConfusion (hl.started.symm.trans hs)
    · exact Bool.noConfusion (hl.started.symm.trans hs)
  | @started e e' i player sent hl hn hg =>
    obtain ⟨robots, blocks, hb⟩ := hl.begun hg
    refine .of_started (hl.startGameplay hn hg).1.started ?_ ?_
    · intro id score hscore
      rw [hb.scores] at hscore
      obtain rfl := scores_joined (hI.lobby hl.started) id score hscore
      rw [hitTurns_eq_zero hb.robotsDestroyed, gone_of_unsent sent_nextClient, hb.destroy]
      simp
    · intro t event he hd
      exact absurd (hb.robotsDestroyed event he.mem) hd
  | @acted e e' i msg hg hm hr hh =>
    obtain ⟨events, hlog⟩ := hh.logged hg
    refine .of_started (hlog.started.trans hg.started) ?_ ?_
    · intro id score hscore
      rw [hlog.scores] at hscore
      have hold := hI.game hg.started id score hscore
      rw [gone_of_unsent Point.sent_client] at hold
      rw [gone_of_unsent sent_nextClient, hlog.turns, hitTurns_logEvents hlog.robotsDestroyed,
        hlog.destroy, hold]
    · intro t event he hd
      rw [hlog.turns] at he
      exact hI.first_logged hg hlog.robotsDestroyed he hd
  | @opened e handler hg hlt he hd =>
    refine .of_started hg.started ?_ ?_
    · intro id score hscore
      have hold := hI.game hg.started id score hscore
      rw [gone_of_sent Point.sent_top, if_neg (by simp), Nat.add_zero] at hold
      rw [gone_of_unsent Point.sent_poll, ← hold]
      exact hitTurns_opened (e := e.withHandler handler) hd
    · intro t event hevent hdestroyed
      rcases inTurn_concat.mp hevent with hevent | ⟨rfl, -⟩
      · exact hI.first hg.started t event hevent hdestroyed
      · change 0 < e.turns.length
        rw [hg.length]
        exact Nat.succ_pos _
  | @sent e robots random turn hg hr hc hturn =>
    refine .of_started hg.started ?_ ?_
    · intro id score hscore
      rw [gone_of_sent Point.sent_broadcast, if_neg Std.ExtTreeSet.not_mem_empty, Nat.add_zero]
      exact hI.game_respawned hg hr hscore
    · intro t event he hd
      exact hI.first_logged hg robotsDestroyed_movedEvent he hd
  | closed hg hlt => exact ⟨hI.lobby, hI.game, hI.first⟩
  | ended hg hlast =>
    refine ⟨fun _ id score hscore => ?_, fun hs => Bool.noConfusion hs, fun hs =>
      Bool.noConfusion hs⟩
    simp [endGameplay] at hscore

variable {tr : List (Machine.Step (Server β) Env Sending)}

theorem run_tallied (hc : 0 < p.playersCount) (h : (machine β p).Run tr s) : Tallied s := by
  refine run_played (I := fun _ s => Tallied s) hc h ?_ fun _ _ _ _ _ _ hI hs => hs.tallied hI
  refine ⟨fun _ id score hscore => ?_, fun hs => Bool.noConfusion hs, fun hs =>
    Bool.noConfusion hs⟩
  simp [Server.init, GameEngine.new] at hscore

theorem Tallied.respawnedOnce {info : TurnInfo} {id : PlayerId} (hI : Tallied s)
    (h : (machine β p).Run tr s) (hi : Closed s info) (hh : hit id info = true) :
    RespawnedOnce info id := by
  obtain ⟨event, he, hid⟩ := hit_iff.mp hh
  have hk : 0 < info.turn.toNat := by
    refine hI.first hi.1 _ event ⟨info, hi.2.2, he⟩ ?_
    rintro hn
    rw [hn] at hid
    cases hid
  obtain ⟨⟨tr', tr'', steps, explosions, robots, -, -, hshape⟩, -⟩ :=
    run_turn_shape h hi (UInt16.lt_iff_toNat_lt.mpr hk)
  exact hshape.respawnedOnce hh

/--
Right after the broadcast of a turn, the score of every player is the number of turns so far
in which an explosion has destroyed its robot, which was then placed again once. The map
that ends a game holds these numbers.
-/
theorem run_hits (h : (machine β p).Run tr s) (hp : s.point = .broadcast) :
    (∀ id ∈ s.engine.players, ∃ score, s.engine.scores[id]? = some score ∧
      score.toNat = hitTurns (s.engine.turns.take (s.engine.currentTurn.toNat + 1)) id) ∧
    (∀ (t : ℕ) info id, s.engine.turns[t]? = some info → hit id info = true →
      RespawnedOnce info id) ∧
    ∀ env s' out scores, step s env = .ok (s', out) → .gameEnded scores ∈ broadcasts out →
      ∀ id, (id ∈ scores ↔ id ∈ s.engine.players) ∧
        ∀ score, scores[id]? = some score → score.toNat = hitTurns s.engine.turns id := by
  have hs := started_of_broadcast h hp
  have hc := playersCount_pos h hs
  have hg := (run_wf hc h).gameplay hs
  have hI := run_tallied hc h
  have hkeys : ∀ id, id ∈ s.engine.scores ↔ id ∈ s.engine.players := fun id =>
    (hg.registered.scores id).trans (hg.registered.players id).symm
  have hcount : ∀ (id : PlayerId) (score : Score), s.engine.scores[id]? = some score →
      score.toNat = hitTurns s.engine.turns id := by
    intro id score hscore
    rw [hI.game hs id score hscore, gone_of_sent (by rw [hp, Point.sent_broadcast]),
      if_neg Std.ExtTreeSet.not_mem_empty, Nat.add_zero]
  refine ⟨?_, ?_, ?_⟩
  · intro id hid
    obtain ⟨score, hscore⟩ := Std.ExtTreeMap.mem_iff_exists_getElem?.mp ((hkeys id).mpr hid)
    rw [List.take_of_length_le hg.length.le]
    exact ⟨score, hscore, hcount id score hscore⟩
  · intro t info id hi hh
    have hnum := hg.numbered t info hi
    have hlt : t < s.engine.turns.length := (List.getElem?_eq_some_iff.mp hi).1
    rw [hg.length] at hlt
    refine hI.respawnedOnce h ⟨hs, ?_, hnum ▸ hi⟩ hh
    rw [hnum, turnsSent, hp]
    exact hlt
  · intro env s' out scores hstep hm id
    obtain ⟨-, -, rfl, -⟩ := ended_of_gameEnded hc h hstep hm
    exact ⟨hkeys id, hcount id⟩

theorem run_hits_fuses : ∃ tr s, (machine (StdSet Position) solo).Run tr s ∧
    s.engine.scores.toList = [(0, 1)] ∧
    (∀ id ∈ s.engine.players, ∃ score, s.engine.scores[id]? = some score ∧
      score.toNat = hitTurns (s.engine.turns.take (s.engine.currentTurn.toNat + 1)) id) ∧
    (∀ (t : ℕ) info id, s.engine.turns[t]? = some info → hit id info = true →
      RespawnedOnce info id) ∧
    ∀ env s' out scores, step s env = .ok (s', out) → .gameEnded scores ∈ broadcasts out →
      ∀ id, (id ∈ scores ↔ id ∈ s.engine.players) ∧
        ∀ score, scores[id]? = some score → score.toNat = hitTurns s.engine.turns id := by
  have hcheck : (machine (StdSet Position) solo).check fuses (fun _ s =>
      s.point = .broadcast ∧ s.engine.scores.toList = [(0, 1)]) = true := by decide +kernel
  obtain ⟨tr, s, h, htest⟩ := Machine.run_of_check hcheck
  obtain ⟨hp, hscores⟩ := of_decide_eq_true htest
  exact ⟨tr, s, h, hscores, run_hits h hp⟩

end Server

end Bomberrobots
