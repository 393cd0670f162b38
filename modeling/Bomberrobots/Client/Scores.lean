import Bomberrobots.Client.Follow

/-! # The scores a client shows

A client counts every explosion that destroys a robot, the server every turn in which the
robot is destroyed. They agree as long as no two bombs that explode together reach one robot.
-/

namespace Bomberrobots

namespace GameEngine

variable {β : Type}

/-- The scores after the events of a log, one hit for every explosion. -/
def logScores (scores : StdMap PlayerId Score) (events : List Event) : StdMap PlayerId Score :=
  events.foldl (fun scores event => hitScores scores event.robotsDestroyed) scores

variable {scores : StdMap PlayerId Score} {events events' : List Event}

theorem logScores_append :
    logScores scores (events ++ events') = logScores (logScores scores events) events' :=
  List.foldl_append

theorem logScores_of_forall (h : ∀ event ∈ events, event.robotsDestroyed = []) :
    logScores scores events = scores := by
  induction events with
  | nil => rfl
  | cons event events ih =>
    rw [logScores, List.foldl_cons, h event List.mem_cons_self, hitScores_nil]
    exact ih fun event' he => h event' (List.mem_cons_of_mem _ he)

theorem logScores_of_pairwise (h : (events.map Event.robotsDestroyed).Pairwise List.Disjoint) :
    logScores scores events = hitScores scores (events.flatMap Event.robotsDestroyed) := by
  induction events generalizing scores with
  | nil => exact hitScores_nil.symm
  | cons event events ih =>
    rw [List.map_cons, List.pairwise_cons] at h
    have hdis : event.robotsDestroyed.Disjoint (events.flatMap Event.robotsDestroyed) := by
      intro id hid hid'
      obtain ⟨event', he, hid'⟩ := List.mem_flatMap.mp hid'
      exact h.1 _ (List.mem_map_of_mem he) hid hid'
    rw [List.flatMap_cons, ← hitScores_append hdis]
    exact ih h.2

variable {e : GameEngine β}

variable [PositionSet β]

/-- Two bombs that run out in the next turn both reach a robot. -/
def DoublyHit (e : GameEngine β) : Prop :=
  ∃ (id : PlayerId) (pos : Position) (k k' : BombId) (bomb bomb' : Bomb),
    e.playersPositions[id]? = some pos ∧ k ≠ k' ∧
    e.bombs[k]? = some bomb ∧ bomb.timer = 1 ∧ e.Reaches bomb.position pos ∧
    e.bombs[k']? = some bomb' ∧ bomb'.timer = 1 ∧ e.Reaches bomb'.position pos

theorem pairwise_explodedEvent (h : ¬ DoublyHit e) :
    (((dueBombs e.bombs.toList).map e.explodedEvent).map Event.robotsDestroyed).Pairwise
      List.Disjoint := by
  rw [List.map_map, List.pairwise_map]
  have hkeys : (dueBombs e.bombs.toList).Pairwise fun entry entry' => entry.1 ≠ entry'.1 :=
    pairwise_dueBombs.imp UInt32.ne_of_lt
  refine hkeys.imp_of_mem fun {entry entry'} he he' hne => ?_
  intro id hid hid'
  obtain ⟨hbomb, htimer⟩ := mem_dueBombs.mp he
  obtain ⟨hbomb', htimer'⟩ := mem_dueBombs.mp he'
  obtain ⟨pos, hpos, hreach⟩ := mem_blastRobots_iff.mp hid
  obtain ⟨pos', hpos', hreach'⟩ := mem_blastRobots_iff.mp hid'
  obtain rfl := Option.some.inj (hpos.symm.trans hpos')
  exact h ⟨id, pos, _, _, _, _, hpos, hne, hbomb, htimer, hreach, hbomb', htimer', hreach'⟩

/-- Where no robot is hit twice, the log of an opened turn scores every robot that is destroyed. -/
theorem logScores_opened (h : ¬ DoublyHit e) (hd : e.currentPlayersToDestroy = ∅) :
    logScores scores ((dueBombs e.bombs.toList).map e.explodedEvent) =
      hitScores scores e.opened.currentPlayersToDestroy.toList := by
  rw [logScores_of_pairwise (pairwise_explodedEvent h)]
  apply hitScores_congr
  intro id
  rw [Std.ExtTreeSet.mem_toList, opened, Std.ExtTreeSet.mem_foldl_insert, hd]
  simp [dueRobots, List.flatMap_map, Event.robotsDestroyed, explodedEvent]

end GameEngine

open GameEngine

namespace GameInfo

variable {γ : Type} [PositionSet γ] {g : GameInfo γ}

theorem scores_seen {event : Event} :
    (g.seen event).scores = hitScores g.scores event.robotsDestroyed := by
  cases event with
  | bombExploded => rfl
  | _ => exact hitScores_nil.symm

theorem scores_foldl_seen {events : List Event} :
    (events.foldl seen g).scores = logScores g.scores events := by
  induction events generalizing g with
  | nil => rfl
  | cons event events ih =>
    rw [List.foldl_cons, ih, scores_seen]
    rfl

end GameInfo

namespace Server

variable {β : Type} {s s' : Server β}

def startScores (players : StdMap PlayerId Player) : StdMap PlayerId Score :=
  players.map fun _ _ => 0

structure Scored (s : Server β) : Prop where
  lobby : s.engine.gameplayStarted = false → s.engine.scores = startScores s.engine.players
  game : s.engine.gameplayStarted = true →
    logScores (startScores s.engine.players) (allEvents s.engine.turns) =
      hitScores s.engine.scores s.gone.toList

theorem Scored.of_started (hs : s.engine.gameplayStarted = true)
    (h : logScores (startScores s.engine.players) (allEvents s.engine.turns) =
      hitScores s.engine.scores s.gone.toList) : Scored s :=
  ⟨fun hs' => Bool.noConfusion (hs.symm.trans hs'), fun _ => h⟩

theorem startScores_joined {e : GameEngine β} {i : Slot} {player : Player}
    (h : e.scores = startScores e.players) :
    (e.joined i player).scores = startScores (e.joined i player).players := by
  ext id : 1
  simp only [GameEngine.joined, h, startScores, Std.ExtTreeMap.getElem?_map,
    Std.ExtTreeMap.getElem?_insertIfNew, Std.ExtTreeMap.mem_map]
  split
  · rfl
  · rfl

variable [PositionSet β] {p : ServerParameters} {env : Env} {new : List ServerMessage}

/-- The step opens a turn in which a robot is hit twice. -/
def Crossfire (s : Server β) : Prop :=
  s.point = .top ∧ s.engine.gameplayStarted = true ∧ DoublyHit s.engine

theorem Played.scored (h : Played env s s' new) (hC : ¬ Crossfire s) (hI : Scored s) :
    Scored s' := by
  cases h with
  | @still e point point' handler hp =>
    refine ⟨hI.lobby, fun hs => ?_⟩
    rw [gone_withHandler (hp hs)]
    exact hI.game hs
  | joined hl hlt hn =>
    refine ⟨fun _ => startScores_joined (hI.lobby hl.started), fun hs => ?_⟩
    exact Bool.noConfusion (hl.started.symm.trans hs)
  | @started e e' i player sent hl hn hg =>
    obtain ⟨robots, blocks, hb⟩ := hl.begun hg
    refine .of_started (hl.startGameplay hn hg).1.started ?_
    rw [gone_of_unsent sent_nextClient, hb.destroy, hb.players, hb.scores,
      logScores_of_forall hb.robotsDestroyed, ← startScores_joined (hI.lobby hl.started)]
    exact hitScores_nil.symm
  | @acted e e' i msg hg hm hr hh =>
    obtain ⟨events, hlog⟩ := hh.logged hg
    refine .of_started (hlog.started.trans hg.started) ?_
    have hold := hI.game hg.started
    rw [gone_of_unsent Point.sent_client] at hold
    rw [gone_of_unsent sent_nextClient, hlog.players, hlog.scores, hlog.destroy, hlog.turns,
      allEvents_logEvents hg.length.symm, logScores_append,
      logScores_of_forall hlog.robotsDestroyed]
    exact hold
  | @opened e handler hg hlt he hd =>
    refine .of_started hg.started ?_
    have hold : logScores (startScores e.players) (allEvents e.turns) = e.scores := by
      have hold := hI.game hg.started
      rw [gone_of_sent Point.sent_top] at hold
      exact hold.trans hitScores_nil
    have hsafe : ¬ DoublyHit e := fun hd => hC ⟨rfl, hg.started, hd⟩
    rw [gone_of_unsent Point.sent_poll, allEvents_opened, logScores_append]
    exact (congrArg (logScores · _) hold).trans (logScores_opened hsafe hd)
  | @sent e robots random turn hg hr hc hturn =>
    refine .of_started hg.started ?_
    have hold := hI.game hg.started
    rw [gone_of_unsent Point.sent_bottom] at hold
    rw [gone_of_sent Point.sent_broadcast]
    rw [hg.allEvents_respawned, logScores_append, logScores_of_forall robotsDestroyed_movedEvent]
    simp only [GameEngine.respawned, seeded]
    rw [hold, hr]
    exact hitScores_nil.symm
  | closed hg hlt => exact ⟨hI.lobby, hI.game⟩
  | ended hg hlast => exact ⟨fun _ => rfl, fun hs => Bool.noConfusion hs⟩

variable {γ : Type} [PositionSet γ] {tr : List (Machine.Step (Server β) Env Sending)} {c : Client γ}
  {before after : List ServerMessage} {players : StdMap PlayerId Player}

theorem Played.startScores (h : Played env s s' new)
    (hI : s.engine.gameplayStarted = false → s.engine.scores = startScores s.engine.players)
    (hs : s'.engine.gameplayStarted = false) :
    s'.engine.scores = Server.startScores s'.engine.players := by
  rcases h.to_lobby hs with ⟨handler, hl, he⟩ | ⟨i, player, hl, -, -, he⟩ | he
  · rw [he]
    exact hI hl
  · rw [he]
    exact startScores_joined (hI hl.started)
  · rw [he]
    rfl

theorem run_scored (hc : 0 < p.playersCount) (h : (machine β p).Run tr s)
    (hC : SinceStarted (fun s _ => ¬ Crossfire s) tr) : Scored s := by
  refine run_played_since hc h hC ?_ ?_
  · intro tr s h hlobby
    refine ⟨?_, fun hs => Bool.noConfusion (hlobby.symm.trans hs)⟩
    exact run_played (I := fun _ s => s.engine.gameplayStarted = false →
      s.engine.scores = startScores s.engine.players) hc h (fun _ => rfl)
      fun _ _ _ _ _ _ hI hs => hs.startScores hI
  · intro env s s' new hI hC hs
    exact hs.scored (fun hcross => hC hcross.2.1 hcross) hI

/--
In a game in which no two bombs that explode together reach one robot, a client that knew
the players in the lobby has the scores of the server after every turn, and those that are
sent when the game ends.
-/
theorem run_scores (h : (machine β p).Run tr s) (hp : s.point = .broadcast)
    (hC : SinceStarted (fun s _ => ¬ Crossfire s) tr)
    (hb : broadcasts (Machine.log tr) = before ++ .gameStarted players :: after)
    (hlast : ∀ players', .gameStarted players' ∉ after) (hfull : c.lobbyInfo.players = players) :
    ∃ c', c.handleServerMessages (.gameStarted players :: after) = .ok c' ∧
      c'.gameInfo.scores = s.engine.scores ∧
      ∀ env s' out scores, step s env = .ok (s', out) → .gameEnded scores ∈ broadcasts out →
        c'.gameInfo.scores = scores := by
  have hs := started_of_broadcast h hp
  have hc := playersCount_pos h hs
  obtain ⟨hplayers, c', turn, hread, hgame⟩ := run_follow h hp hb hlast hfull
  have hscored := run_scored hc h hC
  have hstart : c.readGameStarted.scores = startScores s.engine.players := by
    rw [← hplayers, ← hfull]
    exact GameInfo.scores_new
  have hgone : s.gone = ∅ := gone_of_sent (by rw [hp, Point.sent_broadcast])
  have hsame : c'.gameInfo.scores = s.engine.scores := by
    rw [hgame]
    refine GameInfo.scores_foldl_seen.trans ?_
    rw [hstart, hscored.game hs, hgone]
    exact hitScores_nil
  refine ⟨c', hread, hsame, ?_⟩
  intro env s' out scores hs' hm
  exact hsame.trans (ended_of_gameEnded hc h hs' hm).2.2.1

theorem not_crossfire (h : ∀ id ∈ s.engine.bombs.toList.map Prod.fst, id = 0) :
    ¬ Crossfire s := by
  rintro ⟨-, -, id, pos, k, k', bomb, bomb', -, hne, hk, -, -, hk', -⟩
  have hzero : ∀ {k : BombId} {bomb : Bomb}, s.engine.bombs[k]? = some bomb → k = 0 := by
    intro k bomb hk
    exact h k (List.mem_map.mpr
      ⟨(k, bomb), Std.ExtTreeMap.mem_toList_iff_getElem?_eq_some.mpr hk, rfl⟩)
  exact hne ((hzero hk).trans (hzero hk').symm)

theorem run_scores_blown : ∃ tr s c', (machine (StdSet Position) solo).Run tr s ∧
    c'.gameInfo.scores.toList = [(0, 1)] ∧
    watcher.handleServerMessages (.gameStarted s.engine.players :: s.engine.turns.map .turn) =
      .ok c' ∧ c'.gameInfo.scores = s.engine.scores ∧
    ∀ env s' out scores, step s env = .ok (s', out) → .gameEnded scores ∈ broadcasts out →
      c'.gameInfo.scores = scores := by
  have hcheck : (machine (StdSet Position) solo).check blown (fun tr s =>
      decide (SoloGame tr s) && (s.engine.scores.toList = [(0, 1)] &&
        tr.all fun t => t.pre.engine.bombs.toList.all fun entry => entry.1 = 0)) = true := by
    decide +kernel
  obtain ⟨tr, s, h, htest⟩ := Machine.run_of_check hcheck
  simp only [Bool.and_eq_true, decide_eq_true_eq, List.all_eq_true] at htest
  obtain ⟨⟨hp, hfull, hb⟩, hscore, hone⟩ := htest
  have hC : ∀ t ∈ tr, ¬ Crossfire t.pre := by
    intro t ht
    apply not_crossfire
    intro id hid
    obtain ⟨entry, hentry, rfl⟩ := List.mem_map.mp hid
    exact hone t ht entry hentry
  obtain ⟨c', hread, hsame, hended⟩ := run_scores h hp (sinceStarted_of_forall hC) hb (by simp) hfull
  exact ⟨tr, s, c', h, by rw [hsame, hscore], hread, hsame, hended⟩

def duel : ServerParameters :=
  { solo with bombTimer := 1, playersCount := 2, gameLength := 2, sizeX := 1, sizeY := 1 }

/-- Both players place a bomb in turn 1, and both bombs explode in turn 2. -/
def clash : List Env :=
  pass false (.ready [0] ⟨some 5, []⟩ none) ++ pass false (.ready [0] ⟨some 6, []⟩ none) ++
    pass true (.ready [1, 2] ⟨none, []⟩ (some [0, 0])) ++
    pass true (.ready [1, 2] ⟨none, []⟩ (some [1])) ++
    (pass true (.ready [] ⟨none, []⟩ none)).dropLast

def spectator : Client (StdSet Position) :=
  { Client.init with
    lobbyInfo := (LobbyInfo.default.addPlayer 0 nobody).addPlayer 1 nobody }

/-- Clients lose track of the scores. -/
theorem exists_scores_ne : ¬ ∀ (p : ServerParameters)
    (tr : List (Machine.Step (Server (StdSet Position)) Env Sending)) (s : Server (StdSet Position))
    (c : Client (StdSet Position)) (before after : List ServerMessage)
    (players : StdMap PlayerId Player), (machine (StdSet Position) p).Run tr s →
    s.point = .broadcast → broadcasts (Machine.log tr) = before ++ .gameStarted players :: after →
    (∀ players', .gameStarted players' ∉ after) → c.lobbyInfo.players = players →
    ∃ c', c.handleServerMessages (.gameStarted players :: after) = .ok c' ∧
      c'.gameInfo.scores = s.engine.scores := by
  intro hall
  have hcheck : (machine (StdSet Position) duel).check clash (fun tr s =>
      decide (s.point = .broadcast ∧ spectator.lobbyInfo.players = s.engine.players ∧
        broadcasts (Machine.log tr) = [.acceptedPlayer 0 nobody, .acceptedPlayer 1 nobody] ++
          .gameStarted s.engine.players :: s.engine.turns.map .turn) &&
        match spectator.handleServerMessages
          (.gameStarted s.engine.players :: s.engine.turns.map .turn) with
        | .ok c' => decide (c'.gameInfo.scores ≠ s.engine.scores)
        | .error _ => false) = true := by
    decide +kernel
  obtain ⟨tr, s, h, htest⟩ := Machine.run_of_check hcheck
  rw [Bool.and_eq_true, decide_eq_true_eq] at htest
  obtain ⟨⟨hp, hfull, hb⟩, hne⟩ := htest
  obtain ⟨c', hread, hsame⟩ := hall duel tr s spectator _ _ _ h hp hb (by simp) hfull
  rw [hread] at hne
  exact absurd hsame (of_decide_eq_true hne)

end Server

end Bomberrobots
