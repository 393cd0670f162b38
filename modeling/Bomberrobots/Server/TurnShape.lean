import Bomberrobots.Server.Protocol

/-! # The shape of a turn

After the explosions, a turn holds at most one action of each player whose robot is still
there, and at its end the robots that are placed again. The actions are attributed to the
players through the steps that log them.
-/

namespace Bomberrobots

def Event.movesPlayer (id : PlayerId) : Event → Bool
  | .playerMoved id' _ => id' = id
  | _ => false

namespace GameEngine

variable {β : Type} {e e' : GameEngine β}

/-- The events of a turn in their order, with the actions of the players. -/
structure Shaped (events explosions : List Event) (acts : List (PlayerId × Event))
    (robots : List (PlayerId × Position)) : Prop where
  split : events = explosions ++ acts.map Prod.snd ++ robots.map movedEvent
  exploded : ∀ event ∈ explosions, event.explodedBomb.isSome
  increasing : (explosions.filterMap Event.explodedBomb).Pairwise (· < ·)
  actions : ∀ act ∈ acts, act.2.IsActionOf act.1
  once : (acts.map Prod.fst).Nodup
  spared : ∀ act ∈ acts, act.1 ∉ explosions.flatMap Event.robotsDestroyed
  ordered : (robots.map Prod.fst).Pairwise (· < ·)
  respawned : ∀ id, id ∈ robots.map Prod.fst ↔ id ∈ explosions.flatMap Event.robotsDestroyed

namespace Shaped

variable {events explosions : List Event} {acts : List (PlayerId × Event)}
  {robots : List (PlayerId × Position)} {id : PlayerId}

theorem countP_explosions (h : Shaped events explosions acts robots) :
    explosions.countP (Event.movesPlayer id) = 0 := by
  rw [List.countP_eq_zero]
  intro event he hm
  have hx := h.exploded event he
  cases event with
  | playerMoved => cases hx
  | _ => cases hm

theorem countP_acts (h : Shaped events explosions acts robots) :
    (acts.map Prod.snd).countP (Event.movesPlayer id) ≤ (acts.map Prod.fst).count id := by
  have hact := h.actions
  clear h
  induction acts with
  | nil => rfl
  | cons act acts ih =>
    have ih := ih fun act' ha => hact act' (List.mem_cons_of_mem _ ha)
    have hfirst := hact act List.mem_cons_self
    simp only [List.map_cons, List.countP_cons, List.count_cons]
    have hone : (if act.2.movesPlayer id then 1 else 0) ≤ if act.1 == id then 1 else 0 := by
      obtain ⟨id', event⟩ := act
      cases event with
      | playerMoved id'' pos =>
        obtain rfl : id'' = id' := hfirst
        simp [Event.movesPlayer]
      | _ => exact Nat.zero_le _
    exact Nat.add_le_add ih hone

theorem countP_robots : (robots.map movedEvent).countP (Event.movesPlayer id) =
    (robots.map Prod.fst).count id := by
  rw [List.countP_map, List.count, List.countP_map]
  rfl

theorem countP_front (h : Shaped events explosions acts robots)
    (hid : id ∈ explosions.flatMap Event.robotsDestroyed) :
    (explosions ++ acts.map Prod.snd).countP (Event.movesPlayer id) = 0 := by
  have hnone : (acts.map Prod.fst).count id = 0 := by
    rw [List.count_eq_zero]
    intro hm
    obtain ⟨act, hact, rfl⟩ := List.mem_map.mp hm
    exact h.spared act hact hid
  have hacts : (acts.map Prod.snd).countP (Event.movesPlayer id) ≤ (acts.map Prod.fst).count id :=
    h.countP_acts
  rw [List.countP_append, h.countP_explosions]
  omega

theorem count_robots (h : Shaped events explosions acts robots)
    (hid : id ∈ explosions.flatMap Event.robotsDestroyed) : (robots.map Prod.fst).count id = 1 := by
  have hnd : (robots.map Prod.fst).Nodup := h.ordered.imp UInt8.ne_of_lt
  exact List.count_eq_one_of_mem hnd ((h.respawned id).mpr hid)

theorem countP_le_one (h : Shaped events explosions acts robots) :
    events.countP (Event.movesPlayer id) ≤ 1 := by
  rw [h.split, List.countP_append, countP_robots]
  by_cases hid : id ∈ explosions.flatMap Event.robotsDestroyed
  · rw [h.countP_front hid, h.count_robots hid]
  · have hnone : (robots.map Prod.fst).count id = 0 :=
      List.count_eq_zero.mpr fun hm => hid ((h.respawned id).mp hm)
    have hacts : (acts.map Prod.snd).countP (Event.movesPlayer id) ≤ (acts.map Prod.fst).count id :=
      h.countP_acts
    have hone := List.nodup_iff_count_le_one.mp h.once id
    rw [List.countP_append, h.countP_explosions, hnone]
    omega

end Shaped

end GameEngine

namespace Server

open GameEngine

variable {β : Type}

def newEvents (t : Machine.Step (Server β) Env Sending) : List Event :=
  (allEvents t.post.engine.turns).drop (allEvents t.pre.engine.turns).length

def actions (t : Machine.Step (Server β) Env Sending) : List (PlayerId × Event) :=
  match t.pre.handledMessage t.input with
  | none => []
  | some (i, _) =>
    match t.pre.engine.playerIds[i]? with
    | none => []
    | some id => (newEvents t).map fun event => (id, event)

/-- The current turn before its end, with the actions of the players that have been served. -/
structure Underway (s : Server β) (explosions : List Event) (acts : List (PlayerId × Event)) :
    Prop where
  turn : s.engine.turns[s.engine.currentTurn.toNat]? =
    some ⟨s.engine.currentTurn, explosions ++ acts.map Prod.snd⟩
  exploded : ∀ event ∈ explosions, event.explodedBomb.isSome
  increasing : (explosions.filterMap Event.explodedBomb).Pairwise (· < ·)
  destroyed : ∀ id, id ∈ s.engine.currentPlayersToDestroy ↔
    id ∈ explosions.flatMap Event.robotsDestroyed
  actions : ∀ act ∈ acts, act.2.IsActionOf act.1
  once : (acts.map Prod.fst).Nodup
  spared : ∀ act ∈ acts, act.1 ∉ explosions.flatMap Event.robotsDestroyed
  served : ∀ act ∈ acts, ∃ j : Slot, j.val ≤ s.point.served ∧
    s.engine.playerIds[j]? = some act.1

variable {s s' : Server β} {explosions : List Event} {acts : List (PlayerId × Event)} {env : Env}
  {out : List Sending}

theorem Underway.still {e : GameEngine β} {handler : ServerTcpHandler} {point point' : Point}
    (h : Underway ⟨e, point⟩ explosions acts) (hp : point.served ≤ point'.served) :
    Underway ⟨e.withHandler handler, point'⟩ explosions acts where
  turn := h.turn
  exploded := h.exploded
  increasing := h.increasing
  destroyed := h.destroyed
  actions := h.actions
  once := h.once
  spared := h.spared
  served act ha := by
    obtain ⟨j, hj, hid⟩ := h.served act ha
    exact ⟨j, hj.trans hp, hid⟩

theorem Underway.acted {e e' : GameEngine β} {i : Slot} {id : PlayerId} {event : Event}
    (h : Underway ⟨e, .client i⟩ explosions acts) (hg : Gameplay e) (hi : i ≠ 0)
    (ha : e.actingPlayer i = some id) (hact : event.IsActionOf id) (hl : Logged e e' [event]) :
    Underway ⟨e', nextClient i⟩ explosions (acts ++ [(id, event)]) := by
  obtain ⟨hid, hspared⟩ := actingPlayer_eq_some.mp ha
  have hnew : id ∉ acts.map Prod.fst := by
    intro hm
    obtain ⟨act, hold, rfl⟩ := List.mem_map.mp hm
    obtain ⟨j, hj, hj'⟩ := h.served act hold
    obtain rfl := hg.registered.injective i j _ hid hj'
    have := Nat.pos_of_ne_zero fun h0 => hi (Fin.ext h0)
    simp only [Point.served] at hj
    omega
  constructor
  · have hturn := h.turn
    simp only at hturn ⊢
    rw [hl.turns, hl.turn, logEvents, List.getElem?_modify_eq, hturn]
    simp
  · exact h.exploded
  · exact h.increasing
  · intro k
    simp only [hl.destroy]
    exact h.destroyed k
  · intro act ha
    rcases List.mem_append.mp ha with ha | ha
    · exact h.actions act ha
    · obtain rfl := List.mem_singleton.mp ha
      exact hact
  · rw [List.map_append, List.map_singleton, List.nodup_append]
    refine ⟨h.once, List.nodup_singleton _, ?_⟩
    rintro id' hold b hb rfl
    obtain rfl := List.mem_singleton.mp hb
    exact hnew hold
  · intro act ha
    rcases List.mem_append.mp ha with ha | ha
    · exact h.spared act ha
    · obtain rfl := List.mem_singleton.mp ha
      exact fun hd => hspared ((h.destroyed id).mpr hd)
  · intro act ha
    simp only [hl.playerIds, served_nextClient]
    rcases List.mem_append.mp ha with ha | ha
    · obtain ⟨j, hj, hj'⟩ := h.served act ha
      exact ⟨j, hj.trans (Nat.sub_le ..), hj'⟩
    · obtain rfl := List.mem_singleton.mp ha
      exact ⟨i, le_rfl, hid⟩

theorem Underway.sent {e : GameEngine β} {robots : List (PlayerId × Position)} {random : Random}
    {turn : TurnInfo} (h : Underway ⟨e, .bottom⟩ explosions acts)
    (hr : robots.map Prod.fst = e.currentPlayersToDestroy.toList)
    (ht : (e.respawned robots random).turns[e.currentTurn.toNat]? = some turn) :
    Shaped turn.events explosions acts robots := by
  have hturns : (e.respawned robots random).turns =
      logEvents e.turns e.currentTurn.toNat (robots.map movedEvent) := rfl
  have hold := h.turn
  simp only at hold
  rw [hturns, logEvents, List.getElem?_modify_eq, hold] at ht
  obtain rfl := Option.some.inj ht
  constructor
  · rfl
  · exact h.exploded
  · exact h.increasing
  · exact h.actions
  · exact h.once
  · exact h.spared
  · have hlist : e.currentPlayersToDestroy.toList.Pairwise fun id id' => compare id id' = .lt :=
      Std.ExtTreeSet.ordered_toList
    rw [hr]
    exact hlist.imp compareOfLessAndEq_eq_lt.mp
  · intro id
    rw [hr, Std.ExtTreeSet.mem_toList]
    exact h.destroyed id

section Steps

variable {t : Machine.Step (Server β) Env Sending} {tr : List (Machine.Step (Server β) Env Sending)}

theorem actions_of_not_client (h : ∀ i, t.pre.point ≠ .client i) : actions t = [] := by
  unfold actions handledMessage
  split
  · rfl
  · rename_i i msg hm
    split at hm
    · exact absurd ‹_› (h _)
    · cases hm

theorem actions_of_eq (h : t.post.engine.turns = t.pre.engine.turns) : actions t = [] := by
  have hnew : newEvents t = [] := by
    rw [newEvents, h, List.drop_length]
  unfold actions
  split
  · rfl
  · split
    · rfl
    · rw [hnew, List.map_nil]

theorem actions_of_logged {e e' : GameEngine β} {i : Slot} {msg : ClientMessage} {id : PlayerId}
    {event : Event} (hg : Gameplay e) (hm : handledMessage ⟨e, .client i⟩ env = some (i, msg))
    (hid : e.playerIds[i]? = some id) (hl : Logged e e' [event]) {point : Point} :
    actions ⟨⟨e, .client i⟩, env, out, ⟨e', point⟩⟩ = [(id, event)] := by
  have hnew : newEvents (⟨⟨e, .client i⟩, env, out, ⟨e', point⟩⟩ :
      Machine.Step (Server β) Env Sending) = [event] := by
    rw [newEvents]
    simp only [hl.turns]
    rw [allEvents_logEvents hg.length.symm, List.drop_left]
  unfold actions
  simp only [hm, hid, hnew]
  rfl

/-- The steps of a run that belong to the current turn: one that opens it and those behind it. -/
def CurrentSteps (tr : List (Machine.Step (Server β) Env Sending)) (k : UInt16)
    (steps : List (Machine.Step (Server β) Env Sending)) : Prop :=
  ∃ before opening, tr = before ++ opening :: steps ∧ opening.pre.point = .top ∧
    opening.post.engine.currentTurn = k ∧ ∀ t ∈ steps, t.pre.point ≠ .top

theorem CurrentSteps.snoc {k : UInt16} {steps : List (Machine.Step (Server β) Env Sending)}
    (h : CurrentSteps tr k steps) (ht : t.pre.point ≠ .top) :
    CurrentSteps (tr ++ [t]) k (steps ++ [t]) := by
  obtain ⟨before, opening, rfl, hp, hk, hs⟩ := h
  refine ⟨before, opening, by simp, hp, hk, ?_⟩
  intro t' ht'
  rcases List.mem_append.mp ht' with ht' | ht'
  · exact hs t' ht'
  · rwa [List.mem_singleton.mp ht']

end Steps

variable [PositionSet β] {p : ServerParameters}

theorem Underway.opened {e : GameEngine β} (hg : Gameplay e)
    (hlt : e.currentTurn < e.gameParams.gameLength) (hd : e.currentPlayersToDestroy = ∅) :
    Underway ⟨e.opened, .poll⟩ ((dueBombs e.bombs.toList).map e.explodedEvent) [] := by
  have hn := hg.nextTurn hlt
  constructor
  · simp [GameEngine.opened, hn]
  · intro event he
    obtain ⟨entry, -, rfl⟩ := List.mem_map.mp he
    rfl
  · rw [List.filterMap_map]
    have hids : List.filterMap (Event.explodedBomb ∘ e.explodedEvent) (dueBombs e.bombs.toList) =
        (dueBombs e.bombs.toList).map Prod.fst := by
      rw [← List.filterMap_eq_map]
      rfl
    rw [hids]
    exact List.pairwise_map.mpr pairwise_dueBombs
  · intro id
    simp [GameEngine.opened, Std.ExtTreeSet.mem_foldl_insert, hd, dueRobots, List.flatMap_map,
      Event.robotsDestroyed, explodedEvent]
  · simp
  · simp
  · simp
  · simp

theorem Stepped.served_le (h : Stepped env s s' out) (hp : s.point ≠ .top) :
    s.point.served ≤ s'.point.served := by
  cases h with
  | lobby hs => exact absurd rfl hp
  | openTurn hs hb => exact absurd rfl hp
  | noMessage hm =>
    simp only [served_nextClient]
    exact Nat.sub_le ..
  | refused hm hr =>
    simp only [served_nextClient]
    exact Nat.sub_le ..
  | handled hm hr hh =>
    simp only [served_nextClient]
    exact Nat.sub_le ..
  | _ => simp [Point.served]

section Runs

variable {tr : List (Machine.Step (Server β) Env Sending)}

def HasShape (tr : List (Machine.Step (Server β) Env Sending)) (s : Server β) : Prop :=
  s.engine.gameplayStarted = true → 0 < s.engine.currentTurn → s.point.sent = 0 →
    ∃ steps explosions, CurrentSteps tr s.engine.currentTurn steps ∧
      Underway s explosions (steps.flatMap actions)

theorem HasShape.snoc (h : HasShape tr s) (hw : Wf p s) (hs : Stepped env s s' out)
    (hplayed : Played env s s' (broadcasts out)) : HasShape (tr ++ [⟨s, env, out, s'⟩]) s' := by
  intro hstart hk hsent
  generalize hmsgs : broadcasts out = msgs at hplayed
  have hle := hs.served_le
  cases hplayed with
  | @still e point point' handler hp =>
    have hunsent : point.sent = 0 := (hp hstart).symm.trans hsent
    have hne : point ≠ .top := by
      rintro rfl
      cases hunsent
    obtain ⟨steps, explosions, hsteps, hu⟩ := h hstart hk hunsent
    refine ⟨_, explosions, hsteps.snoc hne, ?_⟩
    rw [List.flatMap_append, List.flatMap_singleton, actions_of_eq rfl, List.append_nil]
    exact hu.still (hle hne)
  | joined hl hlt hn => exact Bool.noConfusion (hl.started.symm.trans hstart)
  | started hl hn hg => simp [(hl.startGameplay hn hg).2.1] at hk
  | @acted e e' i msg hg hm hr hh =>
    have hi : i ≠ 0 := fun hi => hw.client (hi ▸ rfl)
    have hmsg : handledMessage ⟨e, .client i⟩ env = some (i, msg) :=
      handledMessage_eq_some_iff.mpr ⟨rfl, hm, hr⟩
    rcases hh.action hg with rfl | ⟨id, event, ha, hact, hl⟩
    · obtain ⟨steps, explosions, hsteps, hu⟩ := h hstart hk rfl
      refine ⟨_, explosions, hsteps.snoc Point.noConfusion, ?_⟩
      rw [List.flatMap_append, List.flatMap_singleton, actions_of_eq rfl, List.append_nil]
      have hstill : Underway ⟨e'.withHandler e'.tcpHandler, nextClient i⟩ explosions _ :=
        hu.still (hle Point.noConfusion)
      exact hstill
    · obtain ⟨steps, explosions, hsteps, hu⟩ := h hg.started (hl.turn ▸ hk) rfl
      have hcurrent := hsteps.snoc
        (t := ⟨⟨e, .client i⟩, env, out, ⟨e', nextClient i⟩⟩) Point.noConfusion
      simp only [← hl.turn] at hcurrent
      refine ⟨_, explosions, hcurrent, ?_⟩
      rw [List.flatMap_append, List.flatMap_singleton,
        actions_of_logged hg hmsg (actingPlayer_eq_some.mp ha).1 hl]
      exact hu.acted hg hi ha hact hl
  | @opened e handler hg hlt he hd =>
    have hg' : Gameplay (e.withHandler handler) := hg.withHandler
    have hu := Underway.opened hg' hlt hd
    exact ⟨[], _, ⟨tr, _, rfl, rfl, rfl, by simp⟩, hu⟩
  | sent hg hr hc ht => cases hsent
  | closed hg hlt => cases hsent
  | ended hg hlast => cases hsent

theorem run_hasShape (hc : 0 < p.playersCount) (h : (machine β p).Run tr s) : HasShape tr s := by
  refine h.invariant (I := HasShape) (fun hs => Bool.noConfusion hs) ?_
  intro tr s env s' out hr hI hs
  obtain ⟨hw, hb⟩ := run_wf_below hc hr
  exact hI.snoc hw (step_stepped hs) (hw.played hb.room (step_stepped hs))

theorem run_shaped (h : (machine β p).Run tr s) (hp : s.point = .broadcast) {info : TurnInfo}
    (hk : 0 < info.turn) (hturn : s.engine.currentTurn = info.turn) (hi : Closed s info) :
    ∃ steps explosions robots, CurrentSteps tr info.turn steps ∧
      Shaped info.events explosions (steps.flatMap actions) robots := by
  have hc := playersCount_pos h hi.1
  obtain ⟨-, -, hget⟩ := hi
  cases h with
  | nil => cases hp
  | @snoc tr m _ env out h hs =>
    obtain ⟨hpoint, hstart, ht⟩ := (step_stepped hs).of_broadcast hp
    obtain ⟨robots, random, turn, hr, -, -, he, -, -⟩ := sendTurn_ok ht
    rw [he] at hturn hget
    have hturn' : m.engine.currentTurn = info.turn := hturn
    obtain ⟨steps, explosions, hsteps, hu⟩ := run_hasShape hc h hstart (hturn' ▸ hk)
      (by rw [hpoint, Point.sent_bottom])
    have hne : m.point ≠ .top := by
      rw [hpoint]
      exact Point.noConfusion
    have hnone : actions ⟨m, env, out, s⟩ = [] := by
      apply actions_of_not_client
      intro i
      rw [hpoint]
      exact Point.noConfusion
    rw [hturn'] at hsteps
    refine ⟨_, explosions, robots, hsteps.snoc (t := ⟨m, env, out, s⟩) hne, ?_⟩
    rw [List.flatMap_append, List.flatMap_singleton, hnone, List.append_nil]
    rw [← hturn'] at hget
    obtain ⟨e, point⟩ := m
    obtain rfl : point = .bottom := hpoint
    exact hu.sent hr hget

/--
Every turn behind the first one is, in this order, its explosions by increasing bomb id, at
most one action of each player whose robot has not been destroyed, and each destroyed robot
placed again once, by increasing player id.
-/
theorem run_turn_shape (h : (machine β p).Run tr s) {info : TurnInfo} (hi : Closed s info)
    (hk : 0 < info.turn) :
    (∃ tr' tr'' steps explosions robots, tr = tr' ++ tr'' ∧ CurrentSteps tr' info.turn steps ∧
      Shaped info.events explosions (steps.flatMap actions) robots) ∧
    ∀ id, info.events.countP (Event.movesPlayer id) ≤ 1 := by
  obtain ⟨tr', tr'', s', rfl, h', hp, hturn, hi'⟩ :=
    run_exists_broadcast (playersCount_pos h hi.1) h hi
  obtain ⟨steps, explosions, robots, hsteps, hshape⟩ := run_shaped h' hp hk hturn hi'
  exact ⟨⟨tr', tr'', steps, explosions, robots, rfl, hsteps, hshape⟩, fun id =>
    hshape.countP_le_one⟩

def crammed : List Env :=
  soloJoin ++ (pass true (.ready [1] ⟨none, []⟩ (some [1, 3, 0, 1]))).take 29

theorem run_turn_shape_crammed : ∃ tr s info, (machine (StdSet Position) solo).Run tr s ∧
    s.engine.turns[1]? = some info ∧ info.events.length = 1 ∧
    (∃ tr' tr'' steps explosions robots, tr = tr' ++ tr'' ∧ CurrentSteps tr' info.turn steps ∧
      Shaped info.events explosions (steps.flatMap actions) robots) ∧
    ∀ id, info.events.countP (Event.movesPlayer id) ≤ 1 := by
  have hcheck : (machine (StdSet Position) solo).check crammed (fun _ s =>
      s.engine.gameplayStarted ∧ 1 < s.turnsSent ∧ ∃ info ∈ s.engine.turns[1]?,
        info.turn = 1 ∧ info.events.length = 1) = true := by decide +kernel
  obtain ⟨tr, s, h, htest⟩ := Machine.run_of_check hcheck
  obtain ⟨hs, hsent, info, hi, hone, hlen⟩ := of_decide_eq_true htest
  have hclosed : Closed s info := by
    refine ⟨hs, ?_, ?_⟩
    · rw [hone]
      exact hsent
    · rw [hone]
      exact hi
  exact ⟨tr, s, info, h, hi, hlen, run_turn_shape h hclosed (by rw [hone]; decide)⟩

end Runs

end Server

end Bomberrobots
