import Bomberrobots.Library.Progress
import Bomberrobots.Server.Arithmetic
import Bomberrobots.Server.Greeting
import Bomberrobots.Server.Volley

/-! # The end of a game

There are three ways for a step of the server to fail, and two of them belong to the lobby. A
running game gets closer to its end with every step, whatever its clients send, so it ends
unless an explosion never does.
-/

namespace Bomberrobots

/-- How many steps the rest of the loop body takes at most. -/
def Point.toGo : Point → ℕ
  | .top => 0
  | .poll => 29
  | .accept => 28
  | .client i => 28 - i.val
  | .bottom => 2
  | .broadcast => 1

namespace Server

open GameEngine

theorem toGo_nextClient {i : Slot} : (nextClient i).toGo + 1 = (Point.client i).toGo := by
  have := i.isLt
  unfold nextClient
  split
  · simp only [Point.toGo]
    omega
  · simp only [Point.toGo]
    omega

theorem toGo_pos {point : Point} (h : point ≠ .top) : 0 < point.toGo := by
  cases point with
  | top => exact absurd rfl h
  | client i => exact Nat.sub_pos_of_lt (i.isLt.trans (by decide))
  | _ => exact Nat.succ_pos _

variable {β : Type} {f : Fault}

theorem sendTurn_error_void {e : GameEngine β} (hg : Gameplay e) (h : e.sendTurn = .error f) :
    f = .divisionByZero ∧ e.Void :=
  sendTurn_error_sizes h hg.currentTurn_lt fun id hid =>
    (hg.registered.scores id).mpr (hg.destroy id hid)

variable [PositionSet β]

/-- A turn is opened in which a bomb explodes at the largest radius, on a field without a block. -/
def OpensEndless (s : Server β) : Prop :=
  s.point = .top ∧ s.engine.gameplayStarted = true ∧
    ∃ entry ∈ dueBombs s.engine.bombs.toList, ¬ s.engine.Exits entry.2.position

/-- The reasons why a step does not return. -/
def Fails (s : Server β) (env : Env) : Fault → Prop
  | .outOfRange => LobbyAction s env
  | .divisionByZero => StartsVoid s env
  | .endlessLoop => OpensEndless s

/-- A bound for the number of steps that a running game takes until it ends. -/
def remaining (s : Server β) : ℕ :=
  30 * (s.engine.gameParams.gameLength.toNat - s.engine.currentTurn.toNat) + s.point.toGo

variable {p : ServerParameters} {s s' : Server β} {env : Env} {out : List Sending}

theorem Wf.handleClientMessage_error {i : Slot} {u : Position} {msg : ClientMessage}
    (hw : Wf p s) (hp : s.point = .client i) (hm : s.engine.tcpHandler.isMessageFrom i = true)
    (h : s.engine.handleClientMessage i u msg = .error f) :
    (∃ name, msg = .join name ∧ f = .divisionByZero) ∨ msg.isJoin = false ∧ f = .outOfRange := by
  cases hj : msg.isJoin with
  | true =>
    have hi : i ≠ 0 := fun hi => hw.client (hi ▸ hp)
    have haddr := hw.addressed i hi (isSome_fd_of_isMessageFrom hm)
    have hlen : s.engine.currentTurn.toNat ≤ s.engine.turns.length := by
      rcases hw.phase with hl | hg
      · simp [hl.turn]
      · exact hg.currentTurn_lt.le
    cases msg with
    | join name => exact .inl ⟨name, rfl, handleJoin_error h haddr hlen⟩
    | _ => cases hj
  | false =>
    obtain ⟨id, ha, hn⟩ := handleAction_error h hj
    rcases hw.phase with hl | hg
    · have hout := handleAction_outOfRange (u := u) hj ha (by simp [hl.positions])
      exact .inr ⟨rfl, Except.error.inj (h.symm.trans hout)⟩
    · obtain ⟨hpos, hlog⟩ := hg.not_acting ha
      rcases hn with hn | hn
      · exact absurd hpos hn
      · omega

theorem Fails.lobby_or_endless (h : s.Fails env f) :
    s.engine.gameplayStarted = false ∨ OpensEndless s := by
  cases f with
  | outOfRange => exact .inl h.1
  | divisionByZero =>
    obtain ⟨-, i, player, ha, -⟩ := h
    exact .inl ha.1
  | endlessLoop => exact .inr h

theorem OpensEndless.radius (h : OpensEndless s) :
    s.engine.gameParams.explosionRadius = 65535 := by
  obtain ⟨-, -, entry, -, hx⟩ := h
  exact not_not.mp fun hr => hx (.inl hr)

theorem OpensEndless.step_eq (h : OpensEndless s) (hw : Wf p s) :
    step s env = .error .endlessLoop := by
  obtain ⟨hp, hs, entry, hdue, hx⟩ := h
  have hlt := (hw.closed hp hs).1
  rw [← hw.params] at hlt
  have hlen := (hw.gameplay hs).nextTurn hlt
  obtain ⟨e, point⟩ := s
  obtain rfl : point = .top := hp
  have hs : e.gameplayStarted = true := hs
  have hb : (e.withHandler e.tcpHandler.resetRevents).beginTurn = .error .endlessLoop := by
    cases hb : (e.withHandler e.tcpHandler.resetRevents).beginTurn with
    | ok e' => exact absurd ((beginTurn_ok hb hlen).1 entry hdue) hx
    | error f => rw [beginTurn_error hb hlen]
  unfold step
  dsimp only
  split
  · unfold withHandler at hb
    rw [hb]
    rfl
  · exact absurd hs ‹_›

section Runs

variable {tr : List (Machine.Step (Server β) Env Sending)}

theorem run_not_void (h : (machine β p).Run tr s) (hs : s.engine.gameplayStarted = true) :
    ¬ s.engine.Void := by
  have hc := playersCount_pos h hs
  refine run_played (I := fun _ s => s.engine.gameplayStarted = true → ¬ s.engine.Void)
    hc h nofun ?_ hs
  intro env msgs s s' new hw hI hplayed hs'
  cases hplayed with
  | still hp => exact hI hs'
  | joined hl hlt hn => exact Bool.noConfusion (hl.started.symm.trans hs')
  | started hl hn hg =>
    have hv := not_void_of_startGameplay size_players_joined hg
    obtain ⟨robots, blocks, random, -, -, -, -, -, rfl⟩ := startGameplay_ok hg
    exact hv
  | acted hg hm hr hh =>
    rw [GameEngine.Void, hh.frame.2]
    exact hI hg.started
  | ended hg hlast => cases hs'
  | opened hg => exact hI hg.started
  | sent hg => exact hI hg.started
  | closed hg => exact hI hg.started

theorem run_step_divisionByZero_iff (hc : 0 < p.playersCount) (h : (machine β p).Run tr s) :
    step s env = .error .divisionByZero ↔ StartsVoid s env := by
  refine ⟨fun he => ?_, fun hv => hv.step_eq h⟩
  have hw := run_wf hc h
  rcases step_error he with ⟨ht, hs, hb⟩ | ⟨i, msg, hp, hm, hr, hh⟩ | ⟨-, hs, ht⟩
  · have hlt := (hw.closed ht hs).1
    rw [← hw.params] at hlt
    exact absurd (beginTurn_error hb ((hw.gameplay hs).nextTurn hlt)) (by decide)
  · rcases hw.handleClientMessage_error hp hm hh with ⟨name, rfl, -⟩ | ⟨-, hf⟩
    · exact startsVoid_of_handleJoin h (handledMessage_eq_some_iff.mpr ⟨hp, hm, hr⟩) hh
    · cases hf
  · exact absurd (sendTurn_error_void (hw.gameplay hs) ht).2 (run_not_void h hs)

/--
The three reasons are exact: a step of a run fails with an error precisely if the reason for
it is given, so in the lobby by a message and in a game by an explosion.
-/
theorem run_step_error_iff (hc : 0 < p.playersCount) (h : (machine β p).Run tr s) :
    step s env = .error f ↔ s.Fails env f := by
  have hw := run_wf hc h
  cases f with
  | outOfRange => exact hw.step_outOfRange_iff
  | divisionByZero => exact run_step_divisionByZero_iff hc h
  | endlessLoop =>
    refine ⟨fun he => ?_, fun ho => ho.step_eq hw⟩
    rcases step_error he with ⟨hp, hs, hb⟩ | ⟨i, msg, hp, hm, hr, hh⟩ | ⟨-, hs, ht⟩
    · refine ⟨hp, hs, ?_⟩
      have hlt := (hw.closed hp hs).1
      rw [← hw.params] at hlt
      by_contra hnone
      have hx : ∀ entry ∈ dueBombs s.engine.bombs.toList, s.engine.Exits entry.2.position :=
        fun entry hdue => not_not.mp fun hx => hnone ⟨entry, hdue, hx⟩
      have hok : (s.engine.withHandler s.engine.tcpHandler.resetRevents).beginTurn = .ok _ :=
        beginTurnIn_eq hx ((hw.gameplay hs).nextTurn hlt)
      simp [hok] at hb
    · rcases hw.handleClientMessage_error hp hm hh with ⟨-, -, hf⟩ | ⟨-, hf⟩ <;> cases hf
    · cases (sendTurn_error_void (hw.gameplay hs) ht).1

end Runs

def blazing : ServerParameters := { solo with bombTimer := 1, explosionRadius := 65535 }

theorem run_step_error_iff_blazing : ∃ tr s, (machine (StdSet Position) blazing).Run tr s ∧
    ∀ env, step s env = .error .endlessLoop := by
  have hcheck : (machine (StdSet Position) blazing).check fuseless
      (fun _ s => s.point = .top ∧ s.engine.gameplayStarted ∧
        ∃ entry ∈ dueBombs s.engine.bombs.toList, ¬ s.engine.Exits entry.2.position) = true := by
    decide +kernel
  obtain ⟨tr, s, h, htest⟩ := Machine.run_of_check hcheck
  have hends := of_decide_eq_true htest
  exact ⟨tr, s, h, fun env => (run_step_error_iff (by decide) h).mpr hends⟩

/-- A step of a running game ends it or comes closer to its end. -/
theorem Stepped.remaining_lt (h : Stepped env s s' out) (hw : Wf p s)
    (hs : s.engine.gameplayStarted = true) :
    s'.engine.gameplayStarted = false ∨ s'.remaining < s.remaining := by
  have hnext : ∀ i : Slot, (nextClient i).toGo < (Point.client i).toGo := fun i =>
    Nat.lt_of_succ_le toGo_nextClient.le
  cases h with
  | lobby hl => exact Bool.noConfusion (hs.symm.trans hl)
  | openTurn _ hb =>
    right
    obtain ⟨hlt, -, -⟩ := hw.closed rfl hs
    have hlt' := UInt16.lt_iff_toNat_lt.mp hlt
    obtain ⟨-, rfl⟩ := hw.opened hs hb
    rw [← hw.params] at hlt hlt'
    have hturn := (hw.gameplay hs).nextTurn hlt
    have hlen := (hw.gameplay hs).length
    simp only [remaining, GameEngine.opened, withHandler, Point.toGo] at hlt' hturn hlen ⊢
    omega
  | noMessage hm => exact .inr (Nat.add_lt_add_left (hnext _) _)
  | refused hm hr => exact .inr (Nat.add_lt_add_left (hnext _) _)
  | handled hm hr hh =>
    obtain ⟨events, hlog⟩ := hh.logged (hw.gameplay hs)
    right
    simp only [remaining, hlog.turn, hlog.params]
    exact Nat.add_lt_add_left (hnext _) _
  | greet hn hf he =>
    subst he
    exact .inr (Nat.add_lt_add_left (by simp [Point.toGo]) _)
  | rest hl => exact Bool.noConfusion (hs.symm.trans hl)
  | send _ ht =>
    obtain ⟨robots, random, turn, -, -, -, rfl, -, -⟩ := sendTurn_ok ht
    exact .inr (Nat.add_lt_add_left (by simp [Point.toGo]) _)
  | finish =>
    unfold finishTurn
    dsimp only
    split
    · exact .inl rfl
    · exact .inr (Nat.add_lt_add_left (by simp [Point.toGo]) _)
  | _ => exact .inr (Nat.add_lt_add_left (by simp [Point.toGo]) _)

theorem Wf.remaining_pos (hw : Wf p s) (hs : s.engine.gameplayStarted = true) :
    0 < s.remaining := by
  by_cases hp : s.point = .top
  · have hlt := UInt16.lt_iff_toNat_lt.mp (hw.closed hp hs).1
    rw [← hw.params] at hlt
    simp only [remaining]
    omega
  · exact Nat.add_pos_right _ (toGo_pos hp)

theorem Played.not_ended {msgs : List ServerMessage} (h : Played env s s' msgs)
    (hs : s.engine.gameplayStarted = true) (hs' : s'.engine.gameplayStarted = true) :
    .ended ∉ msgs.map ServerMessage.shape := by
  cases h with
  | ended hg hlast => cases hs'
  | sent hg hr hc ht => simp [ServerMessage.shape]
  | joined hl hlt hn => simp [ServerMessage.shape]
  | started hl hn hg => simp [ServerMessage.shape]
  | _ => simp

theorem Played.gameEnded {msgs : List ServerMessage} (h : Played env s s' msgs)
    (hs : s.engine.gameplayStarted = true) (hs' : s'.engine.gameplayStarted = false) :
    msgs = [.gameEnded s.engine.scores] := by
  cases h with
  | still hp => exact Bool.noConfusion (hs.symm.trans hs')
  | joined hl hlt hn => exact Bool.noConfusion (hs.symm.trans hl.started)
  | started hl hn hg => exact Bool.noConfusion (hs.symm.trans hl.started)
  | @acted e e' i msg hg hm hr hh =>
    obtain ⟨events, hlog⟩ := hh.logged hg
    exact Bool.noConfusion (hs.symm.trans (hlog.started.symm.trans hs'))
  | ended hg hlast => rfl
  | _ => exact Bool.noConfusion (hs.symm.trans hs')

section Runs

variable {tr : List (Machine.Step (Server β) Env Sending)}

theorem path_gameEnded {life : List (Machine.Step (Server β) Env Sending)}
    (hc : 0 < p.playersCount) (h : (machine β p).Run tr s) (hlife : (machine β p).Path s life s')
    (hs : s.engine.gameplayStarted = true)
    (hplaying : ∀ t ∈ life, t.pre.engine.gameplayStarted = true)
    (hs' : s'.engine.gameplayStarted = false) : ∃ msgs scores,
      broadcasts (Machine.log life) = msgs ++ [.gameEnded scores] ∧
        .ended ∉ msgs.map ServerMessage.shape := by
  refine (path_played_of (C := fun s _ => s.engine.gameplayStarted = true)
    (I := fun msgs s => (s.engine.gameplayStarted = true → .ended ∉ msgs.map ServerMessage.shape) ∧
      (s.engine.gameplayStarted = false → ∃ msgs' scores, msgs = msgs' ++ [.gameEnded scores] ∧
        .ended ∉ msgs'.map ServerMessage.shape)) hc h hlife hplaying ?_ ?_).2 hs'
  · exact ⟨by simp, fun hl => Bool.noConfusion (hs.symm.trans hl)⟩
  · rintro env msgs s s' new hw ⟨hno, -⟩ hs hplayed
    refine ⟨fun hs' => ?_, fun hs' => ⟨msgs, _, by rw [hplayed.gameEnded hs hs'], hno hs⟩⟩
    rw [List.map_append, List.mem_append, not_or]
    exact ⟨hno hs, hplayed.not_ended hs hs'⟩

/--
A running game ends within `remaining` steps, for every input that the steps may read. Up to
the end the turns that are still missing are broadcast, one by one, and then the scores. Only
an explosion at the largest radius can keep it from its end.
-/
theorem run_game_ends (h : (machine β p).Run tr s) (hs : s.engine.gameplayStarted = true)
    (inputs : ℕ → Env) : ∃ life s', (machine β p).Path s life s' ∧
      life.map Machine.Step.input = (List.range life.length).map inputs ∧
      life.length ≤ s.remaining ∧ (∀ t ∈ life, t.pre.engine.gameplayStarted = true) ∧
      (p.explosionRadius = 65535 ∧ OpensEndless s' ∨ s'.engine.gameplayStarted = false ∧
        (broadcasts (Machine.log life)).map ServerMessage.shape =
          (List.range' s.turnsSent (p.gameLength.toNat + 1 - s.turnsSent)).map .turn ++
            [.ended]) := by
  have hc := playersCount_pos h hs
  have hfinish : ∃ life s', (machine β p).Path s life s' ∧
      life.map Machine.Step.input = (List.range life.length).map inputs ∧
      life.length ≤ s.remaining ∧
      (∀ t ∈ life, ¬ (t.pre.engine.gameplayStarted = false ∨ OpensEndless t.pre)) ∧
      (s'.engine.gameplayStarted = false ∨ OpensEndless s') := by
    refine Machine.exists_path_to_goal (I := fun s => ∃ tr, (machine β p).Run tr s)
      (G := fun s => s.engine.gameplayStarted = false ∨ OpensEndless s) ⟨tr, h⟩ ?_ ?_ inputs
    · rintro s ⟨tr, h⟩ hn
      rw [not_or, Bool.not_eq_false] at hn
      exact (run_wf hc h).remaining_pos hn.1
    · rintro s env ⟨tr, h⟩ hn
      rw [not_or, Bool.not_eq_false] at hn
      cases hstep : step s env with
      | error f =>
        rcases ((run_step_error_iff hc h).mp hstep).lobby_or_endless with hl | ho
        · exact absurd hl (by simp [hn.1])
        · exact absurd ho hn.2
      | ok r =>
        refine ⟨r.1, r.2, hstep, ⟨_, .snoc h hstep⟩, ?_⟩
        exact ((step_stepped hstep).remaining_lt (run_wf hc h) hn.1).imp_left .inl
  obtain ⟨life, s', hlife, hinputs, hlen, hbefore, hgoal⟩ := hfinish
  have hplaying : ∀ t ∈ life, t.pre.engine.gameplayStarted = true := by
    intro t ht
    have hn := hbefore t ht
    rw [not_or, Bool.not_eq_false] at hn
    exact hn.1
  refine ⟨life, s', hlife, hinputs, hlen, hplaying, ?_⟩
  cases hs' : s'.engine.gameplayStarted with
  | true =>
    have ho := hgoal.resolve_left (by simp [hs'])
    exact .inl ⟨(run_wf hc (h.append hlife)).params ▸ ho.radius, ho⟩
  | false =>
    obtain ⟨msgs, scores, hend, hno⟩ := path_gameEnded hc h hlife hs hplaying hs'
    refine .inr ⟨rfl, ?_⟩
    rw [hend, List.map_append, rest_of_game hc h hlife hs hend hno]
    rfl

end Runs

theorem run_game_ends_solo : ∃ tr s life s', (machine (StdSet Position) solo).Run tr s ∧
    s.engine.gameplayStarted = true ∧ (machine (StdSet Position) solo).Path s life s' ∧
    s'.engine.gameplayStarted = false ∧
    (broadcasts (Machine.log life)).map ServerMessage.shape =
      [.turn 1, .turn 2, .turn 3, .ended] := by
  have hcheck : (machine (StdSet Position) solo).check soloJoin
      (fun _ s => s.engine.gameplayStarted ∧ s.turnsSent = 1) = true := by decide +kernel
  obtain ⟨tr, s, h, htest⟩ := Machine.run_of_check hcheck
  obtain ⟨hs, hsent⟩ := of_decide_eq_true htest
  obtain ⟨life, s', hlife, -, -, -, hend⟩ := run_game_ends h hs fun _ =>
    .ready [1] ⟨none, []⟩ (some [2])
  rw [hsent] at hend
  obtain ⟨hs', hshape⟩ := hend.resolve_left fun hn => absurd hn.1 (by decide)
  exact ⟨tr, s, life, s', h, hs, hlife, hs', hshape⟩

end Server

end Bomberrobots
