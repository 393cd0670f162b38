import Bomberrobots.Server.Invariant

/-! # What a step does to a game

Seen from the games that are played, most steps of the main loop change nothing.
`Played` lists the others together with the messages they broadcast.
-/

namespace Bomberrobots

def Sending.toAll : Sending → Option ServerMessage
  | .one .. => none
  | .all _ msg => some msg

/-- The messages that were sent to all clients. -/
def broadcasts (log : List Sending) : List ServerMessage := log.filterMap Sending.toAll

@[simp] theorem broadcasts_append {log log' : List Sending} :
    broadcasts (log ++ log') = broadcasts log ++ broadcasts log' :=
  List.filterMap_append

@[simp] theorem broadcasts_sendMessageToAll {h : ServerTcpHandler} {msg : ServerMessage} :
    broadcasts (h.sendMessageToAll msg) = [msg] := rfl

theorem broadcasts_map_one {i : Slot} {msgs : List ServerMessage} :
    broadcasts (msgs.map (.one i)) = [] := by
  simp [broadcasts, Sending.toAll]

def Point.sent : Point → ℕ
  | .top | .broadcast => 1
  | _ => 0

namespace Point

@[simp] theorem sent_top : top.sent = 1 := rfl
@[simp] theorem sent_broadcast : broadcast.sent = 1 := rfl
@[simp] theorem sent_poll : poll.sent = 0 := rfl
@[simp] theorem sent_bottom : bottom.sent = 0 := rfl
@[simp] theorem sent_client {i : Slot} : (client i).sent = 0 := rfl

end Point

namespace GameEngine

variable {β : Type}

/-- The engine after `summarise_turn` has forgotten what the turn has destroyed. -/
def settled (e : GameEngine β) : GameEngine β :=
  { e with currentBlocksToErase := [], currentPlayersToDestroy := ∅ }

end GameEngine

namespace Server

open GameEngine

variable {β : Type}

@[simp] theorem sent_nextClient {i : Slot} : (nextClient i).sent = 0 := by
  unfold nextClient
  split <;> rfl

variable {p : ServerParameters} {s s' : Server β}

/-- In the lobby there is still a player missing. -/
def Below (p : ServerParameters) (s : Server β) : Prop :=
  s.engine.gameplayStarted = false → s.engine.nextPlayerId.toNat < p.playersCount.toNat

theorem Below.room (h : Below p s) : Room s := by
  intro hs
  have := h hs
  have := p.playersCount.toNat_lt
  omega

variable [PositionSet β] {env : Env} {out : List Sending}

/-- The course of the games, step by step. -/
inductive Played (env : Env) : Server β → Server β → List ServerMessage → Prop
  | still {e : GameEngine β} {point point' : Point} {handler : ServerTcpHandler}
      (hp : e.gameplayStarted = true → point'.sent = point.sent) :
      Played env ⟨e, point⟩ ⟨e.withHandler handler, point'⟩ []
  | joined {e : GameEngine β} {i : Slot} {player : Player} (hl : Lobby e)
      (hlt : e.nextPlayerId.toNat < 255)
      (hn : (e.joined i player).players.size ≠ e.gameParams.playersCount.toNat) :
      Played env ⟨e, .client i⟩ ⟨e.joined i player, nextClient i⟩
        [.acceptedPlayer e.nextPlayerId player]
  | started {e e' : GameEngine β} {i : Slot} {player : Player} {sent : List Sending}
      (hl : Lobby e) (hn : (e.joined i player).players.size = e.gameParams.playersCount.toNat)
      (hg : (e.joined i player).startGameplay = .ok (e', sent)) :
      Played env ⟨e, .client i⟩ ⟨e', nextClient i⟩
        [.acceptedPlayer e.nextPlayerId player, .gameStarted (e.joined i player).players]
  | acted {e e' : GameEngine β} {i : Slot} {msg : ClientMessage} (hg : Gameplay e)
      (hm : e.tcpHandler.isMessageFrom i = true) (hr : receivedMessage env.received = some msg)
      (hh : Handled e i env.uninitialised msg e' []) :
      Played env ⟨e, .client i⟩ ⟨e', nextClient i⟩ []
  | opened {e : GameEngine β} {handler : ServerTcpHandler} (hg : Gameplay e)
      (hlt : e.currentTurn < e.gameParams.gameLength) (he : e.currentBlocksToErase = [])
      (hd : e.currentPlayersToDestroy = ∅) :
      Played env ⟨e, .top⟩ ⟨(e.withHandler handler).opened, .poll⟩ []
  | sent {e : GameEngine β} {robots : List (PlayerId × Position)} {random : Random}
      {turn : TurnInfo} (hg : Gameplay e)
      (hr : robots.map Prod.fst = e.currentPlayersToDestroy.toList)
      (hc : ∀ robot ∈ robots, e.checkPosition robot.2 = true)
      (ht : (e.respawned robots random).turns[e.currentTurn.toNat]? = some turn) :
      Played env ⟨e, .bottom⟩ ⟨e.respawned robots random, .broadcast⟩ [.turn turn]
  | closed {e : GameEngine β} (hg : Gameplay e) (hlt : e.currentTurn < e.gameParams.gameLength) :
      Played env ⟨e, .broadcast⟩ ⟨e.settled, .top⟩ []
  | ended {e : GameEngine β} (hg : Gameplay e) (hlast : e.currentTurn = e.gameParams.gameLength) :
      Played env ⟨e, .broadcast⟩ ⟨e.settled.endGameplay.1, .top⟩ [.gameEnded e.scores]

theorem Wf.played (hw : Wf p s) (hroom : Room s) (hs : Stepped env s s' out) :
    Played env s s' (broadcasts out) := by
  cases hs with
  | lobby hs => exact .still fun ht => absurd ht (by simp [hs])
  | openTurn hs hb =>
    obtain ⟨hlt, he, hd⟩ := hw.closed rfl hs
    obtain ⟨-, rfl⟩ := hw.opened hs hb
    refine .opened (hw.gameplay hs) ?_ he hd
    exact hw.params ▸ hlt
  | quiet hp => exact .still fun _ => rfl
  | polled hp => exact .still fun _ => rfl
  | noClient hn => exact .still fun _ => rfl
  | full hn hf => exact .still fun _ => rfl
  | greet hn hf he =>
    subst he
    rw [sendHello_append_sendHelloState]
    split
    · rw [broadcasts_map_one]
      exact .still fun _ => rfl
    · exact .still fun _ => rfl
  | noMessage hm => exact .still fun _ => sent_nextClient
  | refused hm hr => exact .still fun _ => sent_nextClient
  | @handled e e' i msg sent hm hr hh =>
    have hphase : Lobby e ∨ Gameplay e := hw.phase
    rcases hphase with hl | hg
    · rcases hh.lobby hl with ⟨-, rfl, rfl⟩ | ⟨player, -, hn, rfl, rfl⟩ |
        ⟨player, sent, -, hn, hg, rfl⟩
      · exact .still fun _ => sent_nextClient
      · exact .joined hl (hroom hl.started) hn
      · obtain ⟨robots, blocks, random, -, -, -, -, rfl, -⟩ := startGameplay_ok hg
        exact .started hl hn hg
    · obtain rfl := (hh.gameplay hg).1
      exact .acted hg hm hr hh
  | rest hs => exact .still fun ht => absurd ht (by simp [hs])
  | send hs ht =>
    obtain ⟨robots, random, turn, hr, hc, -, rfl, hturn, rfl⟩ := sendTurn_ok ht
    exact .sent (hw.gameplay hs) hr hc hturn
  | @finish e =>
    have hg : Gameplay e := hw.gameplay (hw.playing rfl)
    unfold finishTurn
    dsimp only
    split
    · exact .ended hg ‹_›
    · exact .closed hg (UInt16.lt_of_le_of_ne hg.bounded ‹_›)

/-- What the lobby goes on from: the lobby, another Join, or the end of a game. -/
theorem Played.to_lobby {msgs : List ServerMessage} (h : Played env s s' msgs)
    (hs : s'.engine.gameplayStarted = false) :
    (∃ handler, s.engine.gameplayStarted = false ∧ s'.engine = s.engine.withHandler handler) ∨
    (∃ i player, Lobby s.engine ∧ s.engine.nextPlayerId.toNat < 255 ∧
      (s.engine.joined i player).players.size ≠ s.engine.gameParams.playersCount.toNat ∧
      s'.engine = s.engine.joined i player) ∨
    s'.engine = s.engine.settled.endGameplay.1 := by
  cases h with
  | still hp => exact .inl ⟨_, hs, rfl⟩
  | joined hl hlt hn => exact .inr (.inl ⟨_, _, hl, hlt, hn, rfl⟩)
  | started hl hn hg => exact Bool.noConfusion ((hl.startGameplay hn hg).1.started.symm.trans hs)
  | @acted e e' i msg hg hm hr hh =>
    obtain ⟨events, hlog⟩ := hh.logged hg
    exact Bool.noConfusion (hg.started.symm.trans (hlog.started.symm.trans hs))
  | opened hg hlt he hd => exact Bool.noConfusion (hg.started.symm.trans hs)
  | sent hg hr hc ht => exact Bool.noConfusion (hg.started.symm.trans hs)
  | closed hg hlt => exact Bool.noConfusion (hg.started.symm.trans hs)
  | ended hg hlast => exact .inr (.inr rfl)

theorem Below.played {msgs : List ServerMessage} (h : Below p s) (hw : Wf p s)
    (hc : 0 < p.playersCount) (hs : Played env s s' msgs) : Below p s' := by
  intro hs'
  rcases hs.to_lobby hs' with ⟨handler, hl, he⟩ | ⟨i, player, hl, hlt, hn, he⟩ | he
  · rw [he]
    exact h hl
  · have hbelow : s.engine.nextPlayerId.toNat < p.playersCount.toNat := h hl.started
    rw [hl.size_joined, hw.params] at hn
    rw [he, toNat_joined hlt]
    omega
  · rw [he]
    exact UInt8.lt_iff_toNat_lt.mp hc

theorem Stepped.not_started (h : Stepped env s s' out)
    (hs : s.engine.gameParams.playersCount = 0 ∧ s.engine.gameplayStarted = false) :
    s'.engine.gameParams.playersCount = 0 ∧ s'.engine.gameplayStarted = false := by
  obtain ⟨hc, hstart⟩ := hs
  cases h with
  | openTurn hs hb => exact Bool.noConfusion (hs.symm.trans hstart)
  | greet hn hf he =>
    subst he
    exact ⟨hc, hstart⟩
  | handled hm hr hh =>
    cases hh with
    | @start name address _ _ hs ha hn hg =>
      rw [hc] at hn
      have hempty := Std.ExtTreeMap.eq_empty_iff_size_eq_zero.mpr hn
      simp [GameEngine.joined] at hempty
    | _ => exact ⟨hc, hstart⟩
  | send hs ht => exact Bool.noConfusion (hs.symm.trans hstart)
  | finish =>
    simp only [finishTurn]
    split
    · exact ⟨hc, rfl⟩
    · exact ⟨hc, hstart⟩
  | _ => exact ⟨hc, hstart⟩

theorem Stepped.of_broadcast (h : Stepped env s s' out) (hp : s'.point = .broadcast) :
    s.point = .bottom ∧ s.engine.gameplayStarted = true ∧
      s.engine.sendTurn = .ok (s'.engine, out) := by
  cases h with
  | noMessage hm => exact absurd hp nextClient_ne_broadcast
  | refused hm hr => exact absurd hp nextClient_ne_broadcast
  | handled hm hr hh => exact absurd hp nextClient_ne_broadcast
  | send hstart ht => exact ⟨rfl, hstart, ht⟩
  | _ => cases hp

theorem Stepped.of_gameEnded {scores : StdMap PlayerId Score} (h : Stepped env s s' out)
    (hm : .gameEnded scores ∈ broadcasts out) : s.point = .broadcast ∧ s'.point = .top := by
  cases h with
  | greet hn hf he =>
    rw [sendHello_append_sendHelloState] at hm
    split at hm
    · rw [broadcasts_map_one] at hm
      cases hm
    · cases hm
  | handled hm' hr hh =>
    cases hh with
    | join hs ha hn =>
      simp at hm
    | start hs ha hn hg =>
      obtain ⟨robots, blocks, random, -, -, -, -, rfl, -⟩ := startGameplay_ok hg
      simp at hm
    | _ => cases hm
  | send hs ht =>
    obtain ⟨robots, random, turn, -, -, -, -, -, rfl⟩ := sendTurn_ok ht
    simp at hm
  | finish => exact ⟨rfl, rfl⟩
  | _ => cases hm

section Runs

variable {tr : List (Machine.Step (Server β) Env Sending)}

theorem run_wf_below (hc : 0 < p.playersCount) (h : (machine β p).Run tr s) :
    Wf p s ∧ Below p s := by
  refine h.invariant (I := fun _ s => Wf p s ∧ Below p s)
    ⟨Wf.init, fun _ => UInt8.lt_iff_toNat_lt.mp hc⟩ ?_
  rintro tr s env s' out - ⟨hw, hb⟩ hs
  have hs' := step_stepped hs
  exact ⟨hw.stepped hb.room hs', hb.played hw hc (hw.played hb.room hs')⟩

theorem run_wf (hc : 0 < p.playersCount) (h : (machine β p).Run tr s) : Wf p s :=
  (run_wf_below hc h).1

theorem run_not_started (hc : p.playersCount = 0) (h : (machine β p).Run tr s) :
    s.engine.gameParams.playersCount = 0 ∧ s.engine.gameplayStarted = false :=
  h.invariant (I := fun _ s => s.engine.gameParams.playersCount = 0 ∧
    s.engine.gameplayStarted = false) ⟨hc, rfl⟩
    fun _ _ _ _ _ _ hI hs => (step_stepped hs).not_started hI

theorem playersCount_pos (h : (machine β p).Run tr s) (hs : s.engine.gameplayStarted = true) :
    0 < p.playersCount := by
  by_contra hc
  have hzero : p.playersCount = 0 := by
    rw [UInt8.lt_iff_toNat_lt] at hc
    exact UInt8.toNat_inj.mp (Nat.eq_zero_of_not_pos hc)
  exact Bool.noConfusion (hs.symm.trans (run_not_started hzero h).2)

theorem started_of_broadcast (h : (machine β p).Run tr s) (hp : s.point = .broadcast) :
    s.engine.gameplayStarted = true := by
  cases h with
  | nil => cases hp
  | snoc h hs =>
    obtain ⟨-, hstart, ht⟩ := (step_stepped hs).of_broadcast hp
    obtain ⟨robots, random, turn, -, -, -, he, -, -⟩ := sendTurn_ok ht
    rw [he]
    exact hstart

/-- A game ends behind the broadcast of its last turn, with the scores that the server has kept. -/
theorem ended_of_gameEnded {scores : StdMap PlayerId Score} (hc : 0 < p.playersCount)
    (h : (machine β p).Run tr s) (hs : step s env = .ok (s', out))
    (hm : .gameEnded scores ∈ broadcasts out) :
    s.point = .broadcast ∧ s.engine.currentTurn = p.gameLength ∧ s.engine.scores = scores ∧
      s'.engine = s.engine.settled.endGameplay.1 := by
  obtain ⟨hw, hb⟩ := run_wf_below hc h
  have hp := hw.params
  have hplayed : Played env s s' (broadcasts out) := hw.played hb.room (step_stepped hs)
  generalize broadcasts out = msgs at hplayed hm
  cases hplayed with
  | ended hg hlast =>
    rw [hp] at hlast
    exact ⟨rfl, hlast, (ServerMessage.gameEnded.inj (List.mem_singleton.mp hm)).symm, rfl⟩
  | _ => simp at hm

/--
The rule for a property of what has been broadcast since some state of a run and of the state
reached that is kept by the steps which meet a condition.
-/
theorem path_played_of {I : List ServerMessage → Server β → Prop} {C : Server β → Env → Prop}
    {s₀ : Server β} {tr₀ : List (Machine.Step (Server β) Env Sending)} (hc : 0 < p.playersCount)
    (h₀ : (machine β p).Run tr₀ s₀) (h : (machine β p).Path s₀ tr s)
    (hC : ∀ t ∈ tr, C t.pre t.input) (start : I [] s₀)
    (keep : ∀ env msgs s s' new, Wf p s → I msgs s → C s env → Played env s s' new →
      I (msgs ++ new) s') : I (broadcasts (Machine.log tr)) s := by
  refine h.invariant_of (I := fun tr s => I (broadcasts (Machine.log tr)) s) hC start ?_
  intro tr s env s' out hr hI hC hs
  rw [Machine.log_append, broadcasts_append]
  obtain ⟨hw, hb⟩ := run_wf_below hc (h₀.append hr)
  refine keep env _ s s' _ hw hI hC ?_
  simpa using hw.played hb.room (step_stepped hs)

theorem run_played_of {I : List ServerMessage → Server β → Prop} {C : Server β → Env → Prop}
    (hc : 0 < p.playersCount) (h : (machine β p).Run tr s) (hC : ∀ t ∈ tr, C t.pre t.input)
    (start : I [] (init p))
    (keep : ∀ env msgs s s' new, Wf p s → I msgs s → C s env → Played env s s' new →
      I (msgs ++ new) s') : I (broadcasts (Machine.log tr)) s :=
  path_played_of hc .nil h hC start keep

theorem run_played {I : List ServerMessage → Server β → Prop} (hc : 0 < p.playersCount)
    (h : (machine β p).Run tr s) (start : I [] (init p))
    (keep : ∀ env msgs s s' new, Wf p s → I msgs s → Played env s s' new → I (msgs ++ new) s') :
    I (broadcasts (Machine.log tr)) s :=
  run_played_of (C := fun _ _ => True) hc h (fun _ _ => trivial) start
    fun env msgs s s' new hw hI _ hs => keep env msgs s s' new hw hI hs

/-- The condition holds at every step that is taken once the last GameStarted is broadcast. -/
def SinceStarted (C : Server β → Env → Prop) (tr : List (Machine.Step (Server β) Env Sending)) :
    Prop :=
  ∀ earlier t later, tr = earlier ++ t :: later →
    (∀ players, .gameStarted players ∉ broadcasts (Machine.log (t :: later))) → C t.pre t.input

omit [PositionSet β] in
theorem sinceStarted_of_forall {C : Server β → Env → Prop} (h : ∀ t ∈ tr, C t.pre t.input) :
    SinceStarted C tr := by
  intro earlier t later heq _
  exact h t (by simp [heq])

omit [PositionSet β] in
theorem sinceStarted_of_drop {C : Server β → Env → Prop} {n : ℕ}
    {t : Machine.Step (Server β) Env Sending} {players : StdMap PlayerId Player}
    (ht : tr[n]? = some t) (hstart : .gameStarted players ∈ broadcasts t.out)
    (h : ∀ u ∈ tr.drop (n + 1), C u.pre u.input) : SinceStarted C tr := by
  rintro earlier u later rfl hnone
  rcases Nat.lt_or_ge n earlier.length with hn | hn
  · refine h u ?_
    rw [List.drop_append_of_le_length hn]
    simp
  · rw [List.getElem?_append_right hn] at ht
    obtain ⟨before, after, heq⟩ := List.append_of_mem (List.mem_of_getElem? ht)
    refine absurd ?_ (hnone players)
    rw [heq, Machine.log_append, Machine.log_cons]
    simp [broadcasts_append, hstart]

/-- A game keeps what all its steps keep that meet the condition. -/
theorem run_played_since {I : Server β → Prop} {C : Server β → Env → Prop}
    (hc : 0 < p.playersCount) (h : (machine β p).Run tr s) (hC : SinceStarted C tr)
    (lobby : ∀ (tr : List (Machine.Step (Server β) Env Sending)) (s : Server β),
      (machine β p).Run tr s → s.engine.gameplayStarted = false → I s)
    (keep : ∀ (env : Env) (s s' : Server β) (new : List ServerMessage), I s →
      (s.engine.gameplayStarted = true → C s env) → Played env s s' new → I s') : I s := by
  induction h with
  | nil => exact lobby _ _ .nil rfl
  | @snoc tr s s' env out h hs ih =>
    obtain ⟨hw, hb⟩ := run_wf_below hc h
    have hplayed : Played env s s' (broadcasts out) := hw.played hb.room (step_stepped hs)
    by_cases hstart : s.engine.gameplayStarted = false
    · exact keep env s s' _ (lobby _ _ h hstart)
        (fun hs => Bool.noConfusion (hstart.symm.trans hs)) hplayed
    have hnew : ∀ players, .gameStarted players ∉ broadcasts out := by
      intro players hm
      generalize broadcasts out = new at hplayed hm
      cases hplayed with
      | started hl hn hg => exact hstart hl.started
      | _ => simp at hm
    refine keep env s s' _ (ih fun earlier t later heq hnone => ?_) (fun _ => ?_) hplayed
    · refine hC earlier t (later ++ [⟨s, env, out, s'⟩]) (by simp [heq]) fun players hm => ?_
      rw [← List.cons_append, Machine.log_append, broadcasts_append, List.mem_append] at hm
      exact hm.elim (hnone players) (by simpa using hnew players)
    · exact hC tr ⟨s, env, out, s'⟩ [] rfl (by simpa using hnew)

end Runs

end Server

end Bomberrobots
