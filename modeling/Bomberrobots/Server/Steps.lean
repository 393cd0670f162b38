import Bomberrobots.Server.Actions
import Bomberrobots.Server.Connections

/-! # What a step of the main loop does

`Stepped` inverts the step function once: one case for each way through the loop body,
with what the case says about the system and about the engine.
-/

namespace Bomberrobots

namespace GameEngine

variable {β : Type}

def withHandler (e : GameEngine β) (h : ServerTcpHandler) : GameEngine β :=
  { e with tcpHandler := h }

/-- The messages of a greeting: the Hello and the state at that moment. -/
def greeting (e : GameEngine β) : List ServerMessage :=
  e.helloMsg :: if e.gameplayStarted then .gameStarted e.players :: e.turns.map .turn
    else e.players.toList.map fun player => .acceptedPlayer player.1 player.2

theorem sendHello_append_sendHelloState {e : GameEngine β} {i : Slot} :
    e.sendHello i ++ e.sendHelloState i =
      if (e.tcpHandler.fd i).isSome then e.greeting.map (.one i) else [] := by
  have hflat : ∀ {α : Type} (l : List α) (f : α → ServerMessage),
      (l.flatMap fun a => [Sending.one i (f a)]) = (l.map f).map (.one i) := by
    intro α l f
    rw [List.map_map, List.map_eq_flatMap]
    rfl
  unfold sendHello sendHelloState sendGameStarted sendAllTurns sendAllAcceptedPlayer greeting
    ServerTcpHandler.sendMessage
  split
  · split
    · simp [hflat]
    · simp [hflat]
  · split <;> simp

variable [PositionSet β] {e e' : GameEngine β} {i : Slot} {u : Position} {received : Option Bytes}
  {status : MessageRecvStatus} {sent : List Sending} {f : Fault}

theorem readFrom_ne_success : (readFrom received).1 ≠ .success := by
  unfold readFrom
  split <;> simp

theorem handleMsg_of_some {msg : ClientMessage} (hr : receivedMessage received = some msg) :
    e.handleMsg i received u =
      e.handleClientMessage i u msg >>= fun r => pure (.success, r.1, r.2) := by
  unfold receivedMessage at hr
  unfold handleMsg
  rcases hx : readFrom received with ⟨status, buf⟩
  rw [hx] at hr
  cases status <;> simp only [reduceCtorEq] at hr
  simp only [hr]

theorem handleMsg_of_none (hr : receivedMessage received = none) :
    ∃ status, status ≠ .success ∧ e.handleMsg i received u = .ok (status, e, []) := by
  have hs : (readFrom received).1 ≠ .success := readFrom_ne_success
  unfold receivedMessage at hr
  unfold handleMsg
  rcases hx : readFrom received with ⟨status, buf⟩
  rw [hx] at hr hs
  cases status with
  | potentiallySuccess =>
    simp only at hr
    exact ⟨.errorMsg, by simp, by simp only [hr]⟩
  | errorConn => exact ⟨_, hs, rfl⟩
  | errorMsg => exact ⟨_, hs, rfl⟩
  | endConn => exact ⟨_, hs, rfl⟩
  | success => exact absurd rfl hs

theorem handleMsg_ok (h : e.handleMsg i received u = .ok (status, e', sent)) :
    (receivedMessage received = none ∧ status ≠ .success ∧ e' = e ∧ sent = []) ∨
    ∃ msg, receivedMessage received = some msg ∧ status = .success ∧
      Handled e i u msg e' sent := by
  cases hr : receivedMessage received with
  | none =>
    obtain ⟨status', hs, he⟩ := handleMsg_of_none (e := e) (i := i) (u := u) hr
    obtain ⟨rfl, rfl, rfl⟩ : status' = status ∧ e = e' ∧ [] = sent := by simpa [he] using h
    exact .inl ⟨rfl, hs, rfl, rfl⟩
  | some msg =>
    rw [handleMsg_of_some hr] at h
    obtain ⟨⟨e₁, sent₁⟩, h₁, h⟩ := Except.bind_eq_ok_iff.mp h
    obtain ⟨rfl, rfl, rfl⟩ : .success = status ∧ e₁ = e' ∧ sent₁ = sent := by
      simpa using Except.pure_eq_ok.mp h
    exact .inr ⟨msg, rfl, rfl, handleClientMessage_ok h₁⟩

end GameEngine

theorem ServerTcpHandler.reportMsgStatus_of_ne {h : ServerTcpHandler} {i : Slot}
    {status : MessageRecvStatus} (hs : status ≠ .success) :
    h.reportMsgStatus status i = h.reportMsgStatus .errorMsg i := by
  simp [reportMsgStatus, hs]

namespace Server

open GameEngine

variable {β : Type} {env : Env} {s s' : Server β} {out : List Sending}

theorem acceptStep_eq {e : GameEngine β} {client : Accepted} :
    acceptStep e client =
      let e' := e.withHandler (e.tcpHandler.acceptClient client).2
      (e', if e.tcpHandler.freeSlot = none then [] else e'.sendHello 1 ++ e'.sendHelloState 1) := by
  unfold acceptStep ServerTcpHandler.acceptClient
  cases hf : e.tcpHandler.freeSlot <;> rfl

variable [PositionSet β]

/-- The ways through one step of the loop. -/
inductive Stepped (env : Env) : Server β → Server β → List Sending → Prop
  | lobby {e : GameEngine β} (hs : e.gameplayStarted = false) :
      Stepped env ⟨e, .top⟩ ⟨e.withHandler e.tcpHandler.resetRevents, .poll⟩ []
  | openTurn {e e' : GameEngine β} (hs : e.gameplayStarted = true)
      (hb : (e.withHandler e.tcpHandler.resetRevents).beginTurn = .ok e') :
      Stepped env ⟨e, .top⟩ ⟨e', .poll⟩ []
  | quiet {e : GameEngine β} (hp : env.polled = none) : Stepped env ⟨e, .poll⟩ ⟨e, .bottom⟩ []
  | polled {e : GameEngine β} {reported : Slot → Revents} (hp : env.polled = some reported) :
      Stepped env ⟨e, .poll⟩ ⟨e.withHandler (e.tcpHandler.pollExec reported), .accept⟩ []
  | noClient {e : GameEngine β} (hn : e.tcpHandler.isNewConnection = false) :
      Stepped env ⟨e, .accept⟩ ⟨e, .client 1⟩ []
  | full {e : GameEngine β} (hn : e.tcpHandler.isNewConnection = true)
      (hf : e.tcpHandler.freeSlot = none) :
      Stepped env ⟨e, .accept⟩
        ⟨e.withHandler (e.tcpHandler.acceptClient env.accepted).2, .client 1⟩ []
  | greet {e e' : GameEngine β} {j : Slot} (hn : e.tcpHandler.isNewConnection = true)
      (hf : e.tcpHandler.freeSlot = some j)
      (he : e' = e.withHandler (e.tcpHandler.acceptClient env.accepted).2) :
      Stepped env ⟨e, .accept⟩ ⟨e', .client 1⟩ (e'.sendHello 1 ++ e'.sendHelloState 1)
  | noMessage {e : GameEngine β} {i : Slot} (hm : e.tcpHandler.isMessageFrom i = false) :
      Stepped env ⟨e, .client i⟩ ⟨e, nextClient i⟩ []
  | refused {e : GameEngine β} {i : Slot} (hm : e.tcpHandler.isMessageFrom i = true)
      (hr : receivedMessage env.received = none) :
      Stepped env ⟨e, .client i⟩
        ⟨e.withHandler (e.tcpHandler.reportMsgStatus .errorMsg i), nextClient i⟩ []
  | handled {e e' : GameEngine β} {i : Slot} {msg : ClientMessage} {sent : List Sending}
      (hm : e.tcpHandler.isMessageFrom i = true) (hr : receivedMessage env.received = some msg)
      (hh : Handled e i env.uninitialised msg e' sent) :
      Stepped env ⟨e, .client i⟩ ⟨e', nextClient i⟩ sent
  | rest {e : GameEngine β} (hs : e.gameplayStarted = false) :
      Stepped env ⟨e, .bottom⟩ ⟨e, .top⟩ []
  | send {e e' : GameEngine β} {sent : List Sending} (hs : e.gameplayStarted = true)
      (ht : e.sendTurn = .ok (e', sent)) : Stepped env ⟨e, .bottom⟩ ⟨e', .broadcast⟩ sent
  | finish {e : GameEngine β} : Stepped env ⟨e, .broadcast⟩ ⟨e.finishTurn.1, .top⟩ e.finishTurn.2

theorem step_stepped (h : step s env = .ok (s', out)) : Stepped env s s' out := by
  obtain ⟨e, point⟩ := s
  unfold step at h
  cases point with
  | top =>
    dsimp only at h
    split at h
    · obtain ⟨e', hb, h⟩ := Except.bind_eq_ok_iff.mp h
      obtain ⟨rfl, rfl⟩ := Prod.mk.inj (Except.pure_eq_ok.mp h)
      exact .openTurn ‹_› hb
    · rename_i hs
      obtain ⟨rfl, rfl⟩ := Prod.mk.inj (Except.ok.inj h)
      exact .lobby (by simpa using hs)
  | poll =>
    dsimp only at h
    split at h
    · obtain ⟨rfl, rfl⟩ := Prod.mk.inj (Except.ok.inj h)
      exact .quiet ‹_›
    · obtain ⟨rfl, rfl⟩ := Prod.mk.inj (Except.ok.inj h)
      exact .polled ‹_›
  | accept =>
    dsimp only at h
    split at h
    · rw [acceptStep_eq] at h
      obtain ⟨rfl, rfl⟩ := Prod.mk.inj (Except.ok.inj h)
      cases hf : e.tcpHandler.freeSlot with
      | none => exact .full ‹_› hf
      | some j => exact .greet ‹_› hf rfl
    · rename_i hn
      obtain ⟨rfl, rfl⟩ := Prod.mk.inj (Except.ok.inj h)
      exact .noClient (by simpa using hn)
  | client i =>
    dsimp only at h
    split at h
    · obtain ⟨⟨e', sent⟩, hc, h⟩ := Except.bind_eq_ok_iff.mp h
      obtain ⟨rfl, rfl⟩ := Prod.mk.inj (Except.pure_eq_ok.mp h)
      obtain ⟨⟨status, e₁, sent₁⟩, hm, hc⟩ := Except.bind_eq_ok_iff.mp hc
      obtain ⟨rfl, rfl⟩ := Prod.mk.inj (Except.pure_eq_ok.mp hc)
      rcases handleMsg_ok hm with ⟨hr, hs, rfl, rfl⟩ | ⟨msg, hr, rfl, hh⟩
      · rw [ServerTcpHandler.reportMsgStatus_of_ne hs]
        exact .refused ‹_› hr
      · exact .handled ‹_› hr hh
    · rename_i hn
      obtain ⟨rfl, rfl⟩ := Prod.mk.inj (Except.ok.inj h)
      exact .noMessage (by simpa using hn)
  | bottom =>
    dsimp only at h
    split at h
    · obtain ⟨⟨e', sent⟩, ht, h⟩ := Except.bind_eq_ok_iff.mp h
      obtain ⟨rfl, rfl⟩ := Prod.mk.inj (Except.pure_eq_ok.mp h)
      exact .send ‹_› ht
    · rename_i hs
      obtain ⟨rfl, rfl⟩ := Prod.mk.inj (Except.ok.inj h)
      exact .rest (by simpa using hs)
  | broadcast =>
    obtain ⟨rfl, rfl⟩ := Prod.mk.inj (Except.ok.inj h)
    exact .finish

/-- The ways in which a step can fail. -/
theorem step_error {f : Fault} (h : step s env = .error f) :
    (s.point = .top ∧ s.engine.gameplayStarted = true ∧
      (s.engine.withHandler s.engine.tcpHandler.resetRevents).beginTurn = .error f) ∨
    (∃ i msg, s.point = .client i ∧ s.engine.tcpHandler.isMessageFrom i = true ∧
      receivedMessage env.received = some msg ∧
      s.engine.handleClientMessage i env.uninitialised msg = .error f) ∨
    (s.point = .bottom ∧ s.engine.gameplayStarted = true ∧ s.engine.sendTurn = .error f) := by
  obtain ⟨e, point⟩ := s
  unfold step at h
  cases point with
  | top =>
    dsimp only at h
    split at h
    · rcases Except.bind_eq_error_iff.mp h with h | ⟨e', -, h⟩
      · exact .inl ⟨rfl, ‹_›, h⟩
      · exact absurd h Except.pure_ne_error
    · cases h
  | poll =>
    dsimp only at h
    split at h <;> cases h
  | accept =>
    dsimp only at h
    split at h <;> cases h
  | client i =>
    dsimp only at h
    split at h
    · rcases Except.bind_eq_error_iff.mp h with h | ⟨r, -, h⟩
      · rcases Except.bind_eq_error_iff.mp h with h | ⟨r, -, h⟩
        · cases hr : receivedMessage env.received with
          | none =>
            obtain ⟨status, -, he⟩ :=
              handleMsg_of_none (e := e) (i := i) (u := env.uninitialised) hr
            rw [he] at h
            cases h
          | some msg =>
            rw [handleMsg_of_some hr] at h
            rcases Except.bind_eq_error_iff.mp h with h | ⟨r, -, h⟩
            · exact .inr (.inl ⟨i, msg, rfl, ‹_›, rfl, h⟩)
            · exact absurd h Except.pure_ne_error
        · exact absurd h Except.pure_ne_error
      · exact absurd h Except.pure_ne_error
    · cases h
  | bottom =>
    dsimp only at h
    split at h
    · rcases Except.bind_eq_error_iff.mp h with h | ⟨r, -, h⟩
      · exact .inr (.inr ⟨rfl, ‹_›, h⟩)
      · exact absurd h Except.pure_ne_error
    · cases h
  | broadcast => cases h

theorem step_error_of_handleClientMessage {e : GameEngine β} {i : Slot} {msg : ClientMessage}
    {f : Fault} (hm : e.tcpHandler.isMessageFrom i = true)
    (hr : receivedMessage env.received = some msg)
    (h : e.handleClientMessage i env.uninitialised msg = .error f) :
    step ⟨e, .client i⟩ env = .error f := by
  have hm' : e.handleMsg i env.received env.uninitialised = .error f := by
    rw [handleMsg_of_some hr, h]
    rfl
  simp only [step, hm, if_true, clientStep, hm']
  rfl

end Server

end Bomberrobots
