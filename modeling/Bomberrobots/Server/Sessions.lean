import Bomberrobots.Server.Game

/-! # Connections

A connection occupies its slot from the call of `accept_client` that returned the slot
until the slot is closed. Whatever a step sends, it sends to slots that are open.
-/

namespace Bomberrobots

namespace Sending

def reaching (i : Slot) : Sending → List ServerMessage
  | .one j msg => if i = j then [msg] else []
  | .all slots msg => if i ∈ slots then [msg] else []

end Sending

def sentTo (i : Slot) (log : List Sending) : List ServerMessage := log.flatMap (Sending.reaching i)

@[simp] theorem sentTo_nil {i : Slot} : sentTo i [] = [] := rfl

@[simp] theorem sentTo_append {i : Slot} {log log' : List Sending} :
    sentTo i (log ++ log') = sentTo i log ++ sentTo i log' :=
  List.flatMap_append

theorem sentTo_map_one {i j : Slot} {msgs : List ServerMessage} :
    sentTo i (msgs.map (.one j)) = if i = j then msgs else [] := by
  split
  · subst i
    induction msgs with
    | nil => rfl
    | cons msg msgs ih => simpa [sentTo, Sending.reaching] using ih
  · simp [sentTo, Sending.reaching, *]

namespace Server

open GameEngine

variable {β : Type}

def fd (s : Server β) (i : Slot) : Option Nat := s.engine.tcpHandler.fd i

/-- The slot that a step gives to a new connection. -/
def acceptedSlot (s : Server β) : Option Slot :=
  match s.point with
  | .accept =>
    if s.engine.tcpHandler.isNewConnection then s.engine.tcpHandler.freeSlot else none
  | _ => none

/-- The message that a step handles, with the slot it comes from. -/
def handledMessage (s : Server β) (env : Env) : Option (Slot × ClientMessage) :=
  match s.point with
  | .client i =>
    if s.engine.tcpHandler.isMessageFrom i then
      (receivedMessage env.received).map fun msg => (i, msg)
    else none
  | _ => none

def closedSlot (s : Server β) (env : Env) : Option Slot :=
  match s.point with
  | .client i =>
    if s.engine.tcpHandler.isMessageFrom i && (receivedMessage env.received).isNone then some i
    else none
  | _ => none

theorem acceptedSlot_eq_some {s : Server β} {i : Slot} (h : acceptedSlot s = some i) :
    s.point = .accept ∧ s.engine.tcpHandler.isNewConnection = true ∧
      s.engine.tcpHandler.freeSlot = some i := by
  unfold acceptedSlot at h
  split at h
  · rename_i hp
    split at h
    · exact ⟨hp, ‹_›, h⟩
    · cases h
  · cases h

theorem handledMessage_eq_some_iff {s : Server β} {env : Env} {i : Slot} {msg : ClientMessage} :
    handledMessage s env = some (i, msg) ↔
      s.point = .client i ∧ s.engine.tcpHandler.isMessageFrom i = true ∧
        receivedMessage env.received = some msg := by
  unfold handledMessage
  split
  · rename_i j hp
    rw [hp, Point.client.injEq]
    split
    · rw [Option.map_eq_some_iff]
      constructor
      · rintro ⟨msg', hr, he⟩
        obtain ⟨rfl, rfl⟩ := Prod.mk.inj he
        exact ⟨rfl, ‹_›, hr⟩
      · rintro ⟨rfl, -, hr⟩
        exact ⟨msg, hr, rfl⟩
    · rename_i hm
      constructor
      · rintro ⟨⟩
      · rintro ⟨rfl, hm', -⟩
        exact absurd hm' hm
  · rename_i hp
    constructor
    · rintro ⟨⟩
    · rintro ⟨hp', -⟩
      exact absurd hp' (hp i)

theorem isSome_fd_of_isMessageFrom {h : ServerTcpHandler} {i : Slot}
    (hm : h.isMessageFrom i = true) : (h.fd i).isSome := by
  rw [ServerTcpHandler.isMessageFrom, Bool.and_eq_true] at hm
  exact hm.1

variable [PositionSet β] {s s' : Server β} {env : Env} {out : List Sending}

/-- A slot keeps its descriptor unless the step accepts into it or closes it. -/
theorem Stepped.fd_eq (h : Stepped env s s' out) (i : Slot) :
    s'.fd i = if s.acceptedSlot = some i then env.accepted.fd
      else if s.closedSlot env = some i then none else s.fd i := by
  cases h with
  | lobby hs => rfl
  | openTurn hs hb => simp [acceptedSlot, closedSlot, Server.fd, beginTurn_tcpHandler hb]; rfl
  | quiet hp => rfl
  | polled hp => rfl
  | noClient hn => simp [acceptedSlot, closedSlot, hn, Server.fd]
  | full hn hf =>
    simp [acceptedSlot, closedSlot, hn, hf, Server.fd, withHandler,
      ServerTcpHandler.acceptClient_of_none hf]
    rfl
  | @greet e e' j hn hf he =>
    subst he
    simp [acceptedSlot, closedSlot, hn, hf, Server.fd, withHandler,
      ServerTcpHandler.fd_acceptClient_of_some hf, eq_comm]
  | noMessage hm => simp [acceptedSlot, closedSlot, hm, Server.fd]
  | refused hm hr =>
    simp [acceptedSlot, closedSlot, hm, hr, Server.fd, withHandler,
      ServerTcpHandler.fd_reportMsgStatus, eq_comm]
  | handled hm hr hh => simp [acceptedSlot, closedSlot, hr, Server.fd, hh.frame.1]
  | rest hs => rfl
  | send hs ht =>
    obtain ⟨robots, random, turn, -, -, -, rfl, -, -⟩ := sendTurn_ok ht
    rfl
  | finish =>
    simp only [Server.fd, finishTurn]
    split <;> rfl

theorem Stepped.handled_of_handledMessage {i : Slot} {msg : ClientMessage}
    (h : Stepped env s s' out) (hm : s.handledMessage env = some (i, msg)) :
    Handled s.engine i env.uninitialised msg s'.engine out := by
  obtain ⟨hp, hm, hr⟩ := handledMessage_eq_some_iff.mp hm
  cases h with
  | noMessage hn =>
    obtain rfl := Point.client.inj hp
    exact Bool.noConfusion (hm.symm.trans hn)
  | refused hn hr' => exact absurd (hr.symm.trans hr') (by simp)
  | handled hn hr' hh =>
    obtain rfl := Point.client.inj hp
    obtain rfl := Option.some.inj (hr.symm.trans hr')
    exact hh
  | _ => cases hp

end Server

end Bomberrobots
