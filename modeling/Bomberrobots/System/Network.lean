import Bomberrobots.Client.Input
import Bomberrobots.Client.Receive
import Bomberrobots.Library.Mailbox
import Bomberrobots.Server.Greeting

/-! # The server and its clients

A robots-client at the other end of every connection. Messages and bytes in both directions
wait in queues until somebody takes them, and the two threads of a client, the GUI and the
server take turns in any order.
-/

namespace Bomberrobots

/-- A robots-client with its connection to the server. -/
structure Peer (γ : Type) where
  /-- The globals, and the messages of the server that are not handled yet. -/
  mailbox : Mailbox (Client γ) ServerMessage
  name : Bytes
  input : GuiInput
  /-- What the thread for the GUI has decided to send and not sent. -/
  pending : Bytes
  /-- What has been sent and not been read. -/
  outbox : Bytes

namespace Peer

variable {γ : Type}

def stream (peer : Peer γ) : Bytes := peer.outbox ++ peer.pending

def deliver (peer : Peer γ) (msgs : List ServerMessage) : Peer γ :=
  { peer with mailbox := peer.mailbox.deliver msgs }

def read (peer : Peer γ) (n : ℕ) : Peer γ := { peer with outbox := peer.outbox.drop n }

/-- `handle_gui_message` up to the call of `send_server_message`. -/
def handleGuiMessage (peer : Peer γ) (datagram : Bytes) : Peer γ :=
  match peer.mailbox.process with
  | none => peer
  | some c =>
    if peer.pending.isEmpty then
      let sent := (Bomberrobots.handleGuiMessage c.isLobbyStatus peer.name datagram).run peer.input
      { peer with input := sent.2, pending := sent.1.getD [] }
    else peer

def sendServerMessage (peer : Peer γ) : Peer γ :=
  match peer.mailbox.process with
  | none => peer
  | some _ => { peer with pending := [], outbox := peer.outbox ++ peer.pending }

@[simp] theorem mailbox_handleGuiMessage {peer : Peer γ} {datagram : Bytes} :
    (peer.handleGuiMessage datagram).mailbox = peer.mailbox := by
  unfold handleGuiMessage
  split
  · rfl
  · split <;> rfl

@[simp] theorem mailbox_sendServerMessage {peer : Peer γ} :
    peer.sendServerMessage.mailbox = peer.mailbox := by
  unfold sendServerMessage
  split <;> rfl

variable [PositionSet γ]

def new (name : Bytes) : Peer γ := ⟨⟨some .init, []⟩, name, ⟨fun _ => 0, 0, 0⟩, [], []⟩

def handleServerMessage (peer : Peer γ) : Peer γ :=
  { peer with mailbox := peer.mailbox.handle Client.handleServerMessage }

end Peer

structure Network (β γ : Type) where
  server : Server β
  peers : Slot → Peer γ

/--
What the system supplies to a step of the server, as in `Env`. Instead of bytes it says how
many of those on their way arrive, where no byte is the end of the connection, and it says
the parameter of a client that connects.
-/
structure Supply where
  polled : Option (Slot → Revents)
  accepted : Accepted
  arrived : Option ℕ
  uninitialised : Position
  name : Bytes

/-- What happens next. -/
inductive Activity
  /-- The server takes a step. -/
  | serve (x : Supply)
  /-- A client handles a message of the server. -/
  | handle (i : Slot)
  /-- A client receives a datagram from its GUI. -/
  | command (i : Slot) (datagram : Bytes)
  /-- A client sends what it has decided to send. -/
  | send (i : Slot)

namespace Network

variable {β γ : Type} [PositionSet β] [PositionSet γ]

def init (p : ServerParameters) : Network β γ := ⟨.init p, fun _ => .new []⟩

/-- The slot that the next step of the server reads from. -/
def readSlot (s : Server β) : Option Slot :=
  match s.point with
  | .client i => if s.engine.tcpHandler.isMessageFrom i then some i else none
  | _ => none

def arriving (n : Network β γ) (arrived : Option ℕ) : Option Bytes :=
  match readSlot n.server with
  | some i => arrived.map fun k => ((n.peers i).outbox.take k).take 256
  | none => none

def env (n : Network β γ) (x : Supply) : Env :=
  ⟨x.polled, x.accepted, n.arriving x.arrived, x.uninitialised⟩

/-- The client of a slot behind a step of the server that sends the messages `out`. -/
def served (n : Network β γ) (x : Supply) (out : List Sending) (i : Slot) : Peer γ :=
  let peer :=
    if n.server.acceptedSlot = some i then .new x.name
    else if readSlot n.server = some i then (n.peers i).read (min (x.arrived.getD 0) 256)
    else n.peers i
  peer.deliver (sentTo i out)

def step (n : Network β γ) : Activity → Except Fault (Network β γ × List Sending)
  | .serve x => do
    let (server, out) ← n.server.step (n.env x)
    pure (⟨server, n.served x out⟩, out)
  | .handle i =>
    .ok (⟨n.server, Function.update n.peers i (n.peers i).handleServerMessage⟩, [])
  | .command i datagram =>
    .ok (⟨n.server, Function.update n.peers i ((n.peers i).handleGuiMessage datagram)⟩, [])
  | .send i => .ok (⟨n.server, Function.update n.peers i (n.peers i).sendServerMessage⟩, [])

def machine (β γ : Type) [PositionSet β] [PositionSet γ] (p : ServerParameters) :
    Machine (Network β γ) Activity Sending Fault := ⟨init p, step⟩

variable {p : ServerParameters} {n n' : Network β γ} {act : Activity} {out : List Sending}

/-- What a step does, to the server or to a single client. -/
inductive Stepped (n : Network β γ) : Activity → Network β γ → List Sending → Prop
  | serve {x : Supply} {s : Server β} {out : List Sending}
      (h : n.server.step (n.env x) = .ok (s, out)) : Stepped n (.serve x) ⟨s, n.served x out⟩ out
  | handle {i : Slot} : Stepped n (.handle i)
      ⟨n.server, Function.update n.peers i (n.peers i).handleServerMessage⟩ []
  | command {i : Slot} {datagram : Bytes} : Stepped n (.command i datagram)
      ⟨n.server, Function.update n.peers i ((n.peers i).handleGuiMessage datagram)⟩ []
  | send {i : Slot} : Stepped n (.send i)
      ⟨n.server, Function.update n.peers i (n.peers i).sendServerMessage⟩ []

theorem step_stepped (h : n.step act = .ok (n', out)) : Stepped n act n' out := by
  cases act with
  | serve x =>
    obtain ⟨⟨s, sent⟩, hs, h⟩ := Except.bind_eq_ok_iff.mp h
    obtain ⟨rfl, rfl⟩ := Prod.mk.inj (Except.pure_eq_ok.mp h)
    exact .serve hs
  | handle i =>
    obtain ⟨rfl, rfl⟩ := Prod.mk.inj (Except.ok.inj h)
    exact .handle
  | command i datagram =>
    obtain ⟨rfl, rfl⟩ := Prod.mk.inj (Except.ok.inj h)
    exact .command
  | send i =>
    obtain ⟨rfl, rfl⟩ := Prod.mk.inj (Except.ok.inj h)
    exact .send

theorem step_error {f : Fault} (h : n.step act = .error f) :
    ∃ x, act = .serve x ∧ n.server.step (n.env x) = .error f := by
  cases act with
  | serve x =>
    rcases Except.bind_eq_error_iff.mp h with h | ⟨r, -, h⟩
    · exact ⟨x, rfl, h⟩
    · exact absurd h Except.pure_ne_error
  | _ => cases h

/-- In a run of the system the server runs. -/
theorem run_server {tr : List (Machine.Step (Network β γ) Activity Sending)}
    (h : (machine β γ p).Run tr n) : ∃ tr', (Server.machine β p).Run tr' n.server ∧
      Machine.log tr' = Machine.log tr := by
  refine h.invariant (I := fun tr n => ∃ tr', (Server.machine β p).Run tr' n.server ∧
    Machine.log tr' = Machine.log tr) ⟨[], .nil, rfl⟩ ?_
  rintro tr n act n' out - ⟨tr', hr, hlog⟩ hs
  cases step_stepped hs with
  | serve hstep => exact ⟨_, .snoc hr hstep, by simp [hlog]⟩
  | handle => exact ⟨tr', hr, by simp [hlog]⟩
  | command => exact ⟨tr', hr, by simp [hlog]⟩
  | send => exact ⟨tr', hr, by simp [hlog]⟩

/-- Steps of the server in which the given slots are ready and some bytes arrive. -/
def serve (steps : ℕ) (slots : List Slot) (arrived : ℕ) : List Activity :=
  List.replicate steps
    (.serve ⟨some fun i => ⟨slots.contains i, false⟩, ⟨some 5, []⟩, some arrived, default, []⟩)

def connects : List Activity := serve 29 [0] 0 ++ [.handle 1]

def presses : List Activity := [.command 1 [0], .send 1]

end Network

end Bomberrobots
