import Bomberrobots.Library.Machine
import Bomberrobots.Server.Receive

/-! # The main loop of the server

`manage_connections` as a machine with a program counter. One step is one call of
the loop body to the engine or the handler, so that every state between two calls
is a state of the machine. A state without a further step is a run cut short: by a
signal, by a failing `poll`, or by the process still waiting.
-/

namespace Bomberrobots

/-- The program points of the loop of `manage_connections`. -/
inductive Point
  /-- The head of the loop. -/
  | top
  /-- Before `poll`. -/
  | poll
  /-- Before the test for a new connection. -/
  | accept
  /-- Before the test for a message of one client. -/
  | client (i : Slot)
  /-- Before `summarise_turn`. -/
  | bottom
  /-- Inside `summarise_turn`, behind the broadcast of the turn. -/
  | broadcast
  deriving DecidableEq

/--
What the rest of the system supplies to a step: the result of `poll` (`none` where
nothing is reported or a signal asked the server to stop), of `accept` and of `read`,
and the value of the uninitialised local of the move handler. A step uses what it needs.
A failing `poll` ends the process, and so a run.
-/
structure Env where
  polled : Option (Slot → Revents)
  accepted : Accepted
  received : Option Bytes
  uninitialised : Position

def Env.ready (slots : List Slot) (accepted : Accepted) (received : Option Bytes) : Env where
  polled := some fun i => ⟨slots.contains i, false⟩
  accepted := accepted
  received := received
  uninitialised := default

structure Server (β : Type) where
  engine : GameEngine β
  point : Point

namespace Server

variable {β : Type} [PositionSet β]

def init (p : ServerParameters) : Server β := ⟨.new p, .top⟩

/--
The slot that is greeted. `int i = accept_client() >= 0` binds the comparison to `i`,
so it is the slot 1 whatever slot the client got.
-/
def greetedSlot (accepted : Option Slot) : Option Slot :=
  accepted.map fun _ => 1

def acceptStep (e : GameEngine β) (client : Accepted) : GameEngine β × List Sending :=
  let (accepted, tcpHandler) := e.tcpHandler.acceptClient client
  let e := { e with tcpHandler := tcpHandler }
  match greetedSlot accepted with
  | some i => (e, e.sendHello i ++ e.sendHelloState i)
  | none => (e, [])

def clientStep (e : GameEngine β) (i : Slot) (env : Env) :
    Except Fault (GameEngine β × List Sending) := do
  let (status, e, sent) ← e.handleMsg i env.received env.uninitialised
  pure ({ e with tcpHandler := e.tcpHandler.reportMsgStatus status i }, sent)

def nextClient (i : Slot) : Point :=
  if h : i.val + 1 < 26 then .client ⟨i.val + 1, h⟩ else .bottom

def step (s : Server β) (env : Env) : Except Fault (Server β × List Sending) :=
  let e := s.engine
  match s.point with
  | .top =>
    let e := { e with tcpHandler := e.tcpHandler.resetRevents }
    if e.gameplayStarted then do
      let e ← e.beginTurn
      pure (⟨e, .poll⟩, [])
    else .ok (⟨e, .poll⟩, [])
  | .poll =>
    match env.polled with
    | none => .ok (⟨e, .bottom⟩, [])
    | some reported => .ok (⟨{ e with tcpHandler := e.tcpHandler.pollExec reported }, .accept⟩, [])
  | .accept =>
    if e.tcpHandler.isNewConnection then
      let (e, sent) := acceptStep e env.accepted
      .ok (⟨e, .client 1⟩, sent)
    else .ok (⟨e, .client 1⟩, [])
  | .client i =>
    if e.tcpHandler.isMessageFrom i then do
      let (e, sent) ← clientStep e i env
      pure (⟨e, nextClient i⟩, sent)
    else .ok (⟨e, nextClient i⟩, [])
  | .bottom =>
    if e.gameplayStarted then do
      let (e, sent) ← e.sendTurn
      pure (⟨e, .broadcast⟩, sent)
    else .ok (⟨e, .top⟩, [])
  | .broadcast =>
    let (e, sent) := e.finishTurn
    .ok (⟨e, .top⟩, sent)

def machine (β : Type) [PositionSet β] (p : ServerParameters) :
    Machine (Server β) Env Sending Fault := ⟨init p, step⟩

/--
The inputs of one pass of the loop, where every ready client sends the same bytes.
A pass takes one step more while a game is running at its end.
-/
def pass (playing : Bool) (env : Env) : List Env :=
  List.replicate (if playing then 30 else 29) env

end Server

end Bomberrobots
