import Bomberrobots.Server.Turn

/-! # Client messages

Parsing of a received buffer and the four message handlers. A buffer may hold
several messages, of which only the last one is handled.
-/

namespace Bomberrobots

inductive ClientMessage
  | join (name : Bytes)
  | placeBomb
  | placeBlock
  | move (direction : Direction)
  deriving DecidableEq

/-- One pass of the parse loop of `handle_msg`: a message code and what belongs to it. -/
def readMessage (buf : Bytes) : Option (ClientMessage × Bytes) := do
  let (code, buf) ← readUint8 buf
  if code = 0 then
    let (name, buf) ← readString buf
    some (.join name, buf)
  else if code = 1 then some (.placeBomb, buf)
  else if code = 2 then some (.placeBlock, buf)
  else if code = 3 then
    let (direction, buf) ← readUint8 buf
    some (.move (.ofByte direction), buf)
  else none

/--
The parse loop, which keeps the last message. Every pass takes a byte off the
buffer, so its length bounds the number of passes.
-/
def readMessages : Nat → Bytes → Option ClientMessage
  | 0, _ => none
  | fuel + 1, buf => do
    let (msg, buf) ← readMessage buf
    if buf.isEmpty then some msg else readMessages fuel buf

namespace GameEngine

variable {β : Type} [PositionSet β]

def handleJoin (e : GameEngine β) (i : Slot) (name : Bytes) :
    Except Fault (GameEngine β × List Sending) :=
  if e.gameplayStarted then .ok (e, [])
  else do
    let id := e.nextPlayerId
    let e := { e with nextPlayerId := e.nextPlayerId + 1 }
    let address ← e.tcpHandler.getAddress i
    let player : Player := ⟨name, address⟩
    let e := { e with playerIds := e.playerIds.insert i id
                      players := e.players.insertIfNew id player
                      scores := e.scores.insertIfNew id 0 }
    let sent := e.tcpHandler.sendMessageToAll (.acceptedPlayer id player)
    if e.players.size = e.gameParams.playersCount.toNat then do
      let (e, sent') ← e.startGameplay
      pure (e, sent ++ sent')
    else pure (e, sent)

/--
The guards that the three action handlers share: the slot has a player, and the
robot of the player is not destroyed in this turn.
-/
def actingPlayer (e : GameEngine β) (i : Slot) : Option PlayerId :=
  match e.playerIds[i]? with
  | none => none
  | some id => if e.currentPlayersToDestroy.contains id then none else some id

def positionAt (e : GameEngine β) (id : PlayerId) : Except Fault Position :=
  match e.playersPositions[id]? with
  | some position => .ok position
  | none => .error .outOfRange

def handlePlaceBomb (e : GameEngine β) (i : Slot) : Except Fault (GameEngine β) :=
  match e.actingPlayer i with
  | none => .ok e
  | some pId => do
    let id := e.nextBombId
    let e := { e with nextBombId := e.nextBombId + 1 }
    let position ← e.positionAt pId
    let e := { e with bombs := e.bombs.insertIfNew id ⟨position, e.gameParams.bombTimer⟩ }
    e.addEvent e.currentTurn (.bombPlaced id position)

def handlePlaceBlock (e : GameEngine β) (i : Slot) : Except Fault (GameEngine β) :=
  match e.actingPlayer i with
  | none => .ok e
  | some pId => do
    let position ← e.positionAt pId
    let e := { e with blocksPositions := PositionSet.insert e.blocksPositions position }
    e.addEvent e.currentTurn (.blockPlaced position)

/--
The switch over the direction. An unnamed direction assigns nothing, and the
uninitialised local keeps the value it happens to have.
-/
def newPosition (position : Position) (uninitialised : Position) : Direction → Position
  | .up => ⟨position.x, position.y + 1⟩
  | .down => ⟨position.x, position.y - 1⟩
  | .left => ⟨position.x - 1, position.y⟩
  | .right => ⟨position.x + 1, position.y⟩
  | .unnamed _ => uninitialised

def handleMove (e : GameEngine β) (i : Slot) (direction : Direction) (uninitialised : Position) :
    Except Fault (GameEngine β) :=
  match e.actingPlayer i with
  | none => .ok e
  | some pId => do
    let position ← e.positionAt pId
    let newPosition := newPosition position uninitialised direction
    if !e.checkPositionToMove newPosition then pure e
    else
      let e := { e with playersPositions := e.playersPositions.insert pId newPosition }
      e.addEvent e.currentTurn (.playerMoved pId newPosition)

def handleClientMessage (e : GameEngine β) (i : Slot) (uninitialised : Position) :
    ClientMessage → Except Fault (GameEngine β × List Sending)
  | .join name => e.handleJoin i name
  | .placeBomb => do pure (← e.handlePlaceBomb i, [])
  | .placeBlock => do pure (← e.handlePlaceBlock i, [])
  | .move direction => do pure (← e.handleMove i direction uninitialised, [])

/-- The message of a received buffer that `handle_msg` handles, if it handles one. -/
def receivedMessage (received : Option Bytes) : Option ClientMessage :=
  match readFrom received with
  | (.potentiallySuccess, buf) => readMessages buf.length buf
  | _ => none

def handleMsg (e : GameEngine β) (i : Slot) (received : Option Bytes) (uninitialised : Position) :
    Except Fault (MessageRecvStatus × GameEngine β × List Sending) :=
  match readFrom received with
  | (.potentiallySuccess, buf) =>
    match readMessages buf.length buf with
    | none => .ok (.errorMsg, e, [])
    | some msg => do pure (.success, ← e.handleClientMessage i uninitialised msg)
  | (status, _) => .ok (status, e, [])

end GameEngine

end Bomberrobots
