import Bomberrobots.Client.Receive
import Bomberrobots.Library.Reading

/-! # The receiving buffer of the client

The readers of the client take bytes off a buffer and refill it from the socket
when it is empty. They write what they have read into the two globals as they go.
-/

namespace Bomberrobots

/-- The unread part of the buffer, and what is still to come. -/
structure Socket where
  buf : Bytes
  /-- What the calls of `read_some` will deliver. -/
  incoming : List Bytes
  /-- The values that bytes without an assigned value happen to have. -/
  uninitialised : ℕ → UInt8

inductive Stop
  /-- An exception that nobody catches. -/
  | fault (fault : Fault)
  /-- A call of `exit_with_msg`. -/
  | exit
  /-- The socket has nothing to deliver. -/
  | waiting
  deriving DecidableEq

namespace Socket

/-- The whole word lies in the buffer, in front of what the buffer holds. -/
instance instPrepend : Prepend Socket UInt8 where
  push w s := { s with buf := w ++ s.buf }
  push_nil _ := rfl
  push_append w w' s := by rw [List.append_assoc]

abbrev Reader (α : Type) := Reading.Reader Socket Stop α

def liftFault {α : Type} : Except Fault α → Reader α
  | .ok a => pure a
  | .error fault => throw (.fault fault)

def readServer : Reader Unit := do
  let s ← get
  match s.incoming with
  | [] => throw .waiting
  | bytes :: incoming =>
    if bytes.isEmpty then throw .exit
    else set { s with buf := bytes, incoming := incoming }

def readIfBufEmpty : Reader Unit := do
  if (← get).buf.isEmpty then readServer

def takeBytes (bytesCount : ℕ) : Reader Bytes := do
  let s ← get
  set { s with buf := s.buf.drop bytesCount }
  pure (s.buf.take bytesCount)

def readUint8 : Reader UInt8 := do
  readIfBufEmpty
  pure ((← takeBytes 1).headD 0)

/-- The value of a byte of a local array that has not been assigned. -/
def readUninitialised : Reader UInt8 := do
  let s ← get
  set { s with uninitialised := fun n => s.uninitialised (n + 1) }
  pure (s.uninitialised 0)

def ntoh (bytes : Bytes) : ℕ := bytes.foldl (fun n byte => 256 * n + byte.toNat) 0

/--
The loop over the two bytes counts down, so it leaves after the first pass, and the
second byte is not assigned.
-/
def readUint16 : Reader UInt16 := do
  readIfBufEmpty
  if 2 ≤ (← get).buf.length then
    pure (.ofNat (ntoh (← takeBytes 2)))
  else
    let byte ← readUint8
    let byte' ← readUninitialised
    pure (.ofNat (ntoh [byte, byte']))

def readUint32 : Reader UInt32 := do
  readIfBufEmpty
  if 4 ≤ (← get).buf.length then
    pure (.ofNat (ntoh (← takeBytes 4)))
  else
    let byte ← readUint8
    let byte' ← readUint8
    let byte'' ← readUint8
    let byte''' ← readUint8
    pure (.ofNat (ntoh [byte, byte', byte'', byte''']))

/--
The loop of `read_string`, with what has been read so far. A pass compares the buffer
with the whole length, and it reads at least a byte, so the length bounds the passes.
-/
def readStringLoop (strLength : ℕ) : ℕ → Bytes → Reader Bytes
  | 0, str => pure str
  | fuel + 1, str =>
    if str.length < strLength then do
      readIfBufEmpty
      let length := (← get).buf.length
      let toRead := if strLength ≤ length then strLength else length
      let bytes ← takeBytes toRead
      readStringLoop strLength fuel (str ++ bytes)
    else pure str

def readString : Reader Bytes := do
  let strLength ← readUint8
  readStringLoop strLength.toNat strLength.toNat []

def readPlayer : Reader Player := do
  let name ← readString
  let address ← readString
  pure ⟨name, address⟩

def readPosition : Reader Position := do
  let x ← readUint16
  let y ← readUint16
  pure ⟨x, y⟩

/-- The shape shared by the readers of lists and maps: the size, then every entry. -/
def readSized {α : Type} (readEntry : α → Reader α) (a : α) : Reader α := do
  let size ← readUint32
  Reading.times readEntry size.toNat a

def readPlayersMap : Reader (StdMap PlayerId Player) :=
  readSized (fun players => do
    let key ← readUint8
    let value ← readPlayer
    pure (players.insertIfNew key value)) ∅

def readScoresMap : Reader (StdMap PlayerId Score) :=
  readSized (fun scores => do
    let key ← readUint8
    let value ← readUint32
    pure (scores.insertIfNew key value)) ∅

def readPlayerIdList : Reader (StdSet PlayerId) :=
  readSized (fun playerIds => do
    let id ← readUint8
    pure (playerIds.insert id)) ∅

section Globals

variable {γ : Type} [PositionSet γ]

def readPositionList : Reader γ :=
  readSized (fun positions => do
    let position ← readPosition
    pure (PositionSet.insert positions position)) PositionSet.empty

def readBombPlaced (g : GameInfo γ) : Reader (GameInfo γ) := do
  let id ← readUint32
  let position ← readPosition
  pure (g.addBomb id position)

def readBombExploded (g : GameInfo γ) : Reader (GameInfo γ) := do
  let id ← readUint32
  let g := g.removeBomb id
  let robotsDestroyed ← readPlayerIdList
  let g ← liftFault (robotsDestroyed.toList.foldlM GameInfo.destroyPlayer g)
  let blocksDestroyed : γ ← readPositionList
  pure ((PositionSet.toList blocksDestroyed).foldl GameInfo.removeBlock g)

def readPlayerMoved (g : GameInfo γ) : Reader (GameInfo γ) := do
  let id ← readUint8
  let position ← readPosition
  pure (g.changePlayerPosition id position)

def readBlockPlaced (g : GameInfo γ) : Reader (GameInfo γ) := do
  let position ← readPosition
  pure (g.addBlock position)

def readEvent (g : GameInfo γ) : Reader (GameInfo γ) := do
  let eventCode ← readUint8
  if eventCode = 0 then readBombPlaced g
  else if eventCode = 1 then readBombExploded g
  else if eventCode = 2 then readPlayerMoved g
  else if eventCode = 3 then readBlockPlaced g
  else throw .exit

def readEventList (g : GameInfo γ) : Reader (GameInfo γ) := readSized readEvent g

def readHello : Reader LobbyInfo := do
  let serverName ← readString
  let playersCount ← readUint8
  let sizeX ← readUint16
  let sizeY ← readUint16
  let gameLength ← readUint16
  let explosionRadius ← readUint16
  let bombTimer ← readUint16
  pure (.new serverName playersCount sizeX sizeY gameLength explosionRadius bombTimer)

def readAcceptedPlayer (info : LobbyInfo) : Reader LobbyInfo := do
  let playerId ← readUint8
  let player ← readPlayer
  pure (info.addPlayer playerId player)

/-- The map is read and dropped. -/
def readGameStarted (c : Client γ) : Reader (GameInfo γ) := do
  let g := c.readGameStarted
  let _ ← readPlayersMap
  pure g

def readTurn (g : GameInfo γ) : Reader (GameInfo γ) := do
  let turn ← readUint16
  readEventList (g.newTurn turn)

def handleServerMessage (c : Client γ) : Reader (Client γ) := do
  let msgCode ← readUint8
  if msgCode = 0 then do
    let lobbyInfo ← readHello
    pure { c with lobbyInfo := lobbyInfo, isLobbyStatus := true }
  else if msgCode = 1 then do
    let lobbyInfo ← readAcceptedPlayer c.lobbyInfo
    pure { c with lobbyInfo := lobbyInfo }
  else if msgCode = 2 then do
    let gameInfo ← readGameStarted c
    pure { c with gameInfo := gameInfo, isLobbyStatus := false }
  else if msgCode = 3 then do
    let gameInfo ← readTurn c.gameInfo
    pure { c with gameInfo := gameInfo }
  else if msgCode = 4 then do
    let _ ← readScoresMap
    pure { c with lobbyInfo := c.lobbyInfo.clearPlayers, isLobbyStatus := true }
  else throw .exit

end Globals

end Socket

end Bomberrobots
