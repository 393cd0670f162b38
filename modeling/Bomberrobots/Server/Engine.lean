import Bomberrobots.Server.Handler

/-! # The state of the game engine

Parameters, random numbers, the fields of the engine and the operations that read
them or change a few of them: the turn log, the bounds checks, the seeding of
robots and blocks, and the messages that greet a client or start a game.
-/

namespace Bomberrobots

structure ServerParameters where
  bombTimer : UInt16
  playersCount : UInt8
  explosionRadius : UInt16
  initialBlocks : UInt16
  gameLength : UInt16
  serverName : Bytes
  seed : UInt32
  sizeX : UInt16
  sizeY : UInt16
  deriving DecidableEq

/-- The generator `std::minstd_rand`. -/
structure Random where
  state : UInt32
  deriving DecidableEq

namespace Random

def new (seed : UInt32) : Random :=
  ⟨if seed % 2147483647 = 0 then 1 else seed % 2147483647⟩

def next (random : Random) : UInt32 × Random :=
  let value := UInt32.ofNat (48271 * random.state.toNat % 2147483647)
  (value, ⟨value⟩)

/-- A coordinate, `(uint16_t)(random.next() % (uint32_t) size)`. -/
def coordinate (random : Random) (size : UInt16) : Except Fault (UInt16 × Random) :=
  if size = 0 then .error .divisionByZero
  else .ok ((random.next.1 % size.toUInt32).toUInt16, random.next.2)

end Random

structure GameEngine (β : Type) where
  gameParams : ServerParameters
  tcpHandler : ServerTcpHandler
  gameplayStarted : Bool
  players : StdMap PlayerId Player
  scores : StdMap PlayerId Score
  playersPositions : StdMap PlayerId Position
  blocksPositions : β
  playerIds : StdMap Slot PlayerId
  nextPlayerId : PlayerId
  currentTurn : UInt16
  currentBlocksToErase : List Position
  currentPlayersToDestroy : StdSet PlayerId
  turns : List TurnInfo
  bombs : StdMap BombId Bomb
  nextBombId : BombId
  random : Random

namespace GameEngine

variable {β : Type} [PositionSet β]

def new (gameParams : ServerParameters) : GameEngine β where
  gameParams := gameParams
  tcpHandler := .new
  gameplayStarted := false
  players := ∅
  scores := ∅
  playersPositions := ∅
  blocksPositions := PositionSet.empty
  playerIds := ∅
  nextPlayerId := 0
  currentTurn := 0
  currentBlocksToErase := []
  currentPlayersToDestroy := ∅
  turns := []
  bombs := ∅
  nextBombId := 0
  random := .new gameParams.seed

/-- `turns.at(turn).add_event(event)`. -/
def addEvent (e : GameEngine β) (turn : UInt16) (event : Event) : Except Fault (GameEngine β) :=
  if turn.toNat < e.turns.length then
    .ok { e with turns := e.turns.modify turn.toNat (·.addEvent event) }
  else .error .outOfRange

def checkPosition (e : GameEngine β) (pos : Position) : Bool :=
  pos.x < e.gameParams.sizeX && pos.y < e.gameParams.sizeY

def checkPositionToMove (e : GameEngine β) (pos : Position) : Bool :=
  e.checkPosition pos && !PositionSet.contains e.blocksPositions pos

/-- The two draws that `seed_player` and `seed_blocks` make for a position. -/
def seedPosition (e : GameEngine β) : Except Fault (Position × GameEngine β) := do
  let (x, random) ← e.random.coordinate e.gameParams.sizeX
  let (y, random) ← random.coordinate e.gameParams.sizeY
  pure (⟨x, y⟩, { e with random := random })

def seedPlayer (e : GameEngine β) (id : PlayerId) : Except Fault (GameEngine β) := do
  let (position, e) ← e.seedPosition
  let e ← e.addEvent e.currentTurn (.playerMoved id position)
  pure { e with playersPositions := e.playersPositions.insert id position }

def seedPlayers (e : GameEngine β) : Except Fault (GameEngine β) :=
  e.players.keys.foldlM seedPlayer e

def seedBlock (e : GameEngine β) : Except Fault (GameEngine β) := do
  let (position, e) ← e.seedPosition
  let e ← e.addEvent 0 (.blockPlaced position)
  pure { e with blocksPositions := PositionSet.insert e.blocksPositions position }

def seedBlocks (e : GameEngine β) : Except Fault (GameEngine β) :=
  (List.range e.gameParams.initialBlocks.toNat).foldlM (fun e _ => e.seedBlock) e

def startGameplay (e : GameEngine β) : Except Fault (GameEngine β × List Sending) := do
  let e := { e with gameplayStarted := true, turns := e.turns ++ [TurnInfo.new 0] }
  let sent := e.tcpHandler.sendMessageToAll (.gameStarted e.players)
  let e ← e.seedPlayers
  let e ← e.seedBlocks
  pure (e, sent)

def helloMsg (e : GameEngine β) : ServerMessage :=
  .hello e.gameParams.serverName e.gameParams.playersCount e.gameParams.sizeX e.gameParams.sizeY
    e.gameParams.gameLength e.gameParams.explosionRadius e.gameParams.bombTimer

def sendHello (e : GameEngine β) (i : Slot) : List Sending :=
  e.tcpHandler.sendMessage i e.helloMsg

def sendGameStarted (e : GameEngine β) (i : Slot) : List Sending :=
  e.tcpHandler.sendMessage i (.gameStarted e.players)

def sendAllTurns (e : GameEngine β) (i : Slot) : List Sending :=
  e.turns.flatMap fun turn => e.tcpHandler.sendMessage i (.turn turn)

def sendAllAcceptedPlayer (e : GameEngine β) (i : Slot) : List Sending :=
  e.players.toList.flatMap fun player =>
    e.tcpHandler.sendMessage i (.acceptedPlayer player.1 player.2)

def sendHelloState (e : GameEngine β) (i : Slot) : List Sending :=
  if e.gameplayStarted then e.sendGameStarted i ++ e.sendAllTurns i
  else e.sendAllAcceptedPlayer i

end GameEngine

end Bomberrobots
