import Bomberrobots.Client.Info

/-! # Reading the messages of the server

The client reads a message field by field into its two globals. Here the fields have
been decoded, and what is left is what the readers do with them.
-/

namespace Bomberrobots

def readPlayerIdList (ids : List PlayerId) : StdSet PlayerId :=
  ids.foldl Std.ExtTreeSet.insert ∅

section Readers

variable {γ : Type} [PositionSet γ]

def readPositionList (positions : List Position) : γ :=
  positions.foldl PositionSet.insert PositionSet.empty

namespace GameInfo

def readBombExploded (g : GameInfo γ) (id : BombId) (robotsDestroyed : List PlayerId)
    (blocksDestroyed : List Position) : Except Fault (GameInfo γ) := do
  let g := g.removeBomb id
  let g ← (readPlayerIdList robotsDestroyed).toList.foldlM destroyPlayer g
  pure ((PositionSet.toList (readPositionList blocksDestroyed : γ)).foldl removeBlock g)

def readEvent (g : GameInfo γ) : Event → Except Fault (GameInfo γ)
  | .bombPlaced id position => .ok (g.addBomb id position)
  | .bombExploded id robotsDestroyed blocksDestroyed =>
    g.readBombExploded id robotsDestroyed blocksDestroyed
  | .playerMoved id position => .ok (g.changePlayerPosition id position)
  | .blockPlaced position => .ok (g.addBlock position)

def readTurn (g : GameInfo γ) (info : TurnInfo) : Except Fault (GameInfo γ) :=
  info.events.foldlM readEvent (g.newTurn info.turn)

end GameInfo

end Readers

structure Client (γ : Type) where
  gameInfo : GameInfo γ
  lobbyInfo : LobbyInfo
  isLobbyStatus : Bool

namespace Client

variable {γ : Type} [PositionSet γ]

def init : Client γ := ⟨.default, .default, false⟩

/-- The global of this name. Nothing assigns it. -/
def scores : StdMap PlayerId Score := ∅

/-- The players of the game are those of the lobby. The map of the message is read and dropped. -/
def readGameStarted (c : Client γ) : GameInfo γ :=
  .new c.lobbyInfo.serverName c.lobbyInfo.sizeX c.lobbyInfo.sizeY c.lobbyInfo.gameLength
    c.lobbyInfo.players c.lobbyInfo.bombTimer scores

def handleServerMessage (c : Client γ) : ServerMessage → Except Fault (Client γ)
  | .hello serverName playersCount sizeX sizeY gameLength explosionRadius bombTimer =>
    .ok { c with
      lobbyInfo := .new serverName playersCount sizeX sizeY gameLength explosionRadius bombTimer
      isLobbyStatus := true }
  | .acceptedPlayer id player => .ok { c with lobbyInfo := c.lobbyInfo.addPlayer id player }
  | .gameStarted _ => .ok { c with gameInfo := c.readGameStarted, isLobbyStatus := false }
  | .turn info => do
    let gameInfo ← c.gameInfo.readTurn info
    pure { c with gameInfo := gameInfo }
  | .gameEnded _ => .ok { c with lobbyInfo := c.lobbyInfo.clearPlayers, isLobbyStatus := true }

def handleServerMessages (c : Client γ) (msgs : List ServerMessage) : Except Fault (Client γ) :=
  msgs.foldlM handleServerMessage c

end Client

end Bomberrobots
