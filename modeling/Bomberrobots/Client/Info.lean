import Bomberrobots.Messages.Server

/-! # What the client knows

The lobby and the game as the client keeps them, with the operations that the
messages of the server are read into.
-/

namespace Bomberrobots

structure LobbyInfo where
  serverName : Bytes
  playersCount : UInt8
  sizeX : UInt16
  sizeY : UInt16
  gameLength : UInt16
  explosionRadius : UInt16
  bombTimer : UInt16
  players : StdMap PlayerId Player

namespace LobbyInfo

/-- The value of the global, which is zeroed. -/
def default : LobbyInfo := ⟨[], 0, 0, 0, 0, 0, 0, ∅⟩

def new (serverName : Bytes) (playersCount : UInt8)
    (sizeX sizeY gameLength explosionRadius bombTimer : UInt16) : LobbyInfo :=
  ⟨serverName, playersCount, sizeX, sizeY, gameLength, explosionRadius, bombTimer, ∅⟩

def addPlayer (info : LobbyInfo) (id : PlayerId) (player : Player) : LobbyInfo :=
  { info with players := info.players.insertIfNew id player }

def clearPlayers (info : LobbyInfo) : LobbyInfo := { info with players := ∅ }

end LobbyInfo

structure GameInfo (γ : Type) where
  serverName : Bytes
  sizeX : UInt16
  sizeY : UInt16
  gameLength : UInt16
  bombTimer : UInt16
  /-- The constructor leaves the turn without a value. -/
  turn : Option UInt16
  players : StdMap PlayerId Player
  playerPositions : StdMap PlayerId Position
  blocks : γ
  bombs : StdMap BombId Bomb
  explosions : γ
  scores : StdMap PlayerId Score

namespace GameInfo

variable {γ : Type}

section Operations

variable [PositionSet γ]

/-- The value of the global, which is zeroed. -/
def default : GameInfo γ :=
  ⟨[], 0, 0, 0, 0, some 0, ∅, ∅, PositionSet.empty, ∅, PositionSet.empty, ∅⟩

/-- The first loop of the constructor forgets the scores of those who do not play. -/
def dropScores (players : StdMap PlayerId Player) (scores : StdMap PlayerId Score) :
    StdMap PlayerId Score :=
  scores.toList.foldl (fun scores score =>
    if players.contains score.1 then scores else scores.erase score.1) scores

def addScores (players : StdMap PlayerId Player) (scores : StdMap PlayerId Score) :
    StdMap PlayerId Score :=
  players.toList.foldl (fun scores player =>
    if scores.contains player.1 then scores else scores.insertIfNew player.1 0) scores

def new (serverName : Bytes) (sizeX sizeY gameLength : UInt16) (players : StdMap PlayerId Player)
    (bombTimer : UInt16) (scores : StdMap PlayerId Score) : GameInfo γ where
  serverName := serverName
  sizeX := sizeX
  sizeY := sizeY
  gameLength := gameLength
  bombTimer := bombTimer
  turn := none
  players := players
  playerPositions := ∅
  blocks := PositionSet.empty
  bombs := ∅
  explosions := PositionSet.empty
  scores := addScores players (dropScores players scores)

def newTurn (g : GameInfo γ) (turn : UInt16) : GameInfo γ :=
  { g with explosions := PositionSet.empty, turn := some turn }

def addBlock (g : GameInfo γ) (position : Position) : GameInfo γ :=
  { g with blocks := PositionSet.insert g.blocks position }

def removeBlock (g : GameInfo γ) (position : Position) : GameInfo γ :=
  { g with blocks := PositionSet.erase g.blocks position }

end Operations

def addBomb (g : GameInfo γ) (id : BombId) (position : Position) : GameInfo γ :=
  { g with bombs := g.bombs.insertIfNew id ⟨position, g.bombTimer⟩ }

def removeBomb (g : GameInfo γ) (id : BombId) : GameInfo γ := { g with bombs := g.bombs.erase id }

def destroyPlayer (g : GameInfo γ) (id : PlayerId) : Except Fault (GameInfo γ) :=
  match g.scores[id]? with
  | some score => .ok { g with playerPositions := g.playerPositions.erase id
                               scores := g.scores.insert id (score + 1) }
  | none => .error .outOfRange

/-- `insert`, which keeps the position of a player who has one. -/
def changePlayerPosition (g : GameInfo γ) (id : PlayerId) (position : Position) : GameInfo γ :=
  { g with playerPositions := g.playerPositions.insertIfNew id position }

end GameInfo

end Bomberrobots
