import Bomberrobots.Messages.Bytes

/-! # Events, turns and the messages of the server

A turn records its events in the order in which the engine adds them. The server
builds the bytes of a message where it sends it; here the message is kept and
`toBytes` is what is put on the wire.
-/

namespace Bomberrobots

inductive Event
  | bombPlaced (id : BombId) (position : Position)
  | bombExploded (id : BombId) (robotsDestroyed : List PlayerId)
      (blocksDestroyed : List Position)
  | playerMoved (id : PlayerId) (position : Position)
  | blockPlaced (position : Position)
  deriving DecidableEq

def Event.toBytes : Event → Bytes
  | .bombPlaced id position => 0 :: uint32ToBytes id ++ positionToBytes position
  | .bombExploded id robotsDestroyed blocksDestroyed =>
    1 :: uint32ToBytes id ++ uint8ListToBytes robotsDestroyed ++ positionListToBytes blocksDestroyed
  | .playerMoved id position => 2 :: id :: positionToBytes position
  | .blockPlaced position => 3 :: positionToBytes position

structure TurnInfo where
  turn : UInt16
  events : List Event
  deriving DecidableEq

namespace TurnInfo

def new (turn : UInt16) : TurnInfo := ⟨turn, []⟩

def addEvent (info : TurnInfo) (event : Event) : TurnInfo :=
  { info with events := info.events ++ [event] }

def toBytes (info : TurnInfo) : Bytes :=
  3 :: uint16ToBytes info.turn ++ sizedToBytes Event.toBytes info.events

end TurnInfo

inductive ServerMessage
  | hello (serverName : Bytes) (playersCount : UInt8)
      (sizeX sizeY gameLength explosionRadius bombTimer : UInt16)
  | acceptedPlayer (id : PlayerId) (player : Player)
  | gameStarted (players : StdMap PlayerId Player)
  | turn (info : TurnInfo)
  | gameEnded (scores : StdMap PlayerId Score)
  deriving DecidableEq

def ServerMessage.toBytes : ServerMessage → Bytes
  | .hello serverName playersCount sizeX sizeY gameLength explosionRadius bombTimer =>
    0 :: stringToBytes serverName ++ playersCount :: uint16ToBytes sizeX ++ uint16ToBytes sizeY ++
      uint16ToBytes gameLength ++ uint16ToBytes explosionRadius ++ uint16ToBytes bombTimer
  | .acceptedPlayer id player => 1 :: id :: playerToBytes player
  | .gameStarted players => 2 :: playerMapToBytes players
  | .turn info => info.toBytes
  | .gameEnded scores => 4 :: scoreMapToBytes scores

end Bomberrobots
