import Bomberrobots.Messages.Basic

/-! # Byte encoders

The encoders of the byte parser. Numbers are big endian, a string carries its
length in one byte, and lists and maps carry the number of entries in four.
-/

namespace Bomberrobots

def uint16ToBytes (u16 : UInt16) : Bytes :=
  [(u16 >>> 8).toUInt8, u16.toUInt8]

def uint32ToBytes (u32 : UInt32) : Bytes :=
  [(u32 >>> 24).toUInt8, (u32 >>> 16).toUInt8, (u32 >>> 8).toUInt8, u32.toUInt8]

/-- All bytes of the string are written, also when the length does not fit its byte. -/
def stringToBytes (str : Bytes) : Bytes :=
  UInt8.ofNat str.length :: str

def playerToBytes (player : Player) : Bytes :=
  stringToBytes player.name ++ stringToBytes player.address

def positionToBytes (position : Position) : Bytes :=
  uint16ToBytes position.x ++ uint16ToBytes position.y

def bombToBytes (bomb : Bomb) : Bytes :=
  positionToBytes bomb.position ++ uint16ToBytes bomb.timer

/-- The shape shared by the encoders of lists and maps: the size, then every entry. -/
def sizedToBytes {α : Type} (entryToBytes : α → Bytes) (entries : List α) : Bytes :=
  uint32ToBytes (UInt32.ofNat entries.length) ++ entries.flatMap entryToBytes

def playerMapToBytes (players : StdMap PlayerId Player) : Bytes :=
  sizedToBytes (fun entry => entry.1 :: playerToBytes entry.2) players.toList

def playerPositionMapToBytes (positions : StdMap PlayerId Position) : Bytes :=
  sizedToBytes (fun entry => entry.1 :: positionToBytes entry.2) positions.toList

def scoreMapToBytes (scores : StdMap PlayerId Score) : Bytes :=
  sizedToBytes (fun entry => entry.1 :: uint32ToBytes entry.2) scores.toList

def uint8ListToBytes (elements : List UInt8) : Bytes :=
  sizedToBytes (fun element => [element]) elements

def positionListToBytes (positions : List Position) : Bytes :=
  sizedToBytes positionToBytes positions

def positionSetToBytes {γ : Type} [PositionSet γ] (positions : γ) : Bytes :=
  sizedToBytes positionToBytes (PositionSet.toList positions)

/-- The identifiers of the bombs are not written. -/
def bombSetToBytes (bombs : StdMap BombId Bomb) : Bytes :=
  sizedToBytes (fun entry => bombToBytes entry.2) bombs.toList

end Bomberrobots
