import Mathlib

/-! # The shared data types

Identifiers, positions, bombs and players as both programs declare them. Machine
integers keep the widths of the source, byte strings are lists of bytes, and the
ordered containers of the standard library are the extensional search trees.
-/

namespace Bomberrobots

abbrev PlayerId := UInt8
abbrev BombId := UInt32
abbrev Score := UInt32
abbrev Bytes := List UInt8

/-- `std::map`, iterated in increasing key order. -/
abbrev StdMap (κ α : Type) [Ord κ] := Std.ExtTreeMap κ α compare

/-- `std::set` of a key type ordered by a lawful comparison. -/
abbrev StdSet (κ : Type) [Ord κ] := Std.ExtTreeSet κ compare

structure Player where
  name : Bytes
  address : Bytes
  deriving DecidableEq

@[ext]
structure Position where
  x : UInt16
  y : UInt16
  deriving DecidableEq, Inhabited

/-- The order by coordinates. Comparing equal in it is having equal coordinates. -/
instance : Ord Position where
  compare := compareLex (compareOn Position.x) (compareOn Position.y)

instance : Std.TransOrd Position := inferInstanceAs <| Std.TransCmp (compareLex _ _)

instance : Std.LawfulEqOrd Position where
  eq_of_compare {a b} h := by
    obtain ⟨hx, hy⟩ := compareLex_eq_eq.mp h
    exact Position.ext (Std.LawfulEqOrd.eq_of_compare hx) (Std.LawfulEqOrd.eq_of_compare hy)

structure Bomb where
  position : Position
  timer : UInt16
  deriving DecidableEq

/-- The enumeration `Direction`. A byte without an enumerator is cast to it all the same. -/
inductive Direction
  | up | right | down | left
  | unnamed (code : UInt8)
  deriving DecidableEq

def Direction.ofByte (code : UInt8) : Direction :=
  if code = 0 then .up
  else if code = 1 then .right
  else if code = 2 then .down
  else if code = 3 then .left
  else .unnamed code

/-- How an operation can fail to return. -/
inductive Fault
  /-- A `std::out_of_range` that nobody catches. -/
  | outOfRange
  /-- A remainder by zero. -/
  | divisionByZero
  /-- A loop that never exits. -/
  | endlessLoop
  deriving DecidableEq

/--
The operations of `std::set<position_t>` that the programs call. The comparator
decides which positions the set regards as one, so both programs are generic in it.
-/
class PositionSet (β : Type) where
  empty : β
  insert : β → Position → β
  erase : β → Position → β
  contains : β → Position → Bool
  toList : β → List Position

/-- The set that regards two positions as one exactly when their coordinates agree. -/
instance : PositionSet (StdSet Position) where
  empty := ∅
  insert s p := s.insert p
  erase s p := s.erase p
  contains s p := s.contains p
  toList s := s.toList

end Bomberrobots
