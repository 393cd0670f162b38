import Bomberrobots.Server.Engine

/-! # The command line of the server

What `parse_parameters` makes of the values that the option library has parsed. The number
of players is parsed into 16 bits, and the server keeps 8 of them.
-/

namespace Bomberrobots

/-- All parameters of the server. The engine reads those that it extends. -/
structure ParsedParameters extends ServerParameters where
  turnDuration : UInt64
  port : UInt16

/--
The variables behind the options after `notify`. A variable whose option is not given keeps
the value that it happens to have.
-/
structure Options where
  bombTimer : UInt16
  playersCountU16 : UInt16
  turnDuration : UInt64
  explosionRadius : UInt16
  initialBlocks : UInt16
  gameLength : UInt16
  serverName : Bytes
  port : UInt16
  seed : UInt32
  sizeX : UInt16
  sizeY : UInt16
  help : Bool

inductive ParseExit
  /-- The options are written out. -/
  | help
  | withMsg (message : String)
  deriving DecidableEq

/-- The options are `none` where the library has thrown an exception. -/
def parseParameters : Option Options → Except ParseExit ParsedParameters
  | none => .error (.withMsg "Nieprawidłowo podane parametry. 1\n")
  | some options =>
    if options.help then .error .help
    else if options.playersCountU16 < 1 then
      .error (.withMsg "Liczba graczy powinna wynosić co najmniej 1\n.")
    else .ok {
      bombTimer := options.bombTimer
      playersCount := options.playersCountU16.toUInt8
      turnDuration := options.turnDuration
      explosionRadius := options.explosionRadius
      initialBlocks := options.initialBlocks
      gameLength := options.gameLength
      serverName := options.serverName
      port := options.port
      seed := options.seed
      sizeX := options.sizeX
      sizeY := options.sizeY }

variable {options : Options} {parsed : ParsedParameters}

/-- The count that is checked is not the count that is kept. -/
theorem parseParameters_ok (h : parseParameters (some options) = .ok parsed) :
    1 ≤ options.playersCountU16.toNat ∧
      parsed.playersCount.toNat = options.playersCountU16.toNat % 256 := by
  unfold parseParameters at h
  dsimp only at h
  split_ifs at h with hhelp hcount
  obtain rfl := Except.ok.inj h
  rw [UInt16.lt_iff_toNat_lt] at hcount
  exact ⟨Nat.le_of_not_lt hcount, UInt16.toNat_toUInt8 _⟩

theorem serverName_of_parseParameters (h : parseParameters (some options) = .ok parsed) :
    parsed.serverName = options.serverName := by
  unfold parseParameters at h
  dsimp only at h
  split_ifs at h with hhelp hcount
  obtain rfl := Except.ok.inj h
  rfl

end Bomberrobots
