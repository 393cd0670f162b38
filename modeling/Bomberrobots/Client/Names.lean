import Bomberrobots.Client.Draw
import Bomberrobots.Client.Parameters
import Bomberrobots.Client.Segments
import Bomberrobots.Server.Framing

/-! # Names on the wire

The command lines accept names of any length, and all bytes of a name are written behind a
single byte for the length. No decoder returns a name that does not fit it, and the readers of
both programs ask for more.
-/

namespace Bomberrobots

open Format Reading

variable {name str rest left buf later : Bytes}

theorem readString_eq_name_iff (h : buf ++ later = stringToBytes name ++ rest) :
    (∃ left, readString buf = some (name, left) ∧ left ++ later = rest) ↔
      name.length ≤ 255 ∧ name.length < buf.length := by
  constructor
  · rintro ⟨left, hread, -⟩
    obtain ⟨hlen, rfl⟩ := readString_eq_some hread
    refine ⟨hlen, ?_⟩
    rw [List.length_append, stringToBytes, List.length_cons]
    omega
  · rintro ⟨hlen, hbuf⟩
    obtain ⟨left, rfl⟩ : stringToBytes name <+: buf := by
      apply List.prefix_of_prefix_length_le ⟨rest, h.symm⟩ ⟨later, rfl⟩
      rwa [stringToBytes, List.length_cons]
    rw [List.append_assoc, List.append_cancel_left_eq] at h
    exact ⟨left, readString_append hlen left, h⟩

theorem parses_stringToBytes_iff :
    Parses stringFormat (stringToBytes name ++ rest) name rest ↔ name.length ≤ 255 := by
  constructor
  · rintro ⟨w, ⟨u, v, ⟨hu, hlen⟩, -, -⟩, -⟩
    obtain ⟨byte, rfl⟩ := List.length_eq_one_iff.mp hu
    have hlt := byte.toNat_lt
    simp only [Socket.ntoh, List.foldl_cons, List.foldl_nil] at hlen
    omega
  · intro hlen
    exact ⟨stringToBytes name, stringFormat_stringToBytes hlen, rfl⟩

/-- What the decoders are given of the two names, and what stands behind them. -/
structure NamesOnWire where
  /-- The client before the name in Hello. -/
  socket : Socket
  helloRest : Bytes
  /-- The rest of the read that holds the length of the name in Join, and the bytes behind it. -/
  buf : Bytes
  later : Bytes
  joinRest : Bytes
  /-- What stands behind the names in a message to the GUI. -/
  drawRest : Bytes

/-- The bytes that the decoders are given are those that are written. -/
structure NamesOnWire.Carries (wire : NamesOnWire) (serverName playerName : Bytes) : Prop where
  segmented : wire.socket.Segmented
  hello : wire.socket.stream = stringToBytes serverName ++ wire.helloRest
  join : wire.buf ++ wire.later = stringToBytes playerName ++ wire.joinRest

/-- Every decoder returns the name and is left at the next field. -/
structure NamesOnWire.Survive (wire : NamesOnWire) (serverName playerName : Bytes) : Prop where
  hello : Yields Socket.source Socket.readString wire.socket serverName wire.helloRest
  join : ∃ left, readString wire.buf = some (playerName, left) ∧ left ++ wire.later = wire.joinRest
  drawServer : Parses stringFormat (stringToBytes serverName ++ wire.drawRest) serverName
    wire.drawRest
  drawPlayer : Parses stringFormat (stringToBytes playerName ++ wire.drawRest) playerName
    wire.drawRest

variable {ε τ : Type} {net : ClientParser.Net ε τ} {options : Options} {parsed : ParsedParameters}
  {clientOptions : ClientParser.Options} {clientParsed : ClientParser.Parameters ε τ}
  {wire : NamesOnWire}

/--
Accepted names survive the wire if and only if they fit their length bytes, no read of the
client ends in the wrong place, and one read of the server holds all of the player's name.
-/
theorem names_survive_iff (hserver : parseParameters (some options) = .ok parsed)
    (hclient : ClientParser.parseParameters net (some clientOptions) = .ok clientParsed)
    (hwire : wire.Carries parsed.serverName clientParsed.name) :
    wire.Survive parsed.serverName clientParsed.name ↔
      options.serverName.length ≤ 255 ∧ clientOptions.name.length ≤ 255 ∧
        wire.socket.KeepsString options.serverName.length ∧
        clientOptions.name.length < wire.buf.length := by
  rw [← serverName_of_parseParameters hserver, ← ClientParser.name_of_parseParameters hclient]
  constructor
  · intro hsurvive
    obtain ⟨hlen, hkeeps⟩ := (Socket.yields_readString_iff hwire.segmented hwire.hello).mp
      hsurvive.hello
    obtain ⟨hlen', hbuf⟩ := (readString_eq_name_iff hwire.join).mp hsurvive.join
    exact ⟨hlen, hlen', hkeeps, hbuf⟩
  · rintro ⟨hlen, hlen', hkeeps, hbuf⟩
    constructor
    · exact (Socket.yields_readString_iff hwire.segmented hwire.hello).mpr ⟨hlen, hkeeps⟩
    · exact (readString_eq_name_iff hwire.join).mpr ⟨hlen', hbuf⟩
    · exact parses_stringToBytes_iff.mpr hlen
    · exact parses_stringToBytes_iff.mpr hlen'

def smallNet : ClientParser.Net Unit Unit where
  lexicalCast
    | [digit] => if 48 ≤ digit ∧ digit ≤ 57 then some (digit - 48).toUInt16 else none
    | _ => none
  resolveUdp _ _ := some ()
  resolveTcp _ _ := ()

def serverNamed (name : Bytes) : Options where
  bombTimer := 4
  playersCountU16 := 2
  turnDuration := 1000
  explosionRadius := 3
  initialBlocks := 0
  gameLength := 50
  serverName := name
  port := 2022
  seed := 1
  sizeX := 10
  sizeY := 8
  help := false

def clientNamed (name : Bytes) : ClientParser.Options where
  guiAddress := some ([104] ++ 58 :: [49])
  name := name
  port := 2023
  serverAddress := some ([104] ++ 58 :: [50])
  help := false

theorem exists_parseParameters_serverNamed (name : Bytes) :
    ∃ parsed, parseParameters (some (serverNamed name)) = .ok parsed := ⟨_, rfl⟩

theorem exists_parseParameters_clientNamed (name : Bytes) :
    ∃ parsed, ClientParser.parseParameters smallNet (some (clientNamed name)) = .ok parsed :=
  ⟨_, ClientParser.parseParameters_addresses (by decide) rfl rfl (by decide) rfl⟩

theorem names_survive_short : ∃ parsed clientParsed,
    parseParameters (some (serverNamed [82])) = .ok parsed ∧
    ClientParser.parseParameters smallNet (some (clientNamed [65])) = .ok clientParsed ∧
    NamesOnWire.Survive ⟨⟨[], [[1, 82, 2]], fun _ => 0⟩, [2], [1, 65], [], [], []⟩
      parsed.serverName clientParsed.name := by
  obtain ⟨parsed, hserver⟩ := exists_parseParameters_serverNamed [82]
  obtain ⟨clientParsed, hclient⟩ := exists_parseParameters_clientNamed [65]
  refine ⟨parsed, clientParsed, hserver, hclient, (names_survive_iff hserver hclient ?_).mpr ?_⟩
  · rw [serverName_of_parseParameters hserver, ClientParser.name_of_parseParameters hclient]
    exact ⟨by simp [Socket.Segmented], rfl, rfl⟩
  · exact ⟨by decide, by decide, .inl fun n hn hle => absurd hn (Nat.not_lt.mpr hle), by decide⟩

/-- A server name of 256 bytes is accepted, and the client reads an empty one. -/
theorem exists_not_names_survive : ¬ ∀ (options : Options) (parsed : ParsedParameters)
    (clientOptions : ClientParser.Options) (clientParsed : ClientParser.Parameters Unit Unit)
    (wire : NamesOnWire), parseParameters (some options) = .ok parsed →
    ClientParser.parseParameters smallNet (some clientOptions) = .ok clientParsed →
    wire.Carries parsed.serverName clientParsed.name →
    wire.Survive parsed.serverName clientParsed.name := by
  intro hall
  obtain ⟨parsed, hserver⟩ := exists_parseParameters_serverNamed (List.replicate 256 65)
  obtain ⟨clientParsed, hclient⟩ := exists_parseParameters_clientNamed [65]
  have hname := serverName_of_parseParameters hserver
  have hsurvive := hall _ parsed _ clientParsed
    ⟨⟨stringToBytes parsed.serverName, [], fun _ => 0⟩, [], stringToBytes clientParsed.name, [], [],
      []⟩ hserver hclient ⟨by simp [Socket.Segmented], rfl, rfl⟩
  have hlen := parses_stringToBytes_iff.mp hsurvive.drawServer
  rw [hname] at hlen
  have hlong : (serverNamed (List.replicate 256 65)).serverName.length = 256 :=
    List.length_replicate
  omega

end Bomberrobots
