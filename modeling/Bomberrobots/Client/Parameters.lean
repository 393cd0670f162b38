import Bomberrobots.Library.Except
import Bomberrobots.Library.Lists
import Bomberrobots.Server.Parameters

/-! # The command line of the client

What the parser of the client makes of the values that the option library has parsed. An
address is split at its last colon, and the name is taken as it is.
-/

namespace Bomberrobots
namespace ClientParser

/--
The variables and the values behind the options after `notify`. A variable whose option is not
given keeps the value that it happens to have.
-/
structure Options where
  guiAddress : Option Bytes
  name : Bytes
  port : UInt16
  serverAddress : Option Bytes
  help : Bool

structure Parameters (ε τ : Type) where
  guiAddress : ε
  name : Bytes
  port : UInt16
  serverAddress : τ

/-- What the libraries do with numbers and addresses. -/
structure Net (ε τ : Type) where
  /-- `lexical_cast<uint16_t>`, `none` where it throws. -/
  lexicalCast : Bytes → Option UInt16
  /-- The first endpoint behind a host and a port, `none` where resolving throws. -/
  resolveUdp : Bytes → Bytes → Option ε
  resolveTcp : Bytes → Bytes → τ

/-- The loop keeps the last colon. -/
def findSplitPosition (str : Bytes) : Option ℕ :=
  (List.range str.length).foldl (fun position i => if str[i]? = some 58 then some i else position)
    none

variable {ε τ : Type} (net : Net ε τ)

/-- The checks that the two parsers of addresses share, and the two parts of the address. -/
def splitAddress (endpointStr : Bytes) : Except ParseExit (Bytes × Bytes) :=
  match findSplitPosition endpointStr with
  | none => .error (.withMsg "Nieprawidłowo podane parametry. 4\n")
  | some position =>
    let port := endpointStr.drop (position + 1)
    match net.lexicalCast port with
    | none => .error (.withMsg "Nieprawidłowo podane parametry. 3\n")
    | some _ => .ok (endpointStr.take position, port)

/-- An exception ends up in `parse_parameters`. -/
def caught {α : Type} : Option α → Except ParseExit α
  | none => .error (.withMsg "Nieprawidłowo podane parametry. 1\n")
  | some a => .ok a

def parseAddressUdp (endpointStr : Bytes) : Except ParseExit ε := do
  let (host, port) ← splitAddress net endpointStr
  caught (net.resolveUdp host port)

def parseAddressTcp (endpointStr : Bytes) : Except ParseExit τ := do
  let (host, port) ← splitAddress net endpointStr
  pure (net.resolveTcp host port)

/-- The options are `none` where the library has thrown an exception. -/
def parseParameters (options : Option Options) : Except ParseExit (Parameters ε τ) := do
  let options ← caught options
  if options.help then throw .help
  let guiAddress ← parseAddressUdp net (← caught options.guiAddress)
  let serverAddress ← parseAddressTcp net (← caught options.serverAddress)
  pure ⟨guiAddress, options.name, options.port, serverAddress⟩

variable {net} {options : Options} {parsed : Parameters ε τ} {host port : Bytes}

theorem findSplitPosition_append (hport : 58 ∉ port) :
    findSplitPosition (host ++ 58 :: port) = some host.length := by
  apply List.foldl_range_eq_some
  · simp
  · simp
  · intro i hi _
    rw [List.getElem?_append_right hi.le]
    obtain ⟨k, hk⟩ := Nat.exists_eq_add_of_lt hi
    rw [hk, show host.length + k + 1 - host.length = k + 1 by omega, List.getElem?_cons_succ]
    exact fun hcolon => hport (List.mem_of_getElem? hcolon)

theorem splitAddress_append (hport : 58 ∉ port) (hcast : (net.lexicalCast port).isSome) :
    splitAddress net (host ++ 58 :: port) = .ok (host, port) := by
  obtain ⟨value, hvalue⟩ := Option.isSome_iff_exists.mp hcast
  have hdrop : (host ++ 58 :: port).drop (host.length + 1) = port := by simp
  simp only [splitAddress, findSplitPosition_append hport, hdrop, hvalue, List.take_left]

theorem parseParameters_addresses {guiHost guiPort name : Bytes} {endpoint : ε} {ownPort : UInt16}
    (hguiPort : 58 ∉ guiPort) (hguiCast : (net.lexicalCast guiPort).isSome)
    (hendpoint : net.resolveUdp guiHost guiPort = some endpoint)
    (hport : 58 ∉ port) (hcast : (net.lexicalCast port).isSome) :
    parseParameters net (some ⟨some (guiHost ++ 58 :: guiPort), name, ownPort,
      some (host ++ 58 :: port), false⟩) =
      .ok ⟨endpoint, name, ownPort, net.resolveTcp host port⟩ := by
  have hgui : parseAddressUdp net (guiHost ++ 58 :: guiPort) = .ok endpoint := by
    rw [parseAddressUdp, splitAddress_append hguiPort hguiCast]
    change caught (net.resolveUdp guiHost guiPort) = _
    rw [hendpoint]
    rfl
  have hserver : parseAddressTcp net (host ++ 58 :: port) = .ok (net.resolveTcp host port) := by
    rw [parseAddressTcp, splitAddress_append hport hcast]
    rfl
  change (parseAddressUdp net (guiHost ++ 58 :: guiPort) >>= fun guiAddress =>
    parseAddressTcp net (host ++ 58 :: port) >>= fun serverAddress => _) = _
  rw [hgui, hserver]
  rfl

theorem name_of_parseParameters (h : parseParameters net (some options) = .ok parsed) :
    parsed.name = options.name := by
  obtain ⟨_, hoptions, h⟩ := Except.bind_eq_ok_iff.mp h
  obtain rfl := Except.ok.inj hoptions
  cases hhelp : options.help
  · rw [hhelp] at h
    obtain ⟨_, _, hgui⟩ := Except.bind_eq_ok_iff.mp h
    obtain ⟨_, _, hgui'⟩ := Except.bind_eq_ok_iff.mp hgui
    obtain ⟨_, _, hserver⟩ := Except.bind_eq_ok_iff.mp hgui'
    obtain ⟨_, _, hserver'⟩ := Except.bind_eq_ok_iff.mp hserver
    obtain rfl := Except.ok.inj hserver'
    rfl
  · rw [hhelp] at h
    cases h

end ClientParser
end Bomberrobots
