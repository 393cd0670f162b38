import Bomberrobots.Messages.Server

/-! # The connection handler of the server

The table of poll descriptors, the client addresses, and the calls of the handler
that the engine makes. What a system call returns is an argument of the model of
the function that makes the call.
-/

namespace Bomberrobots

/-- An index of the table of `conn_max` descriptors. The listening socket has index 0. -/
abbrev Slot := Fin 26

instance Slot.instNeZero : NeZero 26 := ⟨by decide⟩

instance Slot.instTransOrd : Std.TransOrd Slot := Fin.instTransOrd 26

structure Revents where
  pollin : Bool
  pollerr : Bool
  deriving DecidableEq

/-- An entry of the table. The free marker `-1` is `none`. -/
structure Pollfd where
  fd : Option Nat
  revents : Revents
  deriving DecidableEq

/-- What `accept` leaves behind. The descriptor is `none` where the call returned `-1`. -/
structure Accepted where
  fd : Option Nat
  address : Bytes
  deriving DecidableEq

inductive MessageRecvStatus
  | errorConn | errorMsg | endConn | potentiallySuccess | success
  deriving DecidableEq

/-- Bytes handed to `send`: to one open descriptor, or to every open client descriptor. -/
inductive Sending
  | one (slot : Slot) (msg : ServerMessage)
  | all (slots : List Slot) (msg : ServerMessage)
  deriving DecidableEq

structure ServerTcpHandler where
  activeClients : UInt64
  pollDescriptors : Slot → Pollfd
  addresses : StdMap Nat Bytes

namespace ServerTcpHandler

def Revents.none : Revents := ⟨false, false⟩

def new : ServerTcpHandler where
  activeClients := 0
  pollDescriptors i := ⟨if i = 0 then some 0 else .none, Revents.none⟩
  addresses := ∅

def fd (h : ServerTcpHandler) (i : Slot) : Option Nat := (h.pollDescriptors i).fd

def revents (h : ServerTcpHandler) (i : Slot) : Revents := (h.pollDescriptors i).revents

def resetRevents (h : ServerTcpHandler) : ServerTcpHandler :=
  { h with pollDescriptors := fun i => { h.pollDescriptors i with revents := Revents.none } }

/-- `poll` fills in the reported events. It skips the entries without a descriptor. -/
def pollExec (h : ServerTcpHandler) (reported : Slot → Revents) : ServerTcpHandler :=
  { h with pollDescriptors := fun i =>
      { h.pollDescriptors i with
        revents := if (h.fd i).isSome then reported i else Revents.none } }

def isNewConnection (h : ServerTcpHandler) : Bool := (h.revents 0).pollin

def isMessageFrom (h : ServerTcpHandler) (i : Slot) : Bool :=
  (h.fd i).isSome && ((h.revents i).pollin || (h.revents i).pollerr)

def freeSlot (h : ServerTcpHandler) : Option Slot :=
  (List.finRange 26).find? fun i => i != 0 && (h.fd i).isNone

/--
`accept_client`, returning the position of the client or `-1`. The descriptor is
stored without a look at whether `accept` failed, and the address of a client that
found no slot goes under the key that `-1` converts to.
-/
def acceptClient (h : ServerTcpHandler) (client : Accepted) : Option Slot × ServerTcpHandler :=
  match h.freeSlot with
  | some i =>
    (some i, { activeClients := h.activeClients + 1
               pollDescriptors := Function.update h.pollDescriptors i ⟨client.fd, h.revents i⟩
               addresses := h.addresses.insert i.val client.address })
  | none => (none, { h with addresses := h.addresses.insert (2 ^ 64 - 1) client.address })

def reportMsgStatus (h : ServerTcpHandler) (status : MessageRecvStatus) (i : Slot) :
    ServerTcpHandler :=
  if status = .success then h
  else
    { h with
      activeClients := h.activeClients - 1
      pollDescriptors := Function.update h.pollDescriptors i ⟨none, h.revents i⟩ }

def getAddress (h : ServerTcpHandler) (i : Slot) : Except Fault Bytes :=
  match h.addresses[i.val]? with
  | some address => .ok address
  | none => .error .outOfRange

/--
`send` on a free entry fails and sends nothing. On an open one it is taken to send and return:
that it blocks, or that `SIGPIPE` ends the process, is left out.
-/
def sendMessage (h : ServerTcpHandler) (i : Slot) (msg : ServerMessage) : List Sending :=
  if (h.fd i).isSome then [.one i msg] else []

def openSlots (h : ServerTcpHandler) : List Slot :=
  (List.finRange 26).filter fun i => i != 0 && (h.fd i).isSome

def sendMessageToAll (h : ServerTcpHandler) (msg : ServerMessage) : List Sending :=
  [.all h.openSlots msg]

end ServerTcpHandler

/-- `read_uint8` on what the buffer still holds. A `MsgException` is `none`. -/
def readUint8 : Bytes → Option (UInt8 × Bytes)
  | [] => none
  | byte :: buf => some (byte, buf)

def readString (buf : Bytes) : Option (Bytes × Bytes) := do
  let (strLength, buf) ← readUint8 buf
  if strLength.toNat > buf.length then none
  else some (buf.take strLength.toNat, buf.drop strLength.toNat)

/-- `read_from`: one `read` of at most 256 bytes, `none` where the call returned `-1`. -/
def readFrom (received : Option Bytes) : MessageRecvStatus × Bytes :=
  match received.map (List.take 256) with
  | none => (.errorConn, [])
  | some [] => (.endConn, [])
  | some buf => (.potentiallySuccess, buf)

end Bomberrobots
