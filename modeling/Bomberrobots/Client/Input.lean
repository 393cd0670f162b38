import Bomberrobots.Server.Framing

/-! # Input from the GUI

The client takes the commands of the GUI off a buffer that keeps what earlier datagrams have
left in it, and no reader looks at how much has been received. What it sends depends on nothing
but the datagram exactly where the datagram has the bytes that are read.
-/

namespace Bomberrobots

/-- The buffer for datagrams, the cursor into it, and how many bytes should be left. -/
structure GuiInput where
  bufUdp : ℕ → UInt8
  currentBufUdp : ℕ
  currentBufLengthUdp : UInt64

namespace GuiInput

/-- `receive` overwrites the front of the buffer, which has room for 256 bytes. -/
def receive (s : GuiInput) (datagram : Bytes) : GuiInput where
  bufUdp k := (datagram.take 256)[k]?.getD (s.bufUdp k)
  currentBufUdp := 0
  currentBufLengthUdp := .ofNat (datagram.take 256).length

/-- The length wraps around. -/
def currentBufUpdateUdp (s : GuiInput) (bytesCount : ℕ) : GuiInput :=
  { s with currentBufUdp := s.currentBufUdp + bytesCount
           currentBufLengthUdp := s.currentBufLengthUdp - .ofNat bytesCount }

def readUint8Udp : StateM GuiInput UInt8 := do
  let s ← get
  set (s.currentBufUpdateUdp 1)
  pure (s.bufUdp s.currentBufUdp)

end GuiInput

def joinMessage (name : Bytes) : Bytes := (ClientMessage.join name).toBytes

def placeBombMessage : Bytes := ClientMessage.placeBomb.toBytes

def placeBlockMessage : Bytes := ClientMessage.placeBlock.toBytes

def moveMessage (direction : Direction) : Bytes := (ClientMessage.move direction).toBytes

/-- The `switch` over the tag. What is sent to the server, if anything. -/
def handleInput (isLobbyStatus : Bool) (name : Bytes) (msgCode : UInt8) :
    StateM GuiInput (Option Bytes) :=
  if msgCode = 0 then
    pure (some (if isLobbyStatus then joinMessage name else placeBombMessage))
  else if msgCode = 1 then
    pure (some (if isLobbyStatus then joinMessage name else placeBlockMessage))
  else if msgCode = 2 then
    if isLobbyStatus then pure (some (joinMessage name))
    else do
      let direction ← GuiInput.readUint8Udp
      pure (some (moveMessage (.ofByte direction)))
  else pure none

def handleGuiMessage (isLobbyStatus : Bool) (name datagram : Bytes) :
    StateM GuiInput (Option Bytes) := do
  modify fun s => s.receive datagram
  let msgCode ← GuiInput.readUint8Udp
  handleInput isLobbyStatus name msgCode

/-- Nothing, an unknown tag, or a Move without a direction from 0 to 3. -/
def Incomplete : Bytes → Prop
  | [] => True
  | [code] => 2 ≤ code
  | code :: direction :: _ => 2 < code ∨ code = 2 ∧ 3 < direction

/-- A tag, and behind the tag of a Move a direction from 0 to 3. -/
def Directed : Bytes → Prop
  | [] => False
  | [code] => code ≠ 2
  | code :: direction :: _ => code = 2 → direction ≤ 3

variable {isLobbyStatus : Bool} {name datagram : Bytes}

/-- What the handling of a datagram should be like. -/
structure DatagramOnly (isLobbyStatus : Bool) (name datagram : Bytes) : Prop where
  /-- What is sent does not depend on what the buffer has held before. -/
  same : ∀ s s', ((handleGuiMessage isLobbyStatus name datagram).run s).1 =
    ((handleGuiMessage isLobbyStatus name datagram).run s').1
  silent : Incomplete datagram →
    ∀ s, ((handleGuiMessage isLobbyStatus name datagram).run s).1 = none
  /-- The cursor, which only moves forwards, ends within the received bytes. -/
  within : ∀ s, ((handleGuiMessage isLobbyStatus name datagram).run s).2.currentBufUdp ≤
    (datagram.take 256).length

def sentFor (isLobbyStatus : Bool) (name : Bytes) (msgCode direction : UInt8) : Option Bytes :=
  if msgCode = 0 then some (if isLobbyStatus then joinMessage name else placeBombMessage)
  else if msgCode = 1 then some (if isLobbyStatus then joinMessage name else placeBlockMessage)
  else if msgCode = 2 then
    some (if isLobbyStatus then joinMessage name else moveMessage (.ofByte direction))
  else none

theorem sent_handleGuiMessage (s : GuiInput) :
    ((handleGuiMessage isLobbyStatus name datagram).run s).1 =
      sentFor isLobbyStatus name ((s.receive datagram).bufUdp 0)
        ((s.receive datagram).bufUdp 1) := by
  change ((handleInput isLobbyStatus name ((s.receive datagram).bufUdp 0)).run
    ((s.receive datagram).currentBufUpdateUdp 1)).1 = _
  rw [handleInput, sentFor]
  cases isLobbyStatus <;> split_ifs <;> rfl

theorem cursor_handleGuiMessage (s : GuiInput) :
    ((handleGuiMessage isLobbyStatus name datagram).run s).2.currentBufUdp =
      if (s.receive datagram).bufUdp 0 = 2 ∧ isLobbyStatus = false then 2 else 1 := by
  change ((handleInput isLobbyStatus name ((s.receive datagram).bufUdp 0)).run
    ((s.receive datagram).currentBufUpdateUdp 1)).2.currentBufUdp = _
  by_cases hcode : (s.receive datagram).bufUdp 0 = 2
  · rw [hcode]
    cases isLobbyStatus <;> rfl
  · have hstay : ¬ ((s.receive datagram).bufUdp 0 = 2 ∧ isLobbyStatus = false) :=
      fun h => hcode h.1
    rw [if_neg hstay, handleInput, if_neg hcode]
    split_ifs <;> rfl

theorem bufUdp_receive_zero (s : GuiInput) (code : UInt8) (rest : Bytes) :
    (s.receive (code :: rest)).bufUdp 0 = code := rfl

/-- Only a Move looks at the byte behind the tag. -/
theorem sentFor_eq {msgCode direction direction' : UInt8}
    (h : msgCode = 2 → direction = direction') :
    sentFor isLobbyStatus name msgCode direction =
      sentFor isLobbyStatus name msgCode direction' := by
  by_cases hcode : msgCode = 2
  · rw [h hcode]
  · simp only [sentFor, if_neg hcode]

theorem sentFor_eq_none_iff {msgCode direction : UInt8} :
    sentFor isLobbyStatus name msgCode direction = none ↔ 2 < msgCode := by
  simp only [sentFor, UInt8.lt_iff_toNat_lt, ← UInt8.toNat_inj]
  split_ifs with hzero hone htwo
  · simp [hzero]
  · simp [hone]
  · simp [htwo]
  · rw [eq_self, true_iff]
    simp only [UInt8.toNat_ofNat] at hzero hone htwo ⊢
    omega

theorem sent_handleGuiMessage_eq_none_iff {code : UInt8} {rest : Bytes} (s : GuiInput) :
    ((handleGuiMessage isLobbyStatus name (code :: rest)).run s).1 = none ↔ 2 < code := by
  rw [sent_handleGuiMessage, sentFor_eq_none_iff, bufUdp_receive_zero]

/--
What is sent depends on the datagram only, nothing is sent for an incomplete datagram and the
cursor stays within it, if and only if the bytes that are read are there and fit.
-/
theorem datagramOnly_iff : DatagramOnly isLobbyStatus name datagram ↔ Directed datagram := by
  constructor
  · rintro ⟨-, hsilent, hwithin⟩
    let s : GuiInput := ⟨fun _ => 0, 0, 0⟩
    match datagram with
    | [] =>
      have hcursor := hwithin s
      rw [cursor_handleGuiMessage] at hcursor
      split at hcursor <;> cases hcursor
    | [code] =>
      rintro rfl
      have hsent := (sent_handleGuiMessage_eq_none_iff s).mp (hsilent (UInt8.le_refl 2) s)
      exact absurd hsent (UInt8.lt_irrefl 2)
    | code :: direction :: rest =>
      rintro rfl
      by_contra hdirection
      have hsent := hsilent (.inr ⟨rfl, UInt8.not_le.mp hdirection⟩) s
      rw [sent_handleGuiMessage_eq_none_iff] at hsent
      exact absurd hsent (UInt8.lt_irrefl 2)
  · intro hdirected
    match datagram with
    | [code] =>
      constructor
      · intro s s'
        rw [sent_handleGuiMessage, sent_handleGuiMessage]
        exact sentFor_eq fun hcode => absurd hcode hdirected
      · intro hincomplete s
        rw [sent_handleGuiMessage_eq_none_iff]
        exact UInt8.lt_of_le_of_ne hincomplete (Ne.symm hdirected)
      · intro s
        rw [cursor_handleGuiMessage, bufUdp_receive_zero, if_neg fun h => hdirected h.1]
        rfl
    | code :: direction :: rest =>
      constructor
      · intro s s'
        rw [sent_handleGuiMessage, sent_handleGuiMessage]
        rfl
      · intro hincomplete s
        rw [sent_handleGuiMessage_eq_none_iff]
        rcases hincomplete with hcode | ⟨hcode, hdirection⟩
        · exact hcode
        · exact absurd (hdirected hcode) (UInt8.not_le.mpr hdirection)
      · intro s
        rw [cursor_handleGuiMessage, List.length_take, List.length_cons, List.length_cons]
        split <;> omega

/-- A Move without a direction byte sends the direction that an earlier datagram has left. -/
theorem exists_not_datagramOnly : ¬ ∀ (isLobbyStatus : Bool) (name datagram : Bytes),
    DatagramOnly isLobbyStatus name datagram := by
  intro hall
  have hsame := (hall false [] [2]).same (.receive ⟨fun _ => 0, 0, 0⟩ [2, 1])
    (.receive ⟨fun _ => 0, 0, 0⟩ [2, 3])
  rw [sent_handleGuiMessage, sent_handleGuiMessage] at hsame
  revert hsame
  decide

end Bomberrobots
