import Bomberrobots.Library.Framing
import Bomberrobots.Server.Safety

/-! # Client messages on the wire

The bytes that a client sends, and what the server makes of them when they arrive in
several reads. It parses every read for itself, so it refuses the client unless all reads
end where a message ends.
-/

namespace Bomberrobots

open Framing

def Direction.toByte : Direction → UInt8
  | .up => 0
  | .right => 1
  | .down => 2
  | .left => 3
  | .unnamed code => code

@[simp] theorem Direction.toByte_ofByte {b : UInt8} : (ofByte b).toByte = b := by
  unfold ofByte
  split_ifs <;> simp [toByte, *]

namespace ClientMessage

/-- The bytes that `join_message` and its siblings build. -/
def toBytes : ClientMessage → Bytes
  | .join name => 0 :: stringToBytes name
  | .placeBomb => [1]
  | .placeBlock => [2]
  | .move direction => [3, direction.toByte]

def Fits : ClientMessage → Prop
  | .join name => name.length ≤ 255
  | _ => True

/-- The message that the server makes of the bytes of a message. -/
def asReceived : ClientMessage → ClientMessage
  | .move direction => .move (.ofByte direction.toByte)
  | msg => msg

end ClientMessage

theorem readMessages_eq (fuel : ℕ) (buf : Bytes) :
    readMessages fuel buf = parseLast readMessage fuel buf := by
  induction fuel generalizing buf with
  | zero => rfl
  | succ fuel ih =>
    rw [readMessages, parseLast]
    cases readMessage buf with
    | none => rfl
    | some read =>
      simp only [Option.bind_eq_bind, Option.bind_some, ih]

theorem readString_append {str : Bytes} (hstr : str.length ≤ 255) (rest : Bytes) :
    readString (stringToBytes str ++ rest) = some (str, rest) := by
  have hlen : (UInt8.ofNat str.length).toNat = str.length :=
    UInt8.toNat_ofNat_of_lt' (Nat.lt_succ_of_le hstr)
  have hle : ¬ str.length > (str ++ rest).length := by simp
  simp only [readString, stringToBytes, List.cons_append, readUint8, Option.bind_eq_bind,
    Option.bind_some, hlen, if_neg hle, List.take_left, List.drop_left]

theorem readString_broken {str w rest : Bytes} (hstr : str.length ≤ 255)
    (h : w ++ rest = stringToBytes str) (hrest : rest ≠ []) : readString w = none := by
  cases w with
  | nil => rfl
  | cons byte w =>
    obtain ⟨rfl, hw⟩ := List.cons.inj (List.cons_append ▸ h)
    have hlen : (UInt8.ofNat str.length).toNat = str.length :=
      UInt8.toNat_ofNat_of_lt' (Nat.lt_succ_of_le hstr)
    have hlt : str.length > w.length := by
      have hpos := List.length_pos_iff.mpr hrest
      rw [← hw, List.length_append]
      omega
    simp only [readString, readUint8, Option.bind_eq_bind, Option.bind_some, hlen, if_pos hlt]

theorem readString_eq_some {buf rest str : Bytes} (h : readString buf = some (str, rest)) :
    str.length ≤ 255 ∧ buf = stringToBytes str ++ rest := by
  cases buf with
  | nil => cases h
  | cons byte buf =>
    change (if byte.toNat > buf.length then none
      else some (buf.take byte.toNat, buf.drop byte.toNat)) = _ at h
    split at h
    · cases h
    · rename_i hle
      obtain ⟨rfl, rfl⟩ := Prod.mk.inj (Option.some.inj h)
      have hlt := byte.toNat_lt
      have hlen : (buf.take byte.toNat).length = byte.toNat :=
        List.length_take_of_le (Nat.le_of_not_lt hle)
      constructor
      · omega
      · rw [stringToBytes, hlen, UInt8.ofNat_toNat, List.cons_append, List.take_append_drop]

theorem reads_readMessage :
    Reads readMessage ClientMessage.toBytes ClientMessage.Fits ClientMessage.asReceived where
  whole {msg} rest hfit := by
    cases msg with
    | join name =>
      change (readString (stringToBytes name ++ rest) >>= fun read =>
        some (ClientMessage.join read.1, read.2)) = _
      rw [readString_append hfit]
      rfl
    | placeBomb => rfl
    | placeBlock => rfl
    | move direction => rfl
  only {buf msg rest} h := by
    cases buf with
    | nil => cases h
    | cons code buf =>
      change (if code = 0 then _ else _) = _ at h
      split_ifs at h with h0 h1 h2 h3
      · obtain ⟨⟨name, rest'⟩, hname, h⟩ := Option.bind_eq_some_iff.mp h
        obtain ⟨rfl, rfl⟩ := Prod.mk.inj (Option.some.inj h)
        obtain ⟨hlen, rfl⟩ := readString_eq_some hname
        exact ⟨.join name, hlen, rfl, by rw [h0]; rfl⟩
      · obtain ⟨rfl, rfl⟩ := Prod.mk.inj (Option.some.inj h)
        exact ⟨.placeBomb, trivial, rfl, by rw [h1]; rfl⟩
      · obtain ⟨rfl, rfl⟩ := Prod.mk.inj (Option.some.inj h)
        exact ⟨.placeBlock, trivial, rfl, by rw [h2]; rfl⟩
      · obtain ⟨⟨direction, rest'⟩, hread, h⟩ := Option.bind_eq_some_iff.mp h
        obtain ⟨rfl, rfl⟩ := Prod.mk.inj (Option.some.inj h)
        cases buf with
        | nil => cases hread
        | cons byte buf =>
          obtain ⟨rfl, rfl⟩ := Prod.mk.inj (Option.some.inj hread)
          refine ⟨.move (.ofByte byte), trivial, ?_, ?_⟩
          · simp [ClientMessage.asReceived]
          · simp [ClientMessage.toBytes, h3]
  ne_nil msg := by cases msg <;> exact List.cons_ne_nil _ _

/-- A message is read off the front of a buffer, and a piece of one is refused. -/
theorem frames_readMessage {msg : ClientMessage} (hfit : msg.Fits) :
    Frames readMessage ClientMessage.toBytes msg where
  whole rest := by
    cases msg with
    | join name =>
      refine ⟨.join name, ?_⟩
      change (readString (stringToBytes name ++ rest) >>= fun read =>
        some (ClientMessage.join read.1, read.2)) = _
      rw [readString_append hfit]
      rfl
    | placeBomb => exact ⟨.placeBomb, rfl⟩
    | placeBlock => exact ⟨.placeBlock, rfl⟩
    | move direction => exact ⟨_, rfl⟩
  broken w rest hw hrest := by
    cases w with
    | nil => rfl
    | cons code w =>
      rw [List.cons_append] at hw
      cases msg with
      | join name =>
        obtain ⟨rfl, htail⟩ := List.cons.inj hw
        change (readString w >>= fun read => some (ClientMessage.join read.1, read.2)) = _
        rw [readString_broken hfit htail hrest]
        rfl
      | placeBomb =>
        obtain ⟨rfl, htail⟩ := List.cons.inj hw
        exact absurd (List.append_eq_nil_iff.mp htail).2 hrest
      | placeBlock =>
        obtain ⟨rfl, htail⟩ := List.cons.inj hw
        exact absurd (List.append_eq_nil_iff.mp htail).2 hrest
      | move direction =>
        obtain ⟨rfl, htail⟩ := List.cons.inj hw
        cases w with
        | nil => rfl
        | cons byte w =>
          obtain ⟨hbyte, hnil⟩ := List.cons.inj (List.cons_append ▸ htail)
          exact absurd (List.append_eq_nil_iff.mp hnil).2 hrest
  ne_nil := by cases msg <;> exact List.cons_ne_nil _ _

theorem readFrom_of_le {bytes : Bytes} (hne : bytes ≠ []) (hlen : bytes.length ≤ 256) :
    readFrom (some bytes) = (.potentiallySuccess, bytes) := by
  rw [readFrom, Option.map_some, List.take_of_length_le hlen]
  cases bytes with
  | nil => exact absurd rfl hne
  | cons byte bytes => rfl

/-- One read of the bytes of a client, and the state that it finds. -/
structure Delivery (β : Type) where
  bytes : Bytes
  engine : GameEngine β
  slot : Slot
  uninitialised : Position

namespace Delivery

variable {β : Type} [PositionSet β] {d : Delivery β} {msgs : List ClientMessage}
  {deliveries : List (Delivery β)}

/-- The read is answered with `ERROR_MSG`. -/
def Refused (d : Delivery β) : Prop :=
  ∃ e sent, d.engine.handleMsg d.slot (some d.bytes) d.uninitialised = .ok (.errorMsg, e, sent)

/-- One call of `read` has put bytes into the buffer. -/
def Received (d : Delivery β) : Prop := d.bytes ≠ [] ∧ d.bytes.length ≤ 256

theorem refused_iff (hd : d.Received) :
    d.Refused ↔ ¬ (parseLast readMessage d.bytes.length d.bytes).isSome := by
  rw [Refused, GameEngine.handleMsg, readFrom_of_le hd.1 hd.2]
  simp only [readMessages_eq]
  cases hparse : parseLast readMessage d.bytes.length d.bytes with
  | none => simp
  | some msg =>
    simp only [Option.isSome_some, not_true_eq_false, iff_false, not_exists]
    intro e sent h
    obtain ⟨r, -, hr⟩ := Except.bind_eq_ok_iff.mp h
    cases Except.pure_eq_ok.mp hr

/--
A client that sends what the format allows is never refused exactly when every read
ends where a message ends.
-/
theorem not_refused_iff_aligned (hmsgs : ∀ msg ∈ msgs, msg.Fits)
    (hreceived : ∀ d ∈ deliveries, d.Received)
    (hbytes : deliveries.flatMap bytes = msgs.flatMap ClientMessage.toBytes) :
    (∀ d ∈ deliveries, ¬ d.Refused) ↔
      Aligned ClientMessage.toBytes (deliveries.map bytes) msgs := by
  rw [List.flatMap_def] at hbytes
  rw [← forall_isSome_iff_aligned (fun msg hmsg => frames_readMessage (hmsgs msg hmsg)) hbytes
    fun read hread => by
      obtain ⟨d, hd, rfl⟩ := List.mem_map.mp hread
      exact (hreceived d hd).1]
  rw [List.forall_mem_map]
  apply forall₂_congr
  intro d hd
  rw [refused_iff (hreceived d hd), not_not]

def splitMove : List (Delivery (StdSet Position)) :=
  [⟨[3], .new Server.solo, 1, default⟩, ⟨[0], .new Server.solo, 1, default⟩]

theorem not_refused_iff_aligned_splitMove : (∀ d ∈ splitMove, ¬ d.Refused) ↔
    Aligned ClientMessage.toBytes [[3], [0]] [.move .up] :=
  not_refused_iff_aligned (by simp [ClientMessage.Fits]) (by simp [splitMove, Received]) rfl

theorem exists_refused : ¬ ∀ (msgs : List ClientMessage)
    (deliveries : List (Delivery (StdSet Position))), (∀ msg ∈ msgs, msg.Fits) →
    (∀ d ∈ deliveries, d.Received) →
    deliveries.flatMap bytes = msgs.flatMap ClientMessage.toBytes →
    ∀ d ∈ deliveries, ¬ d.Refused := by
  intro h
  have hd := h [.move .up] splitMove (by simp [ClientMessage.Fits]) (by simp [splitMove, Received])
    rfl _ List.mem_cons_self
  exact hd ⟨_, _, rfl⟩

/-- A message that no read can hold gets its client refused, however it arrives. -/
theorem exists_refused_of_long (hmsgs : ∀ msg ∈ msgs, msg.Fits)
    (hreceived : ∀ d ∈ deliveries, d.Received)
    (hbytes : deliveries.flatMap bytes = msgs.flatMap ClientMessage.toBytes)
    {name : Bytes} (hname : name.length = 255) (hmem : .join name ∈ msgs) :
    ∃ d ∈ deliveries, d.Refused := by
  by_contra hnone
  have haligned := (not_refused_iff_aligned hmsgs hreceived hbytes).mp fun d hd hr =>
    hnone ⟨d, hd, hr⟩
  rw [List.flatMap_def] at hbytes
  obtain ⟨read, hread, hlen⟩ := haligned.exists_length_le hbytes
    (fun msg hmsg => (frames_readMessage (hmsgs msg hmsg)).ne_nil) _ hmem
  obtain ⟨d, hd, rfl⟩ := List.mem_map.mp hread
  have hmax := (hreceived d hd).2
  simp only [ClientMessage.toBytes, stringToBytes, List.length_cons, hname] at hlen
  omega

end Delivery

end Bomberrobots
