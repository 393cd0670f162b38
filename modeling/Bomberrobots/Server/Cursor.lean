import Bomberrobots.Library.DataRefinement
import Bomberrobots.Library.WhileLoop
import Bomberrobots.Server.Framing

/-! # The cursor into the receive buffer

The engine reads a message through a cursor into the buffer of the handler, which still holds
the bytes of earlier reads behind the ones that it has received. The readers on lists are what
the cursor does as long as it stays within the received bytes, and it does.
-/

namespace Bomberrobots

open DataRefinement

/--
`current_buf_t`: where the cursor stands, and how many bytes are left. The indices at which
bytes have been read are kept for the proofs.
-/
structure CurrentBuf where
  buf : ℕ
  bufLength : ℤ
  reads : List ℕ

namespace CurrentBuf

def received (bytesCount : ℕ) : CurrentBuf := ⟨0, bytesCount, []⟩

def update (c : CurrentBuf) (bytesCount : ℕ) : CurrentBuf where
  buf := c.buf + bytesCount
  bufLength := c.bufLength - bytesCount
  reads := c.reads ++ List.range' c.buf bytesCount

def isBufEmpty (c : CurrentBuf) : Bool := c.bufLength == 0

variable (mem : ℕ → UInt8)

/-- The bytes from the cursor on, without a look at how many are left. -/
def bytesAt (c : CurrentBuf) (bytesCount : ℕ) : Bytes := (List.range' c.buf bytesCount).map mem

def readUint8 : Program CurrentBuf UInt8 := fun c =>
  if c.bufLength < 1 then (none, c) else (some (mem c.buf), c.update 1)

def readString : Program CurrentBuf Bytes := do
  let strLength ← readUint8 mem
  fun c =>
    if (strLength.toNat : ℤ) > c.bufLength then (none, c)
    else (some (c.bytesAt mem strLength.toNat), c.update strLength.toNat)

def readMessage : Program CurrentBuf ClientMessage := do
  let code ← readUint8 mem
  if code = 0 then
    let name ← readString mem
    pure (.join name)
  else if code = 1 then pure .placeBomb
  else if code = 2 then pure .placeBlock
  else if code = 3 then
    let direction ← readUint8 mem
    pure (.move (.ofByte direction))
  else failure

end CurrentBuf

/-- The locals of `handle_msg`: the cursor, the last message, and whether the parsing has failed. -/
structure Parse where
  currentBuf : CurrentBuf
  msg : Option ClientMessage
  caught : Bool

namespace Parse

def start (bytesCount : ℕ) : Parse := ⟨.received bytesCount, none, false⟩

/--
The loop of `handle_msg`. It is a `do` loop, but a buffer that holds bytes passes the guard
anyway. An exception leaves the loop.
-/
def loop (mem : ℕ → UInt8) : WhileLoop Parse where
  guard t := !t.caught && !t.currentBuf.isBufEmpty
  body t :=
    match CurrentBuf.readMessage mem t.currentBuf with
    | (some msg, currentBuf) => ⟨currentBuf, some msg, false⟩
    | (none, currentBuf) => ⟨currentBuf, t.msg, true⟩

def result (t : Parse) : Option ClientMessage := if t.caught then none else t.msg

end Parse

/-- The buffer of the handler holds the received bytes, and anything behind them. -/
def Holds (mem : ℕ → UInt8) (bytes : Bytes) : Prop :=
  ∀ (k : ℕ) (byte : UInt8), bytes[k]? = some byte → mem k = byte

namespace CurrentBuf

variable {mem : ℕ → UInt8} {bytes rest : Bytes} {c : CurrentBuf} {n : ℕ}

/-- No byte has been read behind the received ones. -/
def Within (bytes : Bytes) (c : CurrentBuf) : Prop := ∀ k ∈ c.reads, k < bytes.length

structure Rest (bytes rest : Bytes) (c : CurrentBuf) : Prop where
  drop : rest = bytes.drop c.buf
  length : c.bufLength = rest.length
  bounded : c.buf ≤ bytes.length
  within : c.Within bytes

def representation (bytes : Bytes) : Representation Bytes CurrentBuf where
  rel := Rest bytes
  safe := Within bytes
  safe_of_rel h := h.within

theorem Rest.received : Rest bytes bytes (.received bytes.length) where
  drop := rfl
  length := rfl
  bounded := Nat.zero_le _
  within _ hk := absurd hk List.not_mem_nil

theorem Rest.update (h : Rest bytes rest c) (hn : n ≤ rest.length) :
    Rest bytes (rest.drop n) (c.update n) := by
  have hlen := congrArg List.length h.drop
  rw [List.length_drop] at hlen
  have hbounded := h.bounded
  constructor
  · rw [h.drop, List.drop_drop]
    rfl
  · simp only [CurrentBuf.update, h.length, List.length_drop]
    omega
  · simp only [CurrentBuf.update]
    omega
  · intro k hk
    rcases List.mem_append.mp hk with hk | hk
    · exact h.within k hk
    · obtain ⟨j, hj, rfl⟩ := List.mem_range'.mp hk
      omega

theorem Rest.bytesAt (h : Rest bytes rest c) (hm : Holds mem bytes) (hn : n ≤ rest.length) :
    c.bytesAt mem n = rest.take n := by
  apply List.ext_getElem?
  intro k
  rw [CurrentBuf.bytesAt, List.getElem?_map, List.getElem?_take]
  split
  · rename_i hk
    rw [List.getElem?_range' hk, Option.map_some, one_mul, h.drop, List.getElem?_drop]
    obtain ⟨byte, hbyte⟩ : ∃ byte, bytes[c.buf + k]? = some byte := by
      have hlen := congrArg List.length h.drop
      rw [List.length_drop] at hlen
      exact ⟨_, List.getElem?_eq_getElem (by omega)⟩
    rw [hbyte, hm _ _ hbyte]
  · rename_i hk
    rw [List.getElem?_eq_none (by simpa using hk), Option.map_none]

theorem refines_readUint8 (hm : Holds mem bytes) :
    Refines (representation bytes) Bomberrobots.readUint8 (readUint8 mem) := by
  intro rest c h
  have hlen : c.bufLength = rest.length := Rest.length h
  cases rest with
  | nil =>
    have hempty : c.bufLength < 1 := by simp [hlen]
    rw [readUint8, if_pos hempty]
    exact .stop (Rest.within h)
  | cons byte rest =>
    have hfull : ¬ c.bufLength < 1 := by
      rw [hlen, List.length_cons]
      omega
    have hbyte := Rest.bytesAt (n := 1) h hm (by simp)
    obtain rfl : mem c.buf = byte := by simpa [CurrentBuf.bytesAt] using hbyte
    rw [readUint8, if_neg hfull]
    exact .value (Rest.update (n := 1) h (by simp))

abbrev ListReader (α : Type) := StateT Bytes Option α

theorem readString_eq_bind : @Eq (ListReader Bytes) Bomberrobots.readString
    ((Bomberrobots.readUint8 : ListReader UInt8) >>= fun (strLength : UInt8) (buf : Bytes) =>
      if strLength.toNat > buf.length then none
      else some (buf.take strLength.toNat, buf.drop strLength.toNat)) :=
  rfl

theorem readMessage_eq_bind : @Eq (ListReader ClientMessage) Bomberrobots.readMessage
    ((Bomberrobots.readUint8 : ListReader UInt8) >>= fun (code : UInt8) =>
      if code = 0 then
        (Bomberrobots.readString : ListReader Bytes) >>= fun name => pure (.join name)
      else if code = 1 then pure .placeBomb
      else if code = 2 then pure .placeBlock
      else if code = 3 then
        (Bomberrobots.readUint8 : ListReader UInt8) >>= fun (direction : UInt8) =>
          pure (.move (.ofByte direction))
      else fun _ => none) := by
  funext buf
  cases buf with
  | nil => rfl
  | cons code buf =>
    change (if code = 0 then _ else _) = (if code = 0 then _ else _ : ListReader _) buf
    split_ifs <;> rfl

theorem refines_readString (hm : Holds mem bytes) :
    Refines (representation bytes) Bomberrobots.readString (readString mem) := by
  rw [readString_eq_bind]
  apply (refines_readUint8 hm).bind
  intro strLength rest c h
  have hlen : c.bufLength = rest.length := Rest.length h
  dsimp only
  by_cases hlong : strLength.toNat > rest.length
  · have hlong' : (strLength.toNat : ℤ) > c.bufLength := by omega
    rw [if_pos hlong, if_pos hlong']
    exact .stop (Rest.within h)
  · have hshort : ¬ (strLength.toNat : ℤ) > c.bufLength := by omega
    have hle := Nat.le_of_not_lt hlong
    rw [if_neg hlong, if_neg hshort, Rest.bytesAt h hm hle]
    exact .value (Rest.update h hle)

theorem refines_readMessage (hm : Holds mem bytes) :
    Refines (representation bytes) Bomberrobots.readMessage (readMessage mem) := by
  rw [readMessage_eq_bind]
  apply (refines_readUint8 hm).bind
  intro code
  apply Refines.ite
  · exact (refines_readString hm).bind fun name => .pure
  · apply Refines.ite .pure
    apply Refines.ite .pure
    apply Refines.ite
    · exact (refines_readUint8 hm).bind fun direction => .pure
    · exact .stop

end CurrentBuf

namespace Parse

variable {mem : ℕ → UInt8} {bytes rest : Bytes} {c : CurrentBuf} {msg : Option ClientMessage}

theorem guard_iff (h : CurrentBuf.Rest bytes rest c) :
    (loop mem).guard ⟨c, msg, false⟩ = !rest.isEmpty := by
  simp only [loop, CurrentBuf.isBufEmpty, h.length]
  cases rest with
  | nil => rfl
  | cons byte rest => rfl

/-- The loop ends, without a look at what is not received, and with the message of the model. -/
theorem exec_loop (hm : Holds mem bytes) {fuel : ℕ} (h : CurrentBuf.Rest bytes rest c)
    (hrest : rest ≠ []) (hfuel : rest.length ≤ fuel) :
    ∃ t, (loop mem).exec (fuel + 1) ⟨c, msg, false⟩ = some t ∧ t.currentBuf.Within bytes ∧
      t.result = readMessages fuel rest := by
  induction fuel generalizing rest c msg with
  | zero => exact absurd (List.length_eq_zero_iff.mp (Nat.le_zero.mp hfuel)) hrest
  | succ fuel ih =>
    have hguard : (loop mem).guard ⟨c, msg, false⟩ = true := by
      rw [guard_iff h]
      simpa using hrest
    rw [WhileLoop.exec, if_pos hguard]
    have hread := CurrentBuf.refines_readMessage hm rest c h
    rw [readMessages]
    simp only [loop]
    generalize hx : readMessage rest = x at hread ⊢
    generalize CurrentBuf.readMessage mem c = y at hread ⊢
    cases hread with
    | @value msg' rest' c' h' =>
      by_cases hempty : rest' = []
      · subst hempty
        refine ⟨⟨c', some msg', false⟩, ?_, h'.within, rfl⟩
        exact WhileLoop.exec_of_not_guard (guard_iff h')
      · have hlen := reads_readMessage.length_lt hx
        obtain ⟨t, ht, hwithin, hresult⟩ := @ih rest' c' (some msg') h' hempty (by omega)
        refine ⟨t, ht, hwithin, hresult.trans ?_⟩
        simp [hempty]
    | @stop c' hsafe =>
      refine ⟨⟨c', msg, true⟩, ?_, hsafe, rfl⟩
      exact WhileLoop.exec_of_not_guard rfl

end Parse

end Bomberrobots
