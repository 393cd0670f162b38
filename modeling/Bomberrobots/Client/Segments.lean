import Bomberrobots.Client.Wire

/-! # Reading across the ends of reads

The readers of the client on a stream that arrives in pieces. A byte and a number of four
bytes come out the same wherever the reads end. A number of two bytes does not survive a read
that ends inside it. A string that the first read behind its length does not hold survives
only if a read ends where the string does.
-/

namespace Bomberrobots
namespace Socket

open Reading

/-- The bytes that lie in the buffer and those that are still to come. -/
def stream (s : Socket) : Bytes := s.buf ++ s.incoming.flatten

/-- No call of `read_some` delivers nothing. -/
def Segmented (s : Socket) : Prop := ∀ read ∈ s.incoming, read ≠ []

def source : Source Socket UInt8 := ⟨stream, Segmented⟩

/-- A read ends behind the next `n` bytes. -/
def Ends (s : Socket) (n : ℕ) : Prop :=
  ∃ k, s.buf.length + (s.incoming.take k).flatten.length = n

def refilled (s : Socket) : Socket :=
  match s.buf, s.incoming with
  | [], bytes :: incoming => { s with buf := bytes, incoming := incoming }
  | _, _ => s

variable {s : Socket} {n : ℕ}

theorem stream_refilled : s.refilled.stream = s.stream := by
  unfold refilled
  split
  · simp [stream, *]
  · rfl

theorem Segmented.refilled (h : s.Segmented) : s.refilled.Segmented := by
  unfold Socket.refilled
  split
  · intro read hread
    exact h read (by simp [*])
  · exact h

theorem buf_refilled_ne (hs : s.Segmented) (h : s.stream ≠ []) : s.refilled.buf ≠ [] := by
  unfold Socket.refilled
  split
  · exact hs _ (by simp [*])
  · rename_i hnone
    intro hbuf
    cases hincoming : s.incoming with
    | nil => exact h (by simp [stream, hbuf, hincoming])
    | cons bytes incoming => exact hnone _ _ hbuf hincoming

theorem ends_refilled (hn : 0 < n) : s.refilled.Ends n ↔ s.Ends n := by
  unfold Socket.refilled
  split
  · rename_i bytes incoming hbuf hincoming
    simp only [Ends, hbuf, hincoming, List.length_nil, Nat.zero_add]
    constructor
    · rintro ⟨k, hk⟩
      exact ⟨k + 1, by simpa using hk⟩
    · rintro ⟨_ | k, hk⟩
      · simp at hk
        omega
      · exact ⟨k, by simpa using hk⟩
  · rfl

theorem readIfBufEmpty_run (hs : s.Segmented) (h : s.stream ≠ []) :
    readIfBufEmpty.run s = .ok ((), s.refilled) := by
  obtain ⟨_ | ⟨byte, buf⟩, _ | ⟨_ | ⟨byte', bytes⟩, incoming⟩, u⟩ := s
  · exact absurd rfl h
  · exact absurd rfl (hs [] List.mem_cons_self)
  · rfl
  · rfl
  · rfl
  · rfl

theorem Ends.le (h : s.Ends n) : s.buf.length ≤ n := by
  obtain ⟨k, rfl⟩ := h
  exact Nat.le_add_right _ _

theorem ends_buf (s : Socket) : s.Ends s.buf.length := ⟨0, by simp⟩

theorem ends_drop (hn : n ≤ s.buf.length) {m : ℕ} :
    Ends { s with buf := s.buf.drop n } m ↔ s.Ends (n + m) := by
  simp only [Ends, List.length_drop]
  apply exists_congr
  intro k
  omega

theorem stream_drop (hn : n ≤ s.buf.length) :
    stream { s with buf := s.buf.drop n } = s.stream.drop n := by
  simp [stream, List.drop_append_of_le_length hn]

theorem readUint8_run {byte : UInt8} {rest : Bytes} (hs : s.Segmented)
    (h : s.stream = byte :: rest) : ∃ s', readUint8.run s = .ok (byte, s') ∧ s'.Segmented ∧
      s'.stream = rest ∧ ∀ n, s'.Ends n ↔ s.Ends (n + 1) := by
  have hne : s.stream ≠ [] := by simp [h]
  have hbuf := buf_refilled_ne hs hne
  have hone : 1 ≤ s.refilled.buf.length := List.length_pos_iff.mpr hbuf
  refine ⟨{ s.refilled with buf := s.refilled.buf.drop 1 }, ?_, hs.refilled, ?_, fun n => ?_⟩
  · have hrun : readUint8.run s =
        .ok ((s.refilled.buf.take 1).headD 0,
          { s.refilled with buf := s.refilled.buf.drop 1 }) := by
      rw [readUint8, StateT.run_bind, readIfBufEmpty_run hs hne]
      rfl
    have hstream := stream_refilled.trans h
    obtain ⟨first, buf, hcons⟩ := List.exists_cons_of_ne_nil hbuf
    rw [stream, hcons, List.cons_append, List.cons.injEq] at hstream
    rw [hrun, hcons, ← hstream.1]
    rfl
  · rw [stream_drop hone, stream_refilled, h]
    rfl
  · rw [ends_drop hone, Nat.add_comm, ends_refilled n.succ_pos]

theorem draws_readUint8 (byte : UInt8) : Draws source readUint8 [byte] byte := by
  intro s rest hs h
  obtain ⟨s', hrun, hs', hrest, -⟩ := readUint8_run hs h
  exact ⟨s', hrun, hs', hrest⟩

def readUint16Whole : Reader UInt16 := do
  pure (.ofNat (ntoh (← takeBytes 2)))

def readUint16Bytewise : Reader UInt16 := do
  let byte ← readUint8
  let byte' ← readUninitialised
  pure (.ofNat (ntoh [byte, byte']))

def readUint32Whole : Reader UInt32 := do
  pure (.ofNat (ntoh (← takeBytes 4)))

def readUint32Bytewise : Reader UInt32 := do
  let byte ← readUint8
  let byte' ← readUint8
  let byte'' ← readUint8
  let byte''' ← readUint8
  pure (.ofNat (ntoh [byte, byte', byte'', byte''']))

variable {t : Socket} {v : UInt16} {w : UInt32} {rest rest' : Bytes}

theorem yields_of_consumes {α : Type} {r : Reader α} {word : Bytes} {a : α}
    (hr : Consumes r word a) (hs : s.Segmented) (h : s.stream = word ++ rest)
    (hlen : word.length ≤ s.buf.length) : Yields source r s a rest := by
  have hbuf : word ++ s.buf.drop word.length = s.buf := by
    have htake := congrArg (List.take word.length) h
    rw [stream, List.take_append_of_le_length hlen, List.take_left] at htake
    rw [← htake, List.length_take_of_le hlen, List.take_append_drop]
  refine ⟨{ s with buf := s.buf.drop word.length }, ?_, hs, ?_⟩
  · rw [← hr]
    change r.run s = r.run { s with buf := word ++ s.buf.drop word.length }
    rw [hbuf]
  · change stream { s with buf := s.buf.drop word.length } = rest
    rw [stream_drop hlen, h, List.drop_left]

theorem consumes_readUint16Whole : Consumes readUint16Whole (uint16ToBytes v) v := by
  have hread := (consumes_takeBytes (uint16ToBytes v)).map
    (f := fun bytes => UInt16.ofNat (ntoh bytes))
  rwa [ntoh_uint16ToBytes, UInt16.ofNat_toNat] at hread

theorem consumes_readUint32Whole : Consumes readUint32Whole (uint32ToBytes w) w := by
  have hread := (consumes_takeBytes (uint32ToBytes w)).map
    (f := fun bytes => UInt32.ofNat (ntoh bytes))
  rwa [ntoh_uint32ToBytes, UInt32.ofNat_toNat] at hread

theorem draws_readUint32Bytewise : Draws source readUint32Bytewise (uint32ToBytes w) w := by
  have hread : Draws source readUint32Bytewise (uint32ToBytes w)
      (.ofNat (ntoh (uint32ToBytes w))) :=
    (draws_readUint8 _).bind <| (draws_readUint8 _).bind <| (draws_readUint8 _).bind <|
      (draws_readUint8 _).bind .pure
  rwa [ntoh_uint32ToBytes, UInt32.ofNat_toNat] at hread

/-- The byte-by-byte path of `read_uint16` takes a single byte. -/
theorem readUint16Bytewise_run {byte : UInt8} (hs : s.Segmented) (h : s.stream = byte :: rest) :
    ∃ value s', readUint16Bytewise.run s = .ok (value, s') ∧ s'.stream = rest := by
  obtain ⟨s', hrun, -, hrest, -⟩ := readUint8_run hs h
  refine ⟨.ofNat (ntoh [byte, s'.uninitialised 0]),
    { s' with uninitialised := fun n => s'.uninitialised (n + 1) }, ?_, hrest⟩
  rw [readUint16Bytewise, StateT.run_bind, hrun]
  rfl

theorem not_yields_readUint16Bytewise {value : UInt16} (hs : s.Segmented)
    (h : s.stream = uint16ToBytes v ++ rest) :
    ¬ Yields source readUint16Bytewise s value rest := by
  obtain ⟨value', s', hrun, hrest⟩ := readUint16Bytewise_run hs h
  rw [yields_iff_of_run hrun]
  rintro ⟨-, -, hrest'⟩
  have hlen := congrArg List.length (hrest.symm.trans hrest')
  simp at hlen

theorem readUint16_run (hs : s.Segmented) (h : s.stream ≠ []) : readUint16.run s =
    (if 2 ≤ s.refilled.buf.length then readUint16Whole else readUint16Bytewise).run s.refilled := by
  rw [readUint16, StateT.run_bind, readIfBufEmpty_run hs h]
  change StateT.run (if 2 ≤ s.refilled.buf.length then _ else _) s.refilled = _
  split
  · rfl
  · rfl

theorem readUint32_run (hs : s.Segmented) (h : s.stream ≠ []) : readUint32.run s =
    (if 4 ≤ s.refilled.buf.length then readUint32Whole else readUint32Bytewise).run s.refilled := by
  rw [readUint32, StateT.run_bind, readIfBufEmpty_run hs h]
  change StateT.run (if 4 ≤ s.refilled.buf.length then _ else _) s.refilled = _
  split
  · rfl
  · rfl

theorem ends_one_iff (hs : s.Segmented) (h : s.stream ≠ []) :
    s.Ends 1 ↔ s.refilled.buf.length < 2 := by
  have hpos := List.length_pos_iff.mpr (buf_refilled_ne hs h)
  rw [← ends_refilled Nat.one_pos]
  constructor
  · intro hends
    have hle := hends.le
    omega
  · intro hlt
    have hends := ends_buf s.refilled
    rwa [show s.refilled.buf.length = 1 by omega] at hends

/-- A number of two bytes is read if and only if no read ends inside it. -/
theorem yields_readUint16_iff (hs : s.Segmented) (h : s.stream = uint16ToBytes v ++ rest) :
    Yields source readUint16 s v rest ↔ ¬ s.Ends 1 := by
  have hne : s.stream ≠ [] := by simp [h, uint16ToBytes]
  have hstream := stream_refilled.trans h
  rw [ends_one_iff hs hne, not_lt]
  unfold Yields
  rw [readUint16_run hs hne]
  split
  · rename_i hlen
    exact iff_of_true (yields_of_consumes consumes_readUint16Whole hs.refilled hstream hlen) hlen
  · rename_i hlen
    exact iff_of_false (not_yields_readUint16Bytewise hs.refilled hstream) hlen

theorem draws_readUint32 : Draws source readUint32 (uint32ToBytes w) w := by
  intro s rest hs h
  have hne : s.stream ≠ [] := by
    rw [show s.stream = uint32ToBytes w ++ rest from h]
    simp [uint32ToBytes]
  have hstream := stream_refilled.trans h
  unfold Yields
  rw [readUint32_run hs hne]
  split
  · rename_i hlen
    exact yields_of_consumes consumes_readUint32Whole hs.refilled hstream hlen
  · exact draws_readUint32Bytewise _ _ hs.refilled hstream

/-- The socket with the whole stream in the buffer. -/
def joined (s : Socket) : Socket := { s with buf := s.stream, incoming := [] }

theorem segmented_joined : s.joined.Segmented := by simp [joined, Segmented]

theorem stream_joined : s.joined.stream = s.stream := by simp [joined, stream]

/--
Where the buffer does not hold the value, the byte-by-byte path yields what the other path
yields with the whole stream in the buffer.
-/
def PathsAgree {α : Type} (size : ℕ) (whole bytewise : Reader α) (s : Socket) : Prop :=
  s.refilled.buf.length < size →
    ∃ value rest, Yields source whole s.joined value rest ∧ Yields source bytewise s value rest

/-- Both readers of numbers do what they are meant to, on either of their paths. -/
structure ReadsNumbers (s t : Socket) (v : UInt16) (w : UInt32) (rest rest' : Bytes) : Prop where
  uint16 : Yields source readUint16 s v rest
  uint32 : Yields source readUint32 t w rest'
  paths16 : PathsAgree 2 readUint16Whole readUint16Bytewise s
  paths32 : PathsAgree 4 readUint32Whole readUint32Bytewise t

theorem yields_joined {α : Type} {r : Reader α} {word : Bytes} {a : α}
    (hr : Consumes r word a) (h : s.stream = word ++ rest) : Yields source r s.joined a rest := by
  apply yields_of_consumes hr segmented_joined (stream_joined.trans h)
  simp [joined, h]

/-- Numbers are read if and only if no read ends between the two bytes of the short one. -/
theorem readsNumbers_iff (hs : s.Segmented) (ht : t.Segmented)
    (h : s.stream = uint16ToBytes v ++ rest) (h' : t.stream = uint32ToBytes w ++ rest') :
    ReadsNumbers s t v w rest rest' ↔ ¬ s.Ends 1 := by
  constructor
  · intro hreads
    exact (yields_readUint16_iff hs h).mp hreads.uint16
  · intro hends
    refine ⟨(yields_readUint16_iff hs h).mpr hends, draws_readUint32 t rest' ht h', ?_, ?_⟩
    · intro hlen
      have hne : s.stream ≠ [] := by simp [h, uint16ToBytes]
      exact absurd ((ends_one_iff hs hne).mpr hlen) hends
    · intro _
      exact ⟨w, rest', yields_joined consumes_readUint32Whole h',
        draws_readUint32Bytewise t rest' ht h'⟩

theorem readsNumbers_split : ReadsNumbers ⟨[], [[1, 2, 7]], fun _ => 0⟩
    ⟨[], [[0], [0], [0], [1, 9]], fun _ => 0⟩ 258 1 [7] [9] := by
  apply (readsNumbers_iff (by simp [Segmented]) (by simp [Segmented]) rfl rfl).mpr
  rw [ends_one_iff (by simp [Segmented]) (by simp [stream])]
  decide

/-- The bytes of 258 in two reads are not read as 258. -/
theorem exists_not_readsNumbers : ¬ ∀ (s t : Socket) (v : UInt16) (w : UInt32) (rest rest' : Bytes),
    s.Segmented → t.Segmented → s.stream = uint16ToBytes v ++ rest →
    t.stream = uint32ToBytes w ++ rest' → ReadsNumbers s t v w rest rest' := by
  intro hall
  have hs : Segmented ⟨[], [[1], [2]], fun _ => 0⟩ := by simp [Segmented]
  have ht : Segmented ⟨[], [[0, 0, 0, 0]], fun _ => 0⟩ := by simp [Segmented]
  have hreads := hall _ _ 258 0 [] [] hs ht rfl rfl
  apply (yields_readUint16_iff hs rfl).mp hreads.uint16
  exact ⟨1, rfl⟩

def passed (s : Socket) (strLength : ℕ) : Socket :=
  { s.refilled with buf := s.refilled.buf.drop (min strLength s.refilled.buf.length) }

section Strings

variable {strLength fuel : ℕ} {str word : Bytes}

theorem Segmented.passed (hs : s.Segmented) : (s.passed strLength).Segmented := hs.refilled

theorem stream_passed :
    (s.passed strLength).stream = s.stream.drop (min strLength s.refilled.buf.length) := by
  rw [passed, stream_drop (Nat.min_le_right _ _), stream_refilled]

theorem ends_passed (hs : s.Segmented) (h : s.stream ≠ [])
    (hlen : s.refilled.buf.length ≤ strLength) :
    (s.passed strLength).Ends n ↔ s.Ends (s.refilled.buf.length + n) := by
  have hpos := List.length_pos_iff.mpr (buf_refilled_ne hs h)
  rw [passed, ends_drop (Nat.min_le_right _ _), Nat.min_eq_right hlen, ends_refilled (by omega)]

theorem stream_passed_of_lt (h : s.stream = word ++ rest)
    (hlt : s.refilled.buf.length < word.length) (hlen : word.length ≤ strLength) :
    (s.passed strLength).stream = word.drop s.refilled.buf.length ++ rest := by
  rw [stream_passed, Nat.min_eq_right (hlt.le.trans hlen), h, List.drop_append_of_le_length hlt.le]

theorem ends_passed_drop (hs : s.Segmented) (h : s.stream ≠ [])
    (hlt : s.refilled.buf.length < word.length) (hlen : word.length ≤ strLength) :
    (s.passed strLength).Ends (word.drop s.refilled.buf.length).length ↔ s.Ends word.length := by
  rw [ends_passed hs h (hlt.le.trans hlen), List.length_drop, Nat.add_sub_cancel' hlt.le]

theorem readStringLoop_pass (hs : s.Segmented) (h : s.stream ≠ []) (hlt : str.length < strLength) :
    (readStringLoop strLength (fuel + 1) str).run s =
      (readStringLoop strLength fuel
        (str ++ s.stream.take (min strLength s.refilled.buf.length))).run (s.passed strLength) := by
  have htake : s.stream.take (min strLength s.refilled.buf.length) =
      s.refilled.buf.take (min strLength s.refilled.buf.length) := by
    rw [← stream_refilled, stream, List.take_append_of_le_length (Nat.min_le_right _ _)]
  rw [readStringLoop, if_pos hlt, StateT.run_bind, readIfBufEmpty_run hs h, htake, passed, min_def]
  rfl

theorem readStringLoop_stop (h : strLength ≤ str.length) :
    readStringLoop strLength fuel str = pure str := by
  cases fuel with
  | zero => rfl
  | succ fuel => rw [readStringLoop, if_neg (Nat.not_lt.mpr h)]

theorem yields_taken_iff (hs : s.Segmented) (h : s.stream = (word ++ rest).drop n)
    (hn : n ≤ (word ++ rest).length) :
    Yields source (pure (str ++ (word ++ rest).take n) : Reader Bytes) s (str ++ word) rest ↔
      n = word.length := by
  have hrun : (pure (str ++ (word ++ rest).take n) : Reader Bytes).run s =
      .ok (str ++ (word ++ rest).take n, s) := rfl
  rw [yields_iff_of_run hrun]
  constructor
  · rintro ⟨htaken, -⟩
    have hlen := congrArg List.length (List.append_cancel_left htaken)
    rwa [List.length_take_of_le hn] at hlen
  · rintro rfl
    refine ⟨?_, hs, ?_⟩
    · rw [List.take_left]
    · change s.stream = rest
      rw [h, List.drop_left]

/-- Behind the first pass, the end of the string must be the end of a read. -/
theorem yields_readStringLoop_iff (hs : s.Segmented) (h : s.stream = word ++ rest)
    (hstr : str ≠ []) (hword : word ≠ []) (hlen : str.length + word.length = strLength)
    (hfuel : word.length ≤ fuel) :
    Yields source (readStringLoop strLength fuel str) s (str ++ word) rest ↔
      s.Ends word.length := by
  induction fuel generalizing s str word with
  | zero => exact absurd (List.length_eq_zero_iff.mp (Nat.le_zero.mp hfuel)) hword
  | succ fuel ih =>
    have hne : s.stream ≠ [] := by simp [h, hword]
    have hstrpos := List.length_pos_iff.mpr hstr
    have hwordpos := List.length_pos_iff.mpr hword
    have hpos := List.length_pos_iff.mpr (buf_refilled_ne hs hne)
    have hle : min strLength s.refilled.buf.length ≤ (word ++ rest).length := by
      rw [← h, ← stream_refilled, stream, List.length_append]
      omega
    rw [yields_congr (readStringLoop_pass hs hne (by omega)), h]
    by_cases hmore : s.refilled.buf.length < word.length
    · -- the buffer ends inside the string
      have hmin : min strLength s.refilled.buf.length = s.refilled.buf.length := by omega
      have hrest := stream_passed_of_lt h hmore (show word.length ≤ strLength by omega)
      have hstr' : str ++ word.take s.refilled.buf.length ≠ [] := by simp [hstr]
      have hih := ih hs.passed hrest hstr' (by simp [hmore]) (by simp; omega) (by simp; omega)
      rw [List.append_assoc, List.take_append_drop, ends_passed_drop hs hne hmore (by omega)] at hih
      rw [hmin, List.take_append_of_le_length hmore.le]
      exact hih
    · rw [readStringLoop_stop (by simp; omega)]
      refine (yields_taken_iff hs.passed (by rw [stream_passed, h]) hle).trans ?_
      rw [← ends_refilled hwordpos]
      constructor
      · intro hmin
        have hends := ends_buf s.refilled
        rwa [show s.refilled.buf.length = word.length by omega] at hends
      · intro hends
        have hbuf := hends.le
        omega

theorem yields_readStringLoop_nil_iff (hs : s.Segmented) (h : s.stream = word ++ rest)
    (hlen : word.length = strLength) (hfuel : word.length ≤ fuel) :
    Yields source (readStringLoop strLength fuel []) s word rest ↔
      (∀ n, 0 < n → n < word.length → ¬ s.Ends n) ∨ s.Ends word.length := by
  cases fuel with
  | zero =>
    obtain rfl := List.length_eq_zero_iff.mp (Nat.le_zero.mp hfuel)
    exact iff_of_true ⟨s, rfl, hs, h⟩ (.inl fun n _ hn => absurd hn (Nat.not_lt_zero n))
  | succ fuel =>
    by_cases hword : word = []
    · subst hword hlen
      exact iff_of_true ⟨s, rfl, hs, h⟩ (.inl fun n _ hn => absurd hn (Nat.not_lt_zero n))
    have hne : s.stream ≠ [] := by simp [h, hword]
    have hwordpos := List.length_pos_iff.mpr hword
    have hpos := List.length_pos_iff.mpr (buf_refilled_ne hs hne)
    rw [yields_congr (readStringLoop_pass hs hne (hlen ▸ hwordpos)), h, List.nil_append]
    by_cases hmore : s.refilled.buf.length < word.length
    · have hmin : min strLength s.refilled.buf.length = s.refilled.buf.length := by omega
      have hrest := stream_passed_of_lt h hmore hlen.le
      have htaken : word.take s.refilled.buf.length ≠ [] := by simp [hword, hpos.ne']
      have hleft : (word.drop s.refilled.buf.length).length ≤ fuel := by
        rw [List.length_drop]
        omega
      have hlater := yields_readStringLoop_iff hs.passed hrest htaken (by simp [hmore])
        (by rw [← List.length_append, List.take_append_drop, hlen]) hleft
      rw [List.take_append_drop, ends_passed_drop hs hne hmore hlen.le] at hlater
      rw [hmin, List.take_append_of_le_length hmore.le, hlater]
      constructor
      · exact .inr
      · rintro (hnone | hends)
        · have hends := (ends_refilled hpos).mp (ends_buf s.refilled)
          exact absurd hends (hnone _ hpos hmore)
        · exact hends
    · have hmin : min strLength s.refilled.buf.length = word.length := by omega
      have htaken : Yields source (pure ([] ++ (word ++ rest).take word.length) : Reader Bytes)
          (s.passed strLength) ([] ++ word) rest ↔ word.length = word.length :=
        yields_taken_iff hs.passed (by rw [stream_passed, h, hmin]) (by simp)
      rw [hmin, readStringLoop_stop (by simp [hlen])]
      refine iff_of_true (htaken.mpr rfl) (.inl fun n hn hlt hends => hmore ?_)
      exact lt_of_le_of_lt ((ends_refilled hn).mpr hends).le hlt

/-- No read ends inside the string behind its first byte, or one ends where the string does. -/
def KeepsString (s : Socket) (strLength : ℕ) : Prop :=
  (∀ n, 1 < n → n ≤ strLength → ¬ s.Ends n) ∨ s.Ends (strLength + 1)

theorem length_readStringLoop_le {s' : Socket} {str' : Bytes} (hlen : str.length ≤ 2 * strLength)
    (hrun : (readStringLoop strLength fuel str).run s = .ok (str', s')) :
    str'.length ≤ 2 * strLength := by
  induction fuel generalizing s str with
  | zero =>
    obtain ⟨rfl, -⟩ := Prod.mk.inj (Except.ok.inj hrun)
    exact hlen
  | succ fuel ih =>
    rw [readStringLoop] at hrun
    split at hrun
    · rename_i hlt
      rw [StateT.run_bind] at hrun
      obtain ⟨⟨_, t⟩, _, hpass⟩ := Except.bind_eq_ok_iff.mp hrun
      change (readStringLoop strLength fuel (str ++ t.buf.take
        (if strLength ≤ t.buf.length then strLength else t.buf.length))).run _ = _ at hpass
      refine ih ?_ hpass
      rw [List.length_append, List.length_take]
      split <;> omega
    · obtain ⟨rfl, -⟩ := Prod.mk.inj (Except.ok.inj hrun)
      exact hlen

/-- What `read_string` does with the bytes behind the length. -/
theorem readString_run (hs : s.Segmented) (h : s.stream = stringToBytes str ++ rest) :
    ∃ s', readString.run s =
        (readStringLoop (UInt8.ofNat str.length).toNat (UInt8.ofNat str.length).toNat []).run s' ∧
      s'.Segmented ∧ s'.stream = str ++ rest ∧ ∀ n, s'.Ends n ↔ s.Ends (n + 1) := by
  obtain ⟨s', hrun, hs', hrest, hends⟩ := readUint8_run hs h
  refine ⟨s', ?_, hs', hrest, hends⟩
  rw [readString, StateT.run_bind, hrun]
  rfl

/--
A string is read if and only if its length fits the byte in front of it and no read ends in
the wrong place.
-/
theorem yields_readString_iff (hs : s.Segmented) (h : s.stream = stringToBytes str ++ rest) :
    Yields source readString s str rest ↔ str.length ≤ 255 ∧ s.KeepsString str.length := by
  obtain ⟨s', hrun, hs', hrest, hends⟩ := readString_run hs h
  rw [yields_congr hrun]
  by_cases hstr : str.length ≤ 255
  · rw [and_iff_right hstr, UInt8.toNat_ofNat_of_lt' (Nat.lt_succ_of_le hstr),
      yields_readStringLoop_nil_iff hs' hrest rfl le_rfl]
    simp only [hends]
    apply or_congr_left
    constructor
    · intro hnone n hn hle
      obtain ⟨m, rfl⟩ := Nat.exists_eq_add_of_lt hn
      rw [Nat.add_comm 1 m]
      exact hnone (m + 1) m.succ_pos (by omega)
    · intro hnone n hn hlt
      exact hnone (n + 1) (by omega) (by omega)
  · -- the byte holds the length without its multiples of 256
    refine iff_of_false ?_ fun hkeeps => hstr hkeeps.1
    rintro ⟨t, hloop, -⟩
    have hle := length_readStringLoop_le (Nat.zero_le _) hloop
    rw [UInt8.toNat_ofNat'] at hle
    omega

/-- A string whose length fits is read if and only if no read ends in the wrong place. -/
theorem readString_iff_keepsString (hs : s.Segmented) (hstr : str.length ≤ 255)
    (h : s.stream = stringToBytes str ++ rest) :
    Yields source readString s str rest ↔ s.KeepsString str.length := by
  rw [yields_readString_iff hs h, and_iff_right hstr]

theorem readString_split : Yields source readString
    ⟨[], [[3, 65], [66, 67], [68]], fun _ => 0⟩ [65, 66, 67] [68] := by
  apply (readString_iff_keepsString (by simp [Segmented]) (by decide) rfl).mpr
  exact .inr ⟨2, rfl⟩

/-- A string that ends inside the second read takes the byte behind it along. -/
theorem exists_not_yields_readString : ¬ ∀ (s : Socket) (str rest : Bytes), s.Segmented →
    (∀ read ∈ s.incoming, read.length ≤ 256) → str.length ≤ 255 →
    s.stream = stringToBytes str ++ rest → Yields source readString s str rest := by
  intro hall
  have hs : Segmented ⟨[], [[3, 65], [66, 67, 68]], fun _ => 0⟩ := by simp [Segmented]
  have hread := hall _ [65, 66, 67] [68] hs (by decide) (by decide) rfl
  rw [yields_readString_iff hs rfl] at hread
  rcases hread.2 with hnone | ⟨_ | _ | _ | k, hk⟩
  · exact hnone 2 (by decide) (by decide) ⟨1, rfl⟩
  · cases hk
  · cases hk
  · cases hk
  · cases hk

end Strings

end Socket
end Bomberrobots
