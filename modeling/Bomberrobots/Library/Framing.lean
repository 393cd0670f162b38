import Mathlib.Data.List.Basic

/-! # Messages cut into reads

A receiver that parses every read for itself, up to its end. If the format lets no
message be confused with an initial segment of another, it accepts all reads of a stream
exactly when each of them ends where a message ends.
-/

namespace Framing

variable {β κ μ : Type}

/-- Parse messages off a buffer until it is empty, and keep the last one. -/
def parseLast (parse : List β → Option (μ × List β)) : ℕ → List β → Option μ
  | 0, _ => none
  | fuel + 1, buf => do
    let (msg, buf) ← parse buf
    if buf.isEmpty then some msg else parseLast parse fuel buf

/-- The parser takes whole encodings off a buffer, and refuses a piece that breaks off. -/
structure Frames (parse : List β → Option (μ × List β)) (encode : κ → List β) (k : κ) : Prop where
  whole : ∀ rest, ∃ msg, parse (encode k ++ rest) = some (msg, rest)
  broken : ∀ w rest, w ++ rest = encode k → rest ≠ [] → parse w = none
  ne_nil : encode k ≠ []

/-- Every read ends where a message ends. -/
def Aligned (encode : κ → List β) (reads : List (List β)) (ks : List κ) : Prop :=
  ∀ k, ∃ j, (reads.take k).flatten = (ks.take j).flatMap encode

variable {parse : List β → Option (μ × List β)} {encode : κ → List β} {ks : List κ}
  {w rest : List β} {reads : List (List β)}

theorem append_eq_append_cases {e f : List β} (h : w ++ rest = e ++ f) :
    (∃ c, c ≠ [] ∧ w ++ c = e) ∨ ∃ w', w = e ++ w' ∧ w' ++ rest = f := by
  rcases List.append_eq_append_iff.mp h with ⟨c, rfl, hrest⟩ | ⟨w', rfl, hf⟩
  · by_cases hc : c = []
    · subst hc
      exact .inr ⟨[], by simp, by simpa using hrest⟩
    · exact .inl ⟨c, hc, rfl⟩
  · exact .inr ⟨w', rfl, hf.symm⟩

theorem exists_take_cons_iff {k : κ} (hw : w ≠ []) :
    (∃ j, w = ((k :: ks).take j).flatMap encode) ↔
      ∃ j, w = encode k ++ (ks.take j).flatMap encode := by
  constructor
  · rintro ⟨_ | j, hj⟩
    · exact absurd hj hw
    · exact ⟨j, hj⟩
  · rintro ⟨j, hj⟩
    exact ⟨j + 1, hj⟩

namespace Frames

variable {k : κ}

theorem parseLast_broken (hk : Frames parse encode k) (h : w ++ rest = encode k) (hr : rest ≠ [])
    (fuel : ℕ) : parseLast parse fuel w = none := by
  cases fuel with
  | zero => rfl
  | succ fuel => simp [parseLast, hk.broken w rest h hr]

theorem parseLast_append (hk : Frames parse encode k) (fuel : ℕ) :
    (parseLast parse (fuel + 1) (encode k ++ w)).isSome ↔
      w = [] ∨ (parseLast parse fuel w).isSome := by
  obtain ⟨msg, hmsg⟩ := hk.whole w
  rw [parseLast, hmsg]
  cases w with
  | nil => simp
  | cons b w => simp

end Frames

/-- A read of a stream is accepted exactly when it ends where a message ends. -/
theorem parseLast_isSome_iff {fuel : ℕ} (hks : ∀ k ∈ ks, Frames parse encode k)
    (h : w ++ rest = ks.flatMap encode) (hw : w ≠ []) (hfuel : w.length ≤ fuel) :
    (parseLast parse fuel w).isSome ↔ ∃ j, w = (ks.take j).flatMap encode := by
  induction ks generalizing w fuel with
  | nil => exact absurd (List.append_eq_nil_iff.mp h).1 hw
  | cons k ks ih =>
    have hk := hks k List.mem_cons_self
    rw [exists_take_cons_iff hw]
    rcases append_eq_append_cases h with ⟨c, hc, hk'⟩ | ⟨w', rfl, hw'⟩
    · -- the word breaks off inside the first message
      rw [hk.parseLast_broken hk' hc]
      constructor
      · intro hsome
        cases hsome
      · rintro ⟨j, hj⟩
        have hlen := congrArg List.length hj
        have hlen' := congrArg List.length hk'
        have hpos := List.length_pos_iff.mpr hc
        simp only [List.length_append] at hlen hlen'
        omega
    · have hpos := List.length_pos_iff.mpr hk.ne_nil
      rw [List.length_append] at hfuel
      obtain ⟨fuel, rfl⟩ : ∃ n, fuel = n + 1 := Nat.exists_eq_add_one.mpr (by omega)
      rw [hk.parseLast_append]
      simp only [List.append_cancel_left_eq]
      by_cases hnil : w' = []
      · exact ⟨fun _ => ⟨0, hnil⟩, fun _ => .inl hnil⟩
      · rw [or_iff_right hnil]
        exact ih (fun k hk => hks k (List.mem_cons_of_mem _ hk)) hw' hnil (by omega)

theorem parseLast_of_parse {m : μ} (h : parse w = some (m, rest)) (fuel : ℕ) :
    parseLast parse (fuel + 1) w = if rest.isEmpty then some m else parseLast parse fuel rest := by
  rw [parseLast, h]
  rfl

/-- The parser takes off a buffer the encodings of the valid messages, and nothing else. -/
structure Reads (parse : List β → Option (μ × List β)) (encode : κ → List β) (Valid : κ → Prop)
    (value : κ → μ) : Prop where
  whole : ∀ {k} rest, Valid k → parse (encode k ++ rest) = some (value k, rest)
  only : ∀ {w m rest}, parse w = some (m, rest) →
    ∃ k, Valid k ∧ value k = m ∧ w = encode k ++ rest
  ne_nil : ∀ k, encode k ≠ []

namespace Reads

variable {Valid : κ → Prop} {value : κ → μ} {ks' : List κ} {m : μ}

theorem length_lt (h : Reads parse encode Valid value) (hw : parse w = some (m, rest)) :
    rest.length < w.length := by
  obtain ⟨k, -, -, rfl⟩ := h.only hw
  have hpos := List.length_pos_iff.mpr (h.ne_nil k)
  rw [List.length_append]
  omega

/-- A buffer is accepted exactly if it is a concatenation of encodings, and the last one counts. -/
theorem parseLast_eq_some_iff (h : Reads parse encode Valid value) {fuel : ℕ}
    (hfuel : w.length ≤ fuel) :
    parseLast parse fuel w = some m ↔
      ∃ ks k, (∀ k' ∈ ks ++ [k], Valid k') ∧ value k = m ∧ w = (ks ++ [k]).flatMap encode := by
  induction fuel generalizing w with
  | zero =>
    obtain rfl := List.length_eq_zero_iff.mp (Nat.le_zero.mp hfuel)
    constructor
    · intro hlast
      cases hlast
    · rintro ⟨ks, k, -, -, hw⟩
      rw [List.flatMap_append, List.flatMap_singleton] at hw
      exact absurd (List.append_eq_nil_iff.mp hw.symm).2 (h.ne_nil k)
  | succ fuel ih =>
    constructor
    · intro hlast
      obtain ⟨⟨m', rest⟩, hread, -⟩ := Option.bind_eq_some_iff.mp hlast
      rw [parseLast_of_parse hread] at hlast
      have hlen := h.length_lt hread
      obtain ⟨k, hk, hm, rfl⟩ := h.only hread
      split at hlast
      · rename_i hnil
        rw [List.isEmpty_iff] at hnil
        subst hnil
        exact ⟨[], k, by simpa using hk, hm.trans (Option.some.inj hlast), by simp⟩
      · obtain ⟨ks, k', hks, hk', rfl⟩ := (ih (by omega)).mp hlast
        refine ⟨k :: ks, k', ?_, hk', by simp⟩
        rw [List.cons_append, List.forall_mem_cons]
        exact ⟨hk, hks⟩
    · rintro ⟨ks, k, hks, hm, rfl⟩
      cases ks with
      | nil =>
        have hread := h.whole [] (hks k (by simp))
        rw [List.append_nil] at hread
        rw [List.nil_append, List.flatMap_singleton, parseLast_of_parse hread, hm]
        rfl
      | cons k' ks =>
        rw [List.cons_append, List.forall_mem_cons] at hks
        have hread := h.whole ((ks ++ [k]).flatMap encode) hks.1
        rw [List.cons_append, List.flatMap_cons] at hfuel ⊢
        have hlen := h.length_lt hread
        have hlast := (ih (w := (ks ++ [k]).flatMap encode) (by omega)).mpr
          ⟨ks, k, hks.2, hm, rfl⟩
        have hnil : (ks ++ [k]).flatMap encode ≠ [] := by
          rw [List.flatMap_append, List.flatMap_singleton]
          exact List.append_ne_nil_of_right_ne_nil _ (h.ne_nil k)
        rw [parseLast_of_parse hread, if_neg (by simpa using hnil), hlast]

theorem frames (h : Reads parse encode Valid value) {k : κ} (hk : Valid k) :
    Frames parse encode k where
  whole rest := ⟨value k, h.whole rest hk⟩
  broken w rest hw hrest := by
    cases hread : parse w with
    | none => rfl
    | some read =>
      obtain ⟨m, rest'⟩ := read
      obtain ⟨k', hk', -, rfl⟩ := h.only hread
      -- the encoding of `k` goes on behind that of `k'`, and is read as one or the other
      have hlong := h.whole (rest' ++ rest) hk'
      rw [← List.append_assoc, hw] at hlong
      have hshort := h.whole [] hk
      rw [List.append_nil, hlong] at hshort
      have hnil := (Prod.mk.inj (Option.some.inj hshort)).2
      exact absurd (List.append_eq_nil_iff.mp hnil).2 hrest
  ne_nil := h.ne_nil k

theorem exists_of_parseLast (h : Reads parse encode Valid value) (hks : ∀ k ∈ ks, Valid k)
    (hw : w ++ rest = ks.flatMap encode) {fuel : ℕ} (hfuel : w.length ≤ fuel)
    (hlast : parseLast parse fuel w = some m) :
    ∃ before k after, ks = before ++ k :: after ∧ value k = m ∧ rest = after.flatMap encode := by
  obtain ⟨before', k', -, -, hwhole⟩ := (h.parseLast_eq_some_iff hfuel).mp hlast
  have hne : w ≠ [] := by
    rintro rfl
    rw [List.flatMap_append, List.flatMap_singleton] at hwhole
    exact h.ne_nil k' (List.append_eq_nil_iff.mp hwhole.symm).2
  obtain ⟨j, hj⟩ := (parseLast_isSome_iff (fun k hk => h.frames (hks k hk)) hw hne hfuel).mp
    (by rw [hlast]; rfl)
  have hrest : rest = (ks.drop j).flatMap encode := by
    rw [← List.take_append_drop j ks, List.flatMap_append, ← hj] at hw
    exact List.append_cancel_left hw
  rcases List.eq_nil_or_concat (ks.take j) with hnil | ⟨before, k, htake⟩
  · rw [hnil] at hj
    exact absurd hj hne
  · rw [List.concat_eq_append] at htake
    have hvalid : ∀ k' ∈ before ++ [k], Valid k' := fun k' hk' =>
      hks k' (List.mem_of_mem_take (htake ▸ hk'))
    have hsome := (h.parseLast_eq_some_iff hfuel).mpr ⟨before, k, hvalid, rfl, htake ▸ hj⟩
    refine ⟨before, k, ks.drop j, ?_, Option.some.inj (hsome.symm.trans hlast), hrest⟩
    rw [← List.singleton_append, ← List.append_assoc, ← htake, List.take_append_drop]

theorem map_value_eq (h : Reads parse encode Valid value) (hks : ∀ k ∈ ks, Valid k)
    (hks' : ∀ k ∈ ks', Valid k) (heq : ks.flatMap encode = ks'.flatMap encode) :
    ks.map value = ks'.map value := by
  induction ks generalizing ks' with
  | nil =>
    cases ks' with
    | nil => rfl
    | cons k' ks' => exact absurd (List.append_eq_nil_iff.mp heq.symm).1 (h.ne_nil k')
  | cons k ks ih =>
    cases ks' with
    | nil => exact absurd (List.append_eq_nil_iff.mp heq).1 (h.ne_nil k)
    | cons k' ks' =>
      rw [List.flatMap_cons, List.flatMap_cons] at heq
      rw [List.forall_mem_cons] at hks hks'
      have hread := h.whole (ks.flatMap encode) hks.1
      rw [heq, h.whole _ hks'.1] at hread
      obtain ⟨hvalue, hrest⟩ := Prod.mk.inj (Option.some.inj hread)
      rw [List.map_cons, List.map_cons, hvalue, ih hks.2 hks'.2 hrest.symm]

end Reads

theorem aligned_cons_iff {read : List β} {j : ℕ} (hread : read = (ks.take j).flatMap encode) :
    Aligned encode (read :: reads) ks ↔ Aligned encode reads (ks.drop j) := by
  constructor
  · intro h k
    obtain ⟨m, hm⟩ := h (k + 1)
    rw [List.take_succ_cons, List.flatten_cons, hread] at hm
    rcases Nat.le_total j m with hjm | hmj
    · obtain ⟨i, rfl⟩ := Nat.exists_eq_add_of_le hjm
      rw [List.take_add, List.flatMap_append] at hm
      exact ⟨i, List.append_cancel_left hm⟩
    · -- nothing but what has been read
      obtain ⟨i, rfl⟩ := Nat.exists_eq_add_of_le hmj
      rw [List.take_add, List.flatMap_append, List.append_assoc] at hm
      have hnil := List.append_right_eq_self.mp hm
      exact ⟨0, (List.append_eq_nil_iff.mp hnil).2⟩
  · rintro h (_ | k)
    · exact ⟨0, rfl⟩
    · obtain ⟨i, hi⟩ := h k
      refine ⟨j + i, ?_⟩
      rw [List.take_succ_cons, List.flatten_cons, hread, hi, List.take_add, List.flatMap_append]

/-- All reads are accepted exactly when each ends where a message ends. -/
theorem forall_isSome_iff_aligned (hks : ∀ k ∈ ks, Frames parse encode k)
    (h : reads.flatten = ks.flatMap encode) (hne : ∀ read ∈ reads, read ≠ []) :
    (∀ read ∈ reads, (parseLast parse read.length read).isSome) ↔ Aligned encode reads ks := by
  induction reads generalizing ks with
  | nil =>
    constructor
    · exact fun _ k => ⟨0, by rw [List.take_nil, List.take_zero]; rfl⟩
    · exact fun _ read hread => absurd hread List.not_mem_nil
  | cons read reads ih =>
    rw [List.flatten_cons] at h
    have hfirst := parseLast_isSome_iff hks h (hne read List.mem_cons_self) (Nat.le_refl _)
    rw [List.forall_mem_cons, hfirst]
    have hrest : ∀ j, read = (ks.take j).flatMap encode →
        ((∀ read ∈ reads, (parseLast parse read.length read).isSome) ↔
          Aligned encode (read :: reads) ks) := by
      intro j hj
      rw [aligned_cons_iff hj]
      apply ih
      · exact fun k hk => hks k (List.mem_of_mem_drop hk)
      · rw [← List.take_append_drop j ks, List.flatMap_append, ← hj] at h
        exact List.append_cancel_left h
      · exact fun read hread => hne read (List.mem_cons_of_mem _ hread)
    constructor
    · rintro ⟨⟨j, hj⟩, hreads⟩
      exact (hrest j hj).mp hreads
    · intro haligned
      obtain ⟨j, hj⟩ := haligned 1
      have hj' : read = (ks.take j).flatMap encode := by simpa using hj
      exact ⟨⟨j, hj'⟩, (hrest j hj').mpr haligned⟩

theorem Aligned.exists_length_le (ha : Aligned encode reads ks)
    (h : reads.flatten = ks.flatMap encode) (hne : ∀ k ∈ ks, encode k ≠ []) :
    ∀ k ∈ ks, ∃ read ∈ reads, (encode k).length ≤ read.length := by
  induction reads generalizing ks with
  | nil =>
    intro k hk
    exact absurd (List.flatMap_eq_nil_iff.mp h.symm k hk) (hne k hk)
  | cons read reads ih =>
    obtain ⟨j, hj⟩ := ha 1
    have hread : read = (ks.take j).flatMap encode := by simpa using hj
    rw [aligned_cons_iff hread] at ha
    rw [List.flatten_cons, ← List.take_append_drop j ks, List.flatMap_append, ← hread] at h
    intro k hk
    rw [← List.take_append_drop j ks, List.mem_append] at hk
    rcases hk with hk | hk
    · refine ⟨read, List.mem_cons_self, ?_⟩
      obtain ⟨before, after, hsplit⟩ := List.append_of_mem hk
      rw [hread, hsplit, List.flatMap_append, List.flatMap_cons]
      simp only [List.length_append]
      omega
    · obtain ⟨read', hread', hlen⟩ := ih ha (List.append_cancel_left h)
        (fun k hk => hne k (List.mem_of_mem_drop hk)) k hk
      exact ⟨read', List.mem_cons_of_mem _ hread', hlen⟩

end Framing
