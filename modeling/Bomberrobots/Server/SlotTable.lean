import Bomberrobots.Server.Greeting

/-! # The table of connections

What the descriptors, the counter and the addresses of the handler are for: a table of live
clients. The handler follows it until `accept` fails while a slot is free, which it takes for
a client.
-/

namespace Bomberrobots

open Machine

/-- What happens to the table. A close is a report of anything but a success. -/
inductive TableOp
  | accept (client : Accepted)
  | close (status : MessageRecvStatus) (i : Slot)

structure Connection where
  fd : ℕ
  address : Bytes
  deriving DecidableEq

/-- The live client in every slot that has one. -/
abbrev SlotTable := Slot → Option Connection

/-- What may happen to the table, and what `accept_client` returns. -/
inductive SlotTable.Change : SlotTable → TableOp → List (Option Slot) → SlotTable → Prop
  /-- A live client is put into a free slot, which is returned. -/
  | accepted {t : SlotTable} {i : Slot} {fd : ℕ} {address : Bytes} (hi : i ≠ 0)
      (hfree : t i = none) : Change t (.accept ⟨some fd, address⟩) [some i]
      (Function.update t i (some ⟨fd, address⟩))
  /-- There is no client, or no slot for it. -/
  | refused {t : SlotTable} {client : Accepted}
      (h : client.fd = none ∨ ∀ i, i ≠ 0 → (t i).isSome) : Change t (.accept client) [none] t
  | closed {t : SlotTable} {status : MessageRecvStatus} {i : Slot} (h : (t i).isSome) :
    Change t (.close status i) [] (Function.update t i none)

/-- The table after the steps that have been taken. -/
inductive SlotTable.Follows : List (Step ServerTcpHandler TableOp (Option Slot)) → SlotTable → Prop
  | nil : Follows [] fun _ => none
  | snoc {tr : List (Step ServerTcpHandler TableOp (Option Slot))} {t t' : SlotTable}
      {step : Step ServerTcpHandler TableOp (Option Slot)} (h : Follows tr t)
      (hs : t.Change step.input step.out t') : Follows (tr ++ [step]) t'

namespace ServerTcpHandler

/-- The handler holds what the table says. -/
structure Represents (h : ServerTcpHandler) (t : SlotTable) : Prop where
  listening : t 0 = none
  fds : ∀ i, i ≠ 0 → h.fd i = (t i).map Connection.fd
  distinct : ∀ i j fd, h.fd i = some fd → h.fd j = some fd → i = j
  addresses : ∀ i connection, t i = some connection →
    h.addresses[i.val]? = some connection.address
  /-- The counter is the number of client slots with a descriptor. -/
  activeClients : h.activeClients.toNat = h.openSlots.length

def tableMachine : Machine ServerTcpHandler TableOp (Option Slot) Fault where
  init := .new
  step h
    | .accept client => .ok ((h.acceptClient client).2, [(h.acceptClient client).1])
    | .close status i => .ok (h.reportMsgStatus status i, [])

/-- A new descriptor is not open, and only the client of an open slot is closed. -/
def Permits (h : ServerTcpHandler) : TableOp → Prop
  | .accept client => ∀ fd, client.fd = some fd → ∀ i, h.fd i ≠ some fd
  | .close status i => status ≠ .success ∧ i ≠ 0 ∧ (h.fd i).isSome

/-- The call of `accept` does not fail while a client slot is free. -/
def Accepts (h : ServerTcpHandler) : TableOp → Prop
  | .accept client => client.fd = none → ∀ i, i ≠ 0 → (h.fd i).isSome
  | .close _ _ => True

variable {h h' : ServerTcpHandler} {client : Accepted} {i j : Slot} {t : SlotTable}

instance : DecidablePred h.Permits
  | .accept ⟨none, _⟩ => .isTrue fun _ hfd => by cases hfd
  | .accept ⟨some fd, _⟩ => decidable_of_iff (∀ i, h.fd i ≠ some fd)
    ⟨fun hn _ hfd => Option.some.inj hfd ▸ hn, fun hn => hn fd rfl⟩
  | .close status i => inferInstanceAs (Decidable (status ≠ .success ∧ i ≠ 0 ∧ (h.fd i).isSome))

instance : DecidablePred h.Accepts
  | .accept client =>
    inferInstanceAs (Decidable (client.fd = none → ∀ i, i ≠ 0 → (h.fd i).isSome))
  | .close _ _ => .isTrue trivial

theorem freeSlot_eq_none_iff : h.freeSlot = none ↔ ∀ i, i ≠ 0 → (h.fd i).isSome := by
  simp [freeSlot, List.find?_eq_none, Option.isSome_iff_ne_none]

theorem length_openSlots (hj : j ≠ 0) (hfree : h.fd j = none) (hopen : (h'.fd j).isSome)
    (hother : ∀ i, i ≠ j → h'.fd i = h.fd i) :
    h'.openSlots.length = h.openSlots.length + 1 := by
  have hnd : ∀ h : ServerTcpHandler, h.openSlots.Nodup := fun h => (List.nodup_finRange 26).filter _
  have hcard : ∀ h : ServerTcpHandler, h.openSlots.length = h.openSlots.toFinset.card :=
    fun h => (List.toFinset_card_of_nodup (hnd h)).symm
  have hnew : j ∉ h.openSlots.toFinset := by
    rw [List.mem_toFinset, mem_openSlots, hfree]
    simp
  have hinsert : h'.openSlots.toFinset = insert j h.openSlots.toFinset := by
    ext i
    rw [Finset.mem_insert, List.mem_toFinset, List.mem_toFinset, mem_openSlots, mem_openSlots]
    by_cases hij : i = j
    · subst hij
      simp [hj, hopen]
    · simp [hij, hother i hij]
  rw [hcard, hcard, hinsert, Finset.card_insert_of_notMem hnew]

theorem length_openSlots_le : h.openSlots.length ≤ 26 := by
  refine (List.length_filter_le _ _).trans ?_
  simp

theorem represents_new : new.Represents fun _ => none where
  listening := rfl
  fds i hi := by simp [new, fd, hi]
  distinct i j fd hi hj := by
    have hzero : ∀ i fd, new.fd i = some fd → i = 0 := by
      intro i fd hi
      by_contra hne
      simp [new, ServerTcpHandler.fd, hne] at hi
    rw [hzero i fd hi, hzero j fd hj]
  addresses i connection hi := by cases hi
  activeClients := rfl

theorem Represents.toNat_activeClients_add (hr : h.Represents t) :
    (h.activeClients + 1).toNat = h.openSlots.length + 1 := by
  have hle := h.length_openSlots_le
  rw [UInt64.toNat_add, hr.activeClients]
  exact Nat.mod_eq_of_lt (by simp; omega)

theorem Represents.update {o : Option Connection} (hr : h.Represents t) (hj : j ≠ 0)
    (hfd : ∀ i, h'.fd i = if i = j then o.map Connection.fd else h.fd i)
    (hnew : ∀ connection ∈ o, ∀ i, h.fd i ≠ some connection.fd)
    (haddresses : ∀ i connection, Function.update t j o i = some connection →
      h'.addresses[i.val]? = some connection.address)
    (hcount : h'.activeClients.toNat = h'.openSlots.length) :
    h'.Represents (Function.update t j o) where
  listening := by
    rw [Function.update_of_ne hj.symm]
    exact hr.listening
  fds i hi := by
    rw [hfd]
    split
    · subst i
      rw [Function.update_self]
    · rename_i hij
      rw [Function.update_of_ne hij, hr.fds i hi]
  distinct i k fd hi hk := by
    rw [hfd] at hi hk
    split at hi <;> split at hk
    · subst i k
      rfl
    · obtain ⟨connection, ho, rfl⟩ := Option.map_eq_some_iff.mp hi
      exact absurd hk (hnew connection ho k)
    · obtain ⟨connection, ho, rfl⟩ := Option.map_eq_some_iff.mp hk
      exact absurd hi (hnew connection ho i)
    · exact hr.distinct i k fd hi hk
  addresses := haddresses
  activeClients := hcount

theorem Represents.accept {fd : ℕ} {address : Bytes} (hr : h.Represents t)
    (hf : h.freeSlot = some j) (hnew : ∀ i, h.fd i ≠ some fd) :
    (h.acceptClient ⟨some fd, address⟩).2.Represents
      (Function.update t j (some ⟨fd, address⟩)) := by
  obtain ⟨hj, hfree⟩ := freeSlot_eq_some hf
  have hfd : ∀ i, (h.acceptClient ⟨some fd, address⟩).2.fd i = if i = j then some fd else h.fd i :=
    fun i => fd_acceptClient_of_some hf
  refine hr.update hj hfd ?_ ?_ ?_
  · rintro connection ⟨⟩ i
    exact hnew i
  · intro i connection hi
    rw [acceptClient_of_some hf, Std.ExtTreeMap.getElem?_insert]
    by_cases hij : i = j
    · subst hij
      rw [Function.update_self] at hi
      obtain rfl := Option.some.inj hi
      simp
    · rw [Function.update_of_ne hij] at hi
      rw [if_neg, hr.addresses i connection hi]
      rw [Std.LawfulEqCmp.compare_eq_iff_eq]
      exact fun hval => hij (Fin.ext hval.symm)
  · have hlen : (h.acceptClient ⟨some fd, address⟩).2.openSlots.length = h.openSlots.length + 1 :=
      length_openSlots hj hfree (by simp [hfd]) fun i hi => by rw [hfd, if_neg hi]
    rw [hlen, acceptClient_of_some hf]
    exact hr.toNat_activeClients_add

theorem Represents.refuse (hr : h.Represents t) (hf : h.freeSlot = none) :
    (h.acceptClient client).2.Represents t := by
  rw [acceptClient_of_none hf]
  refine ⟨hr.listening, hr.fds, hr.distinct, fun i connection hi => ?_, hr.activeClients⟩
  rw [Std.ExtTreeMap.getElem?_insert, if_neg, hr.addresses i connection hi]
  rw [Std.LawfulEqCmp.compare_eq_iff_eq]
  omega

theorem Represents.close {status : MessageRecvStatus} (hr : h.Represents t) (hs : status ≠ .success)
    (hi : i ≠ 0) (ho : (h.fd i).isSome) :
    (h.reportMsgStatus status i).Represents (Function.update t i none) := by
  have hfd : ∀ k, (h.reportMsgStatus status i).fd k = if k = i then none else h.fd k :=
    fun k => fd_reportMsgStatus hs
  refine hr.update hi hfd nofun ?_ ?_
  · intro k connection hk
    have haddresses : (h.reportMsgStatus status i).addresses = h.addresses := by
      simp [reportMsgStatus, hs]
    rw [haddresses]
    by_cases hki : k = i
    · rw [hki, Function.update_self] at hk
      cases hk
    · rw [Function.update_of_ne hki] at hk
      exact hr.addresses k connection hk
  · have hlen := length_openSlots (h := h.reportMsgStatus status i) hi (by simp [hfd]) ho
      fun k hk => by rw [hfd, if_neg hk]
    have hle := h.length_openSlots_le
    have hcount : (h.reportMsgStatus status i).activeClients = h.activeClients - 1 := by
      simp [reportMsgStatus, hs]
    have hone : (1 : UInt64) ≤ h.activeClients := by
      rw [UInt64.le_iff_toNat_le, hr.activeClients, hlen]
      simp
    rw [hcount, UInt64.toNat_sub_of_le _ _ hone, hr.activeClients, hlen]
    rfl

/-- There is a table that follows what has been done and returned, and the handler holds it. -/
def KeepsTable (tr : List (Step ServerTcpHandler TableOp (Option Slot))) (h : ServerTcpHandler) :
    Prop := ∃ t, SlotTable.Follows tr t ∧ h.Represents t

theorem Follows.snoc_inv {tr : List (Step ServerTcpHandler TableOp (Option Slot))}
    {step : Step ServerTcpHandler TableOp (Option Slot)} (hf : SlotTable.Follows (tr ++ [step]) t) :
    ∃ t', SlotTable.Follows tr t' ∧ t'.Change step.input step.out t := by
  generalize he : tr ++ [step] = l at hf
  cases hf with
  | nil => simp at he
  | snoc hf hs =>
    obtain ⟨rfl, rfl⟩ := List.append_singleton_inj.mp he
    exact ⟨_, hf, hs⟩

/-- A step that is permitted keeps the table if `accept` does not fail while a slot is free. -/
theorem Represents.step {op : TableOp} {out : List (Option Slot)} (hr : h.Represents t)
    (hp : h.Permits op) (ha : h.Accepts op) (hs : tableMachine.step h op = .ok (h', out)) :
    ∃ t', t.Change op out t' ∧ h'.Represents t' := by
  cases op with
  | accept client =>
    obtain ⟨rfl, rfl⟩ := Prod.mk.inj (Except.ok.inj hs)
    cases hf : h.freeSlot with
    | none =>
      have hout : (h.acceptClient client).1 = none := by simp [acceptClient, hf]
      have hfull : ∀ i, i ≠ 0 → (t i).isSome := by
        intro i hi
        have ho := freeSlot_eq_none_iff.mp hf i hi
        rwa [hr.fds i hi, Option.isSome_map] at ho
      rw [hout]
      exact ⟨t, .refused (.inr hfull), hr.refuse hf⟩
    | some j =>
      obtain ⟨hj, hfree⟩ := freeSlot_eq_some hf
      have hout : (h.acceptClient client).1 = some j := by simp [acceptClient, hf]
      obtain ⟨_ | fd, address⟩ := client
      · have ho := ha rfl j hj
        rw [hfree] at ho
        cases ho
      · have htable : t j = none := by
          have hfds := hr.fds j hj
          rwa [hfree, eq_comm, Option.map_eq_none_iff] at hfds
        rw [hout]
        exact ⟨_, .accepted hj htable, hr.accept hf (hp fd rfl)⟩
  | close status i =>
    obtain ⟨rfl, rfl⟩ := Prod.mk.inj (Except.ok.inj hs)
    obtain ⟨hstatus, hi, ho⟩ := hp
    have htable : (t i).isSome := by rwa [hr.fds i hi, Option.isSome_map] at ho
    exact ⟨_, .closed htable, hr.close hstatus hi ho⟩

theorem accepts_of_change {op : TableOp} {out : List (Option Slot)} {t' : SlotTable}
    (hs : tableMachine.step h op = .ok (h', out)) (hc : t.Change op out t') : h.Accepts op := by
  cases op with
  | accept client =>
    obtain ⟨rfl, hout⟩ := Prod.mk.inj (Except.ok.inj hs)
    intro hnone
    cases hc with
    | accepted => cases hnone
    | refused =>
      rw [← freeSlot_eq_none_iff]
      have hresult := (List.cons.inj hout).1
      cases hf : h.freeSlot with
      | none => rfl
      | some j => simp [acceptClient, hf] at hresult
  | close => trivial

/--
In every state of a run the handler holds the table of live clients, if and only if no call of
`accept` fails while a client slot is free.
-/
theorem keepsTable_iff {tr : List (Step ServerTcpHandler TableOp (Option Slot))}
    (hrun : tableMachine.Run tr h) (hp : ∀ step ∈ tr, step.pre.Permits step.input) :
    (∀ tr' m, tr' <+: tr → tableMachine.Run tr' m → m.KeepsTable tr') ↔
      ∀ step ∈ tr, step.pre.Accepts step.input := by
  apply hrun.always_iff hp (I := fun tr m => m.KeepsTable tr) ⟨_, .nil, represents_new⟩
  · rintro tr m op h' out - ⟨t, hf, hr⟩ hp ha hs
    obtain ⟨t', hc, hr'⟩ := hr.step hp ha hs
    exact ⟨t', hf.snoc hc, hr'⟩
  · exact fun _ _ _ hk => hk
  · rintro tr m op h' out - - - hs ⟨t', hf, -⟩
    obtain ⟨t, -, hc⟩ := Follows.snoc_inv hf
    exact accepts_of_change hs hc

/--
Clients fill the table, and one more that cannot be accepted finds no slot. Two of them leave,
and one comes back.
-/
def turnover : List TableOp :=
  (List.range 25).map (fun k => .accept ⟨some (k + 4), [65]⟩) ++
    [.accept ⟨none, []⟩, .close .endConn 3, .close .errorMsg 1, .accept ⟨some 40, [66]⟩]

theorem keepsTable_turnover : ∃ tr h, tableMachine.Run tr h ∧ h.fd 1 = some 40 ∧ h.fd 3 = none ∧
    h.activeClients = 24 ∧
    tr.flatMap Step.out = (List.range 25).map (fun k => some (.ofNat 26 (k + 1))) ++
      [none, some 1] ∧
    ∀ tr' m, tr' <+: tr → tableMachine.Run tr' m → m.KeepsTable tr' := by
  have hcheck : tableMachine.check turnover (fun tr h =>
      h.fd 1 = some 40 ∧ h.fd 3 = none ∧ h.activeClients = 24 ∧
      tr.flatMap Step.out = (List.range 25).map (fun k => some (.ofNat 26 (k + 1))) ++
        [none, some 1] ∧
      (∀ step ∈ tr, step.pre.Permits step.input) ∧
      ∀ step ∈ tr, step.pre.Accepts step.input) = true := by
    decide +kernel
  obtain ⟨tr, h, hrun, htest⟩ := Machine.run_of_check hcheck
  obtain ⟨hback, hleft, hcount, hout, hp, ha⟩ := of_decide_eq_true htest
  exact ⟨tr, h, hrun, hback, hleft, hcount, hout, (keepsTable_iff hrun hp).mpr ha⟩

/-- A call of `accept` that fails while all slots are free is given the first of them. -/
theorem exists_not_keepsTable :
    ¬ ∀ (tr : List (Step ServerTcpHandler TableOp (Option Slot))) (h : ServerTcpHandler),
      tableMachine.Run tr h → (∀ step ∈ tr, step.pre.Permits step.input) →
      ∀ tr' m, tr' <+: tr → tableMachine.Run tr' m → m.KeepsTable tr' := by
  intro hall
  have hrun : tableMachine.Run
      [⟨new, .accept ⟨none, []⟩, [some 1], (new.acceptClient ⟨none, []⟩).2⟩]
      (new.acceptClient ⟨none, []⟩).2 := .snoc .nil rfl
  obtain ⟨t, hf, -⟩ := hall _ _ hrun (by
    intro step hstep
    obtain rfl := List.mem_singleton.mp hstep
    rintro fd ⟨⟩) _ _ (List.prefix_refl _) hrun
  rw [← List.nil_append [_]] at hf
  obtain ⟨t', -, hc⟩ := Follows.snoc_inv hf
  have haccepts : new.Accepts (.accept ⟨none, []⟩) := accepts_of_change rfl hc
  have hopen := haccepts rfl 1 (by decide)
  cases hopen

theorem Represents.congr (hr : h.Represents t) (hfd : ∀ i, h'.fd i = h.fd i)
    (haddresses : h'.addresses = h.addresses) (hcount : h'.activeClients = h.activeClients) :
    h'.Represents t where
  listening := hr.listening
  fds i hi := (hfd i).trans (hr.fds i hi)
  distinct i j fd hi hj := hr.distinct i j fd (hfd i ▸ hi) (hfd j ▸ hj)
  addresses := haddresses ▸ hr.addresses
  activeClients := by
    have hopen : h'.openSlots = h.openSlots := by
      unfold openSlots
      simp only [hfd]
    rw [hcount, hopen, hr.activeClients]

end ServerTcpHandler

namespace Server

open GameEngine ServerTcpHandler

variable {β : Type} [PositionSet β] {p : ServerParameters} {s s' : Server β} {env : Env}
  {out : List Sending}

def Connects (s : Server β) (env : Env) : Prop :=
  s.acceptedSlot ≠ none → ∃ fd, env.accepted.fd = some fd ∧ ∀ i, s.fd i ≠ some fd

def Tabled (s : Server β) : Prop :=
  s.point ≠ .client 0 ∧ ∃ t, s.engine.tcpHandler.Represents t

theorem Stepped.tabled (hst : Stepped env s s' out) (ht : s.Tabled) (hc : s.Connects env) :
    s'.Tabled := by
  obtain ⟨hpoint, t, hr⟩ := ht
  cases hst with
  | lobby hs => exact ⟨by simp, t, hr.congr (fun _ => rfl) rfl rfl⟩
  | openTurn hs hb =>
    rw [Tabled, beginTurn_tcpHandler hb]
    exact ⟨by simp, t, hr.congr (fun _ => rfl) rfl rfl⟩
  | polled hp => exact ⟨by simp, t, hr.congr (fun _ => rfl) rfl rfl⟩
  | full hn hf => exact ⟨by simp, t, hr.refuse hf⟩
  | @greet e e' j hn hf he =>
    subst he
    have haccepted : acceptedSlot (⟨e, .accept⟩ : Server β) = some j := by
      simp [acceptedSlot, hn, hf]
    obtain ⟨fd, hfd, hnew⟩ := hc (by simp [haccepted])
    have hclient : env.accepted = ⟨some fd, env.accepted.address⟩ := by rw [← hfd]
    rw [hclient]
    exact ⟨by simp, _, hr.accept hf hnew⟩
  | @refused e i hm hrec =>
    have hi : i ≠ 0 := fun h => hpoint (h ▸ rfl)
    have hclose : (e.tcpHandler.reportMsgStatus .errorMsg i).Represents
        (Function.update t i none) :=
      hr.close (by simp) hi (isSome_fd_of_isMessageFrom hm)
    exact ⟨nextClient_ne_zero, _, hclose⟩
  | handled hm hrec hh =>
    rw [Tabled, hh.frame.1]
    exact ⟨nextClient_ne_zero, t, hr⟩
  | noMessage hm => exact ⟨nextClient_ne_zero, t, hr⟩
  | quiet hp => exact ⟨by simp, t, hr⟩
  | noClient hn => exact ⟨by simp, t, hr⟩
  | rest hs => exact ⟨by simp, t, hr⟩
  | send hs hsend =>
    obtain ⟨robots, random, turn, -, -, -, rfl, -, -⟩ := sendTurn_ok hsend
    exact ⟨by simp, t, hr⟩
  | finish =>
    refine ⟨by simp, t, ?_⟩
    simp only [finishTurn]
    split <;> exact hr

/-- The server keeps the table of its clients as long as no call of `accept` fails for a slot. -/
theorem tabled_of_run {tr : List (Machine.Step (Server β) Env Sending)}
    (h : (machine β p).Run tr s) (hc : ∀ t ∈ tr, Connects t.pre t.input) : s.Tabled := by
  apply h.invariant_of (I := fun _ s => s.Tabled) hc ⟨by simp [machine, init], _, represents_new⟩
  intro tr m env s' out _ ht hc hs
  exact (step_stepped hs).tabled ht hc

end Server

end Bomberrobots
