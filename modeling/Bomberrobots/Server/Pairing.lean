import Bomberrobots.Server.Safety

/-! # Players and their connections

As long as no connection is closed, the players are controlled by one connection each,
unless a client joins twice in one lobby.
-/

namespace Bomberrobots

namespace GameEngine

variable {β : Type} {e e' : GameEngine β} {i : Slot} {player : Player}

/-- Players and slots correspond one to one, and the slots of the players are open. -/
structure Paired (e : GameEngine β) : Prop where
  controlled : ∀ id : PlayerId, id ∈ e.players → ∃! i : Slot, e.playerIds[i]? = some id
  known : ∀ (i : Slot) (id : PlayerId), e.playerIds[i]? = some id → id ∈ e.players
  connected : ∀ i : Slot, i ∈ e.playerIds → (e.tcpHandler.fd i).isSome

/-- Every robot is controlled by a connection. -/
def Manned (e : GameEngine β) : Prop :=
  ∀ id : PlayerId, id ∈ e.playersPositions →
    ∃ i : Slot, e.playerIds[i]? = some id ∧ (e.tcpHandler.fd i).isSome

namespace Paired

theorem of_eq (h : Paired e) (hp : e'.players = e.players) (hi : e'.playerIds = e.playerIds)
    (hf : ∀ i : Slot, i ∈ e.playerIds → (e'.tcpHandler.fd i).isSome) : Paired e' where
  controlled := by
    rw [hp, hi]
    exact h.controlled
  known := by
    rw [hp, hi]
    exact h.known
  connected := by
    rw [hi]
    exact hf

theorem empty (hp : e.players = ∅) (hi : e.playerIds = ∅) : Paired e := by
  constructor <;> simp [hp, hi]

theorem joined (h : Paired e) (hr : Registered e e.nextPlayerId.toNat) (hi : i ∉ e.playerIds)
    (ho : (e.tcpHandler.fd i).isSome) : Paired (e.joined i player) := by
  have hne : ∀ {j : Slot} {id : PlayerId}, e.playerIds[j]? = some id → i ≠ j := by
    rintro j id hj rfl
    exact hi (Std.ExtTreeMap.mem_iff_exists_getElem?.mpr ⟨_, hj⟩)
  have hold : ∀ {id : PlayerId}, id ∈ e.players → e.nextPlayerId ≠ id := by
    rintro id hid rfl
    exact hr.nextPlayerId_not_mem hid
  have hget : ∀ {j : Slot} {id : PlayerId}, (e.joined i player).playerIds[j]? = some id ↔
      (i = j ∧ e.nextPlayerId = id) ∨ e.playerIds[j]? = some id := by
    intro j id
    simp only [GameEngine.joined, Std.ExtTreeMap.getElem?_insert, Std.LawfulEqCmp.compare_eq_iff_eq]
    split
    · subst j
      have hnone : e.playerIds[i]? = none := Std.ExtTreeMap.getElem?_eq_none hi
      simp [hnone]
    · simp [*]
  constructor
  · intro id hid
    simp only [GameEngine.joined, Std.ExtTreeMap.mem_insertIfNew,
      Std.LawfulEqCmp.compare_eq_iff_eq] at hid
    by_cases hn : e.nextPlayerId = id
    · refine ⟨i, hget.mpr (.inl ⟨rfl, hn⟩), ?_⟩
      intro j hj
      rcases hget.mp hj with ⟨hj, -⟩ | hj
      · exact hj.symm
      · exact absurd hn (hold (h.known j id hj))
    · have hid : id ∈ e.players := hid.resolve_left hn
      obtain ⟨j, hj, huniq⟩ := h.controlled id hid
      refine ⟨j, hget.mpr (.inr hj), ?_⟩
      intro k hk
      rcases hget.mp hk with ⟨-, hk⟩ | hk
      · exact absurd hk hn
      · exact huniq k hk
  · intro j id hj
    simp only [GameEngine.joined, Std.ExtTreeMap.mem_insertIfNew,
      Std.LawfulEqCmp.compare_eq_iff_eq]
    rcases hget.mp hj with ⟨-, hj⟩ | hj
    · exact .inl hj
    · exact .inr (h.known j id hj)
  · intro j hj
    simp only [GameEngine.joined, Std.ExtTreeMap.mem_insert,
      Std.LawfulEqCmp.compare_eq_iff_eq] at hj ⊢
    rcases hj with rfl | hj
    · exact ho
    · exact h.connected j hj

theorem next_le (h : Paired e) (hr : Registered e e.nextPlayerId.toNat) :
    e.nextPlayerId.toNat ≤ 26 := by
  have hround : ∀ k : Fin e.nextPlayerId.toNat, (UInt8.ofNat k).toNat = k := fun k =>
    UInt8.toNat_ofNat_of_lt' (k.isLt.trans e.nextPlayerId.toNat_lt)
  have hslot : ∀ k : Fin e.nextPlayerId.toNat, ∃ i : Slot, e.playerIds[i]? = some (.ofNat k) := by
    intro k
    have hk : UInt8.ofNat k ∈ e.players := (hr.players _).mpr ((hround k).symm ▸ k.isLt)
    obtain ⟨i, hi, -⟩ := h.controlled _ hk
    exact ⟨i, hi⟩
  choose slot hslot using hslot
  have hinj : Function.Injective slot := by
    intro k l hkl
    have he := Option.some.inj ((hslot k).symm.trans (hkl ▸ hslot l))
    exact Fin.ext (by rw [← hround k, ← hround l, he])
  simpa using Fintype.card_le_of_injective slot hinj

/-- Whoever joins again leaves a player behind that no slot controls. -/
theorem not_joined (hr : Registered e e.nextPlayerId.toNat) (hk : Paired e) (hi : i ∈ e.playerIds)
    (hp : e'.players = (e.joined i player).players)
    (hs : e'.playerIds = (e.joined i player).playerIds) : ¬ Paired e' := by
  intro h
  obtain ⟨id, hid⟩ := Std.ExtTreeMap.mem_iff_exists_getElem?.mp hi
  have hold : id ∈ e'.players := by
    rw [hp]
    exact Std.ExtTreeMap.mem_insertIfNew.mpr (.inr (hk.known i id hid))
  obtain ⟨j, hj, -⟩ := h.controlled id hold
  rw [hs] at hj
  simp only [GameEngine.joined, Std.ExtTreeMap.getElem?_insert,
    Std.LawfulEqCmp.compare_eq_iff_eq] at hj
  split at hj
  · obtain rfl := Option.some.inj hj
    exact absurd (hr.range i _ hid) (lt_irrefl _)
  · rename_i hne
    exact hne (hr.injective i j id hid hj)

end Paired

end GameEngine

namespace Server

open GameEngine

variable {β : Type} [PositionSet β] {p : ServerParameters} {s s' : Server β} {env : Env}
  {out : List Sending} {tr : List (Machine.Step (Server β) Env Sending)}

/-- A client who has joined joins again before the game starts. -/
def Rejoins (s : Server β) (env : Env) : Prop :=
  s.engine.gameplayStarted = false ∧
    ∃ received ∈ s.handledMessage env, received.2.isJoin = true ∧
      received.1 ∈ s.engine.playerIds

instance : Decidable (Rejoins s env) := instDecidableAnd

theorem Wf.room_of_paired (hw : Wf p s) (h : Paired s.engine) : Room s := by
  intro hs
  have := h.next_le (hw.lobby hs).registered
  omega

theorem Wf.manned (hw : Wf p s) (h : Paired s.engine) : Manned s.engine := by
  intro id hid
  rcases hw.phase with hl | hg
  · simp [hl.positions] at hid
  · have hplayer := (hg.registered.players id).mpr ((hg.positions id).mp hid)
    obtain ⟨i, hi, -⟩ := h.controlled id hplayer
    exact ⟨i, hi, h.connected i (Std.ExtTreeMap.mem_iff_exists_getElem?.mpr ⟨_, hi⟩)⟩

theorem Stepped.connected (hs : Stepped env s s' out) (hclosed : s.closedSlot env = none)
    (h : Paired s.engine) : ∀ i : Slot, i ∈ s.engine.playerIds → (s'.fd i).isSome := by
  intro i hi
  have hopen := h.connected i hi
  rw [hs.fd_eq i]
  split
  · rename_i ha
    have hfree := (acceptedSlot_eq_some ha).2.2
    rw [(ServerTcpHandler.freeSlot_eq_some hfree).2] at hopen
    cases hopen
  · rw [hclosed, if_neg nofun]
    exact hopen

theorem Wf.paired (hw : Wf p s) (h : Paired s.engine) (hclosed : s.closedSlot env = none)
    (hrejoin : ¬ Rejoins s env) (hs : Stepped env s s' out) : Paired s'.engine := by
  have hfd := hs.connected hclosed h
  cases hs with
  | openTurn hs hb =>
    obtain ⟨-, rfl⟩ := hw.opened hs hb
    exact h.of_eq rfl rfl hfd
  | @handled e e' i msg sent hm hr hh =>
    have hphase : Lobby e ∨ Gameplay e := hw.phase
    rcases hphase with hl | hg
    · have hnew : ∀ name, msg = .join name → i ∉ e.playerIds := by
        rintro name rfl hi
        exact hrejoin ⟨hl.started, (i, .join name),
          handledMessage_eq_some_iff.mpr ⟨rfl, hm, hr⟩, rfl, hi⟩
      have hopen := isSome_fd_of_isMessageFrom hm
      rcases hh.lobby hl with ⟨-, rfl, -⟩ | ⟨player, hmsg, -, rfl, -⟩ |
        ⟨player, sent, hmsg, -, hg, -⟩
      · exact h
      · exact Paired.joined h hl.registered (hnew _ hmsg) hopen
      · have hj : Paired (e.joined i player) :=
          Paired.joined h hl.registered (hnew _ hmsg) hopen
        obtain ⟨robots, blocks, random, -, -, -, -, -, rfl⟩ := startGameplay_ok hg
        exact hj.of_eq rfl rfl hj.connected
    · obtain ⟨events, hlog⟩ := hh.logged hg
      exact h.of_eq hlog.players hlog.playerIds hfd
  | greet hn hf he =>
    subst he
    exact h.of_eq rfl rfl hfd
  | send hs ht =>
    obtain ⟨robots, random, turn, -, -, -, rfl, -, -⟩ := sendTurn_ok ht
    exact h.of_eq rfl rfl hfd
  | @finish e =>
    simp only [finishTurn] at hfd ⊢
    split
    · exact .empty rfl rfl
    · rename_i hlast
      rw [if_neg hlast] at hfd
      exact h.of_eq rfl rfl hfd
  | _ => exact h.of_eq rfl rfl hfd

theorem Wf.not_paired_of_rejoins (hw : Wf p s) (h : Paired s.engine) (hr : Rejoins s env)
    (hs : Stepped env s s' out) : ¬ Paired s'.engine := by
  obtain ⟨hstart, ⟨i, msg⟩, hm, hj, hi⟩ := hr
  have hl := hw.lobby hstart
  rcases (hs.handled_of_handledMessage hm).lobby hl with ⟨hj', -, -⟩ | ⟨player, -, -, he, -⟩ |
    ⟨player, sent, -, -, hg, -⟩
  · exact Bool.noConfusion (hj.symm.trans hj')
  · exact Paired.not_joined hl.registered h hi (by rw [he]) (by rw [he])
  · obtain ⟨robots, blocks, random, -, -, -, -, -, he⟩ := startGameplay_ok hg
    exact Paired.not_joined hl.registered h hi (by rw [he]) (by rw [he])

/--
In a run that closes no connection, players and connections correspond one to one and
every robot is controlled exactly as long as nobody joins twice in one lobby.
-/
theorem paired_iff_not_rejoins (h : (machine β p).Run tr s)
    (hclosed : ∀ t ∈ tr, t.pre.closedSlot t.input = none) :
    (∀ tr' s', tr' <+: tr → (machine β p).Run tr' s' → Paired s'.engine ∧ Manned s'.engine) ↔
      ∀ t ∈ tr, ¬ Rejoins t.pre t.input := by
  refine h.always_iff (I := fun _ s => Wf p s ∧ Paired s.engine)
    (P := fun _ s => Paired s.engine ∧ Manned s.engine)
    (A := fun s env => s.closedSlot env = none) (C := fun s env => ¬ Rejoins s env)
    hclosed ⟨Wf.init, .empty rfl rfl⟩ ?_ ?_ ?_
  · rintro _ s env s' out - ⟨hw, hpair⟩ hclosed hrejoin hs
    have hs' := step_stepped hs
    exact ⟨hw.stepped (hw.room_of_paired hpair) hs', hw.paired hpair hclosed hrejoin hs'⟩
  · rintro _ s - ⟨hw, hpair⟩
    exact ⟨hpair, hw.manned hpair⟩
  · rintro _ s env s' out - ⟨hw, hpair⟩ - hs ⟨hpair', -⟩ hrejoin
    exact hw.not_paired_of_rejoins hpair hrejoin (step_stepped hs) hpair'

theorem paired_soloJoin : ∃ tr s, (machine (StdSet Position) solo).Run tr s ∧
    0 ∈ s.engine.players ∧
    ∀ tr' s', tr' <+: tr → (machine (StdSet Position) solo).Run tr' s' →
      Paired s'.engine ∧ Manned s'.engine := by
  have hcheck : (machine (StdSet Position) solo).check soloJoin (fun tr s =>
      (tr.all fun t => t.pre.closedSlot t.input = none) &&
      (tr.all fun t => !decide (Rejoins t.pre t.input)) && s.engine.players.contains 0) = true := by
    decide +kernel
  obtain ⟨tr, s, h, htest⟩ := Machine.run_of_check hcheck
  simp only [Bool.and_eq_true, List.all_eq_true, decide_eq_true_eq, Bool.not_eq_true',
    decide_eq_false_iff_not] at htest
  exact ⟨tr, s, h, htest.2, (paired_iff_not_rejoins h htest.1.1).mpr htest.1.2⟩

def twice : List Env :=
  pass false (.ready [0] ⟨some 5, []⟩ none) ++
    pass false (.ready [1] ⟨none, []⟩ (some [0, 0])) ++
    pass true (.ready [1] ⟨none, []⟩ (some [0, 0]))

/-- A player can be left without a connection although no connection was closed. -/
theorem exists_not_paired : ¬ ∀ p tr s, (machine (StdSet Position) p).Run tr s →
    (∀ t ∈ tr, t.pre.closedSlot t.input = none) → Paired s.engine ∧ Manned s.engine := by
  intro hall
  have hcheck : (machine (StdSet Position) duo).check twice (fun tr s =>
      (tr.all fun t => t.pre.closedSlot t.input = none) && s.engine.gameplayStarted &&
      s.engine.players.contains 0 &&
      (List.finRange 26).all fun i => s.engine.playerIds[i]? ≠ some 0) = true := by
    decide +kernel
  obtain ⟨tr, s, h, htest⟩ := Machine.run_of_check hcheck
  simp only [Bool.and_eq_true, List.all_eq_true, decide_eq_true_eq] at htest
  obtain ⟨⟨⟨hclosed, -⟩, hplayer⟩, hslots⟩ := htest
  obtain ⟨i, hi, -⟩ := (hall duo tr s h hclosed).1.controlled 0 hplayer
  exact hslots i (List.mem_finRange i) hi

end Server

end Bomberrobots
