import Bomberrobots.Server.Protocol

/-! # Greetings

Who is greeted when a connection is accepted, and what a client that connects during a
game is told about the turns of that game.
-/

namespace Bomberrobots

namespace ServerTcpHandler

variable {h : ServerTcpHandler} {i j : Slot}

theorem isSome_fd_one (hf : h.freeSlot = some j) (hj : j ≠ 1) : (h.fd 1).isSome := by
  by_contra hn
  have hfirst : (List.finRange 26).find? (fun i => i != 0 && (h.fd i).isNone) = some 1 := by
    have hlist : List.finRange 26 = 0 :: 1 :: (List.finRange 26).drop 2 := by decide
    have hnone : (h.fd 1).isNone = true := by simpa using hn
    rw [hlist, List.find?_cons_of_neg (by simp), List.find?_cons_of_pos (by simp [hnone])]
  exact hj (Option.some.inj (hf.symm.trans hfirst))

theorem mem_openSlots : i ∈ h.openSlots ↔ i ≠ 0 ∧ (h.fd i).isSome := by
  simp [openSlots]

end ServerTcpHandler

def heardBy (i : Slot) (log : List Sending) : List ServerMessage :=
  log.flatMap fun
    | .one .. => []
    | .all slots msg => (Sending.all slots msg).reaching i

@[simp] theorem heardBy_append {i : Slot} {log log' : List Sending} :
    heardBy i (log ++ log') = heardBy i log ++ heardBy i log' :=
  List.flatMap_append

namespace Server

open GameEngine

variable {β : Type}

def turnNumbers (msgs : List ServerMessage) : List ℕ :=
  msgs.filterMap fun
    | .turn info => some info.turn.toNat
    | _ => none

theorem turnNumbers_eq {msgs : List ServerMessage} {numbers : List ℕ}
    (h : msgs.map ServerMessage.shape = numbers.map .turn) : turnNumbers msgs = numbers := by
  induction msgs generalizing numbers with
  | nil =>
    cases numbers with
    | nil => rfl
    | cons k numbers => cases h
  | cons msg msgs ih =>
    cases numbers with
    | nil => cases h
    | cons k numbers =>
      obtain ⟨hmsg, hrest⟩ := List.cons.inj h
      cases msg with
      | turn info =>
        have hk : info.turn.toNat = k := Shape.turn.inj hmsg
        have hrest := ih hrest
        simp only [turnNumbers, List.filterMap_cons] at hrest ⊢
        rw [hk, hrest]
      | _ => cases hmsg

theorem turnNumbers_append {msgs msgs' : List ServerMessage} :
    turnNumbers (msgs ++ msgs') = turnNumbers msgs ++ turnNumbers msgs' :=
  List.filterMap_append

theorem turnNumbers_greeting {e : GameEngine β} (hg : Gameplay e) :
    turnNumbers e.greeting = List.range (e.currentTurn.toNat + 1) := by
  have hturns : (e.turns.map ServerMessage.turn).map ServerMessage.shape =
      (List.range e.turns.length).map .turn := by
    rw [List.map_map]
    refine List.ext_getElem (by simp) fun k hk _ => ?_
    have hnum := hg.numbered k _ (List.getElem?_eq_getElem (by simpa using hk))
    simp [ServerMessage.shape, hnum]
  have := turnNumbers_eq hturns
  rw [hg.length] at this
  simpa [greeting, hg.started, turnNumbers, helloMsg] using this

theorem shape_greeting_ne_ended {e : GameEngine β} {msg : ServerMessage} (h : msg ∈ e.greeting) :
    msg.shape ≠ .ended := by
  intro hshape
  obtain ⟨scores, rfl⟩ := ServerMessage.shape_eq_ended hshape
  rw [greeting] at h
  split at h <;> simp [helloMsg] at h

variable [PositionSet β] {p : ServerParameters} {s s' : Server β} {env : Env}
  {out : List Sending} {i j : Slot}

theorem Stepped.sends_all (h : Stepped env s s' out) (ha : s.acceptedSlot = none) :
    ∀ x ∈ out, ∃ msg, x = .all s.engine.tcpHandler.openSlots msg ∧ msg.shape ≠ .hello := by
  cases h with
  | greet hn hf he => simp [acceptedSlot, hn, hf] at ha
  | handled hm hr hh =>
    cases hh with
    | join hs ha hn => simp [ServerTcpHandler.sendMessageToAll, ServerMessage.shape]
    | start hs ha hn hg =>
      obtain ⟨robots, blocks, random, -, -, -, -, rfl, -⟩ := startGameplay_ok hg
      simp [ServerTcpHandler.sendMessageToAll, ServerMessage.shape, GameEngine.joined]
    | _ => simp
  | send hs ht =>
    obtain ⟨robots, random, turn, -, -, -, -, -, rfl⟩ := sendTurn_ok ht
    simp [ServerTcpHandler.sendMessageToAll, ServerMessage.shape]
  | finish =>
    simp only [finishTurn]
    split
    · simp [endGameplay, ServerTcpHandler.sendMessageToAll, ServerMessage.shape]
    · simp
  | _ => simp

theorem Stepped.sentTo_eq (h : Stepped env s s' out) (ha : s.acceptedSlot = none) (hi : i ≠ 0)
    (hfd : (s.fd i).isSome) : sentTo i out = broadcasts out := by
  have hall := h.sends_all ha
  have hmem : i ∈ s.engine.tcpHandler.openSlots := ServerTcpHandler.mem_openSlots.mpr ⟨hi, hfd⟩
  clear h
  induction out with
  | nil => rfl
  | cons x out ih =>
    obtain ⟨msg, rfl, -⟩ := hall x List.mem_cons_self
    have ih := ih fun y hy => hall y (List.mem_cons_of_mem _ hy)
    simpa [sentTo, broadcasts, Sending.toAll, Sending.reaching, hmem] using ih

theorem Stepped.sends_greeting (h : Stepped env s s' out) (ha : s.acceptedSlot = some j) :
    out = if (s'.fd 1).isSome then s'.engine.greeting.map (.one 1) else [] := by
  obtain ⟨hp, hn, hf⟩ := acceptedSlot_eq_some ha
  cases h with
  | noClient hn' => exact Bool.noConfusion (hn.symm.trans hn')
  | full hn' hf' => exact absurd (hf.symm.trans hf') (Option.some_ne_none j)
  | greet hn' hf' he => exact sendHello_append_sendHelloState
  | _ => cases hp

/-- The greeting reaches the slot 1 only. -/
theorem Stepped.sentTo_of_accepted (h : Stepped env s s' out) (ha : s.acceptedSlot = some j) :
    sentTo i out = [] ∨ i = 1 ∧ (s'.fd 1).isSome ∧ sentTo i out = s'.engine.greeting := by
  rw [h.sends_greeting ha]
  split
  · rw [sentTo_map_one]
    split
    · exact .inr ⟨‹_›, ‹_›, rfl⟩
    · exact .inl rfl
  · exact .inl rfl

theorem Stepped.accepted (h : Stepped env s s' out) (ha : s.acceptedSlot = some j) :
    ∃ handler, s' = ⟨s.engine.withHandler handler, .client 1⟩ := by
  obtain ⟨hp, -, -⟩ := acceptedSlot_eq_some ha
  cases h with
  | noClient hn => exact ⟨_, rfl⟩
  | full hn hf => exact ⟨_, rfl⟩
  | greet hn hf he => exact ⟨_, by rw [he]⟩
  | _ => cases hp

theorem Stepped.occupied (h : Stepped env s s' out) (hi : (s.fd i).isSome)
    (hc : s.closedSlot env ≠ some i) : (s'.fd i).isSome := by
  rw [h.fd_eq i, if_neg hc]
  split
  · rename_i ha
    rw [Server.fd, (ServerTcpHandler.freeSlot_eq_some (acceptedSlot_eq_some ha).2.2).2] at hi
    cases hi
  · exact hi

variable {tr before life : List (Machine.Step (Server β) Env Sending)}
  {t : Machine.Step (Server β) Env Sending}

/--
What a connection is due: the accept sends nothing to others, and the connection gets a
Hello and the state at that moment as its first messages and no further Hello.
-/
structure Greeted (j : Slot) (t : Machine.Step (Server β) Env Sending)
    (life : List (Machine.Step (Server β) Env Sending)) : Prop where
  directed : ∀ x ∈ t.out, ∃ msg, x = .one j msg
  delivered : t.input.accepted.fd.isSome → ∃ later,
    sentTo j (Machine.log (t :: life)) = t.post.engine.greeting ++ later ∧
      ∀ msg ∈ later, msg.shape ≠ .hello

/-- Every connection of a run gets its greeting, from its accept until its slot is closed. -/
def AllGreeted (tr : List (Machine.Step (Server β) Env Sending)) : Prop :=
  ∀ before t life j, before ++ t :: life <+: tr → t.pre.acceptedSlot = some j →
    (∀ t' ∈ life, t'.pre.closedSlot t'.input ≠ some j) → Greeted j t life

theorem path_no_hello (h : (machine β p).Path s life s') (hi : (s.fd 1).isSome)
    (hc : ∀ t ∈ life, t.pre.closedSlot t.input ≠ some 1)
    (ha : ∀ t ∈ life, ∀ j, t.pre.acceptedSlot = some j → j = 1) :
    (s'.fd 1).isSome ∧ ∀ msg ∈ sentTo j (Machine.log life), msg.shape ≠ .hello := by
  refine h.invariant_of
    (I := fun life s => (s.fd 1).isSome ∧ ∀ msg ∈ sentTo j (Machine.log life), msg.shape ≠ .hello)
    (C := fun s env => s.closedSlot env ≠ some 1 ∧ ∀ j, s.acceptedSlot = some j → j = 1)
    (fun t ht => ⟨hc t ht, ha t ht⟩) ⟨hi, by simp⟩ ?_
  rintro life s env s' out - ⟨hi, hl⟩ ⟨hc, ha⟩ hs
  have hs' := step_stepped hs
  have hnone : s.acceptedSlot = none := by
    cases hacc : s.acceptedSlot with
    | none => rfl
    | some k =>
      obtain rfl := ha k hacc
      rw [Server.fd, (ServerTcpHandler.freeSlot_eq_some (acceptedSlot_eq_some hacc).2.2).2] at hi
      cases hi
  refine ⟨hs'.occupied hi hc, ?_⟩
  intro msg hmsg
  rw [Machine.log_append, sentTo_append] at hmsg
  rcases List.mem_append.mp hmsg with hmsg | hmsg
  · exact hl msg hmsg
  · obtain ⟨x, hx, hmsg⟩ := List.mem_flatMap.mp hmsg
    obtain ⟨msg', rfl, hhello⟩ := hs'.sends_all hnone x (by simpa using hx)
    simp only [Sending.reaching] at hmsg
    split at hmsg
    · obtain rfl := List.mem_singleton.mp hmsg
      exact hhello
    · cases hmsg

/-- Connections are greeted exactly as long as every one of them gets the slot 1. -/
theorem allGreeted_iff (h : (machine β p).Run tr s) :
    AllGreeted tr ↔ ∀ t ∈ tr, ∀ j, t.pre.acceptedSlot = some j → j = 1 := by
  constructor
  · intro hall t ht j hj
    obtain ⟨before, after, rfl⟩ := List.append_of_mem ht
    obtain ⟨-, hs, -⟩ := h.at_step
    have hs' := step_stepped hs
    have hpre : before ++ [t] <+: before ++ t :: after := ⟨after, by simp⟩
    have hdir := (hall before t [] j hpre hj (by simp)).directed
    by_contra hne
    have hfree := (acceptedSlot_eq_some hj).2.2
    have hopen : (t.post.fd 1).isSome := by
      have hone : t.pre.acceptedSlot ≠ some 1 := by
        rw [hj]
        simpa using hne
      have hclosed : t.pre.closedSlot t.input ≠ some 1 := by
        simp [closedSlot, (acceptedSlot_eq_some hj).1]
      exact hs'.occupied (ServerTcpHandler.isSome_fd_one hfree hne) hclosed
    have hhello : Sending.one 1 t.post.engine.helloMsg ∈ t.out := by
      rw [hs'.sends_greeting hj, if_pos hopen]
      simp [greeting]
    obtain ⟨msg, hmsg⟩ := hdir _ hhello
    exact hne (Sending.one.inj hmsg).1.symm
  · rintro hfirst before t life j ⟨rest, rfl⟩ hj hclosed
    have hmem : ∀ t' ∈ t :: life, t' ∈ before ++ t :: life ++ rest := by
      intro t' ht'
      simp only [List.mem_append]
      exact .inl (.inr ht')
    obtain rfl := hfirst t (hmem t (List.mem_cons_self ..)) j hj
    obtain ⟨m, hm, -⟩ := h.split
    obtain ⟨-, hs, hlife⟩ := hm.at_step
    have hs' := step_stepped hs
    have hfd : t.post.fd 1 = t.input.accepted.fd := by rw [hs'.fd_eq 1, if_pos hj]
    constructor
    · intro x hx
      rw [hs'.sends_greeting hj] at hx
      split at hx
      · obtain ⟨msg, -, rfl⟩ := List.mem_map.mp hx
        exact ⟨msg, rfl⟩
      · cases hx
    · intro hopen
      have hpost : (t.post.fd 1).isSome := by
        rw [hfd]
        exact hopen
      refine ⟨sentTo 1 (Machine.log life), ?_, ?_⟩
      · rw [Machine.log_cons, sentTo_append, hs'.sends_greeting hj, if_pos hpost, sentTo_map_one,
          if_pos rfl]
      · exact (path_no_hello hlife hpost hclosed fun t' ht' =>
          hfirst t' (hmem t' (List.mem_cons_of_mem _ ht'))).2

theorem allGreeted_soloJoin : ∃ tr s, (machine (StdSet Position) solo).Run tr s ∧
    (∃ t ∈ tr, t.pre.acceptedSlot = some 1) ∧ AllGreeted tr := by
  have hcheck : (machine (StdSet Position) solo).check soloJoin (fun tr _ =>
      (tr.any fun t => t.pre.acceptedSlot = some 1) &&
      tr.all fun t => t.pre.acceptedSlot = none ∨ t.pre.acceptedSlot = some 1) = true := by
    decide +kernel
  obtain ⟨tr, s, h, htest⟩ := Machine.run_of_check hcheck
  simp only [Bool.and_eq_true, List.any_eq_true, List.all_eq_true, decide_eq_true_eq] at htest
  obtain ⟨haccept, hone⟩ := htest
  refine ⟨tr, s, h, haccept, (allGreeted_iff h).mpr ?_⟩
  intro t ht j hj
  rcases hone t ht with hn | hn
  · cases hn.symm.trans hj
  · exact (Option.some.inj (hn.symm.trans hj)).symm

def company : List Env :=
  pass false (.ready [0] ⟨some 5, []⟩ none) ++
    (pass false (.ready [0] ⟨some 6, []⟩ none)).take 3

/-- The greeting of a connection can go to another one. -/
theorem exists_not_allGreeted :
    ¬ ∀ p tr s, (machine (StdSet Position) p).Run tr s → AllGreeted tr := by
  intro hall
  have hcheck : (machine (StdSet Position) duo).check company (fun tr _ =>
      tr.getLast?.any fun t => t.pre.acceptedSlot = some 2 ∧
        .one 1 t.post.engine.helloMsg ∈ t.out) = true := by
    decide +kernel
  obtain ⟨tr, s, h, htest⟩ := Machine.run_of_check hcheck
  obtain ⟨t, hlast, ht⟩ := (Option.any_eq_true ..).mp htest
  obtain ⟨before, rfl⟩ := List.getLast?_eq_some_iff.mp hlast
  obtain ⟨haccept, hhello⟩ := of_decide_eq_true ht
  have hgreeted := hall duo _ s h before t [] 2 (List.prefix_refl _) haccept (by simp)
  obtain ⟨msg, hmsg⟩ := hgreeted.directed _ hhello
  exact absurd (Sending.one.inj hmsg).1 (by decide)

/--
A connection that is accepted and greeted during a game, and stays until the game ends.
The path `life` leads from the accept to the end of the game.
-/
structure LateObserver (j : Slot) (t : Machine.Step (Server β) Env Sending)
    (life : List (Machine.Step (Server β) Env Sending)) : Prop where
  accepted : t.pre.acceptedSlot = some j
  started : t.pre.engine.gameplayStarted = true
  greeted : t.out = t.post.engine.greeting.map (.one j)
  stays : ∀ t' ∈ life, t'.pre.closedSlot t'.input ≠ some j
  ended : ∃ msgs scores, broadcasts (Machine.log life) = msgs ++ [.gameEnded scores] ∧
    .ended ∉ msgs.map ServerMessage.shape

/-- The turns that a late observer is sent, by the greeting and by the later broadcasts. -/
def observedTurns (j : Slot) (t : Machine.Step (Server β) Env Sending)
    (life : List (Machine.Step (Server β) Env Sending)) : List ℕ :=
  turnNumbers (sentTo j t.out ++ heardBy j (Machine.log life))

/-- A client hears every broadcast while it is connected. -/
theorem path_heardBy (h : (machine β p).Path s life s') (hj : j ≠ 0) (hi : (s.fd j).isSome)
    (hc : ∀ t ∈ life, t.pre.closedSlot t.input ≠ some j) :
    (s'.fd j).isSome ∧ heardBy j (Machine.log life) = broadcasts (Machine.log life) := by
  refine h.invariant_of (I := fun life s => (s.fd j).isSome ∧
      heardBy j (Machine.log life) = broadcasts (Machine.log life))
    (C := fun s env => s.closedSlot env ≠ some j) hc ⟨hi, rfl⟩ ?_
  rintro life s env s' out - ⟨hi, hl⟩ hc hs
  have hs' := step_stepped hs
  refine ⟨hs'.occupied hi hc, ?_⟩
  have hout : heardBy j out = broadcasts out := by
    cases ha : s.acceptedSlot with
    | none =>
      have hall := hs'.sends_all ha
      clear hs hs'
      induction out with
      | nil => rfl
      | cons x out ih =>
        obtain ⟨msg, rfl, -⟩ := hall x (List.mem_cons_self ..)
        have hmem : j ∈ s.engine.tcpHandler.openSlots :=
          ServerTcpHandler.mem_openSlots.mpr ⟨hj, hi⟩
        have ih := ih fun y hy => hall y (List.mem_cons_of_mem _ hy)
        simpa [heardBy, broadcasts, Sending.toAll, Sending.reaching, hmem] using ih
    | some k =>
      rw [hs'.sends_greeting ha]
      split
      · simp [broadcasts_map_one, heardBy]
      · rfl
  rw [Machine.log_append, heardBy_append, broadcasts_append, hl]
  simpa using hout

/-- Until a running game ends, exactly the turns that have not been sent are broadcast. -/
theorem rest_of_game (hc : 0 < p.playersCount) (hrun : (machine β p).Run before s)
    (hlife : (machine β p).Path s life s') (hs : s.engine.gameplayStarted = true)
    {msgs : List ServerMessage} {scores : StdMap PlayerId Score}
    (hend : broadcasts (Machine.log life) = msgs ++ [.gameEnded scores])
    (hno : .ended ∉ msgs.map ServerMessage.shape) :
    msgs.map ServerMessage.shape =
      (List.range' s.turnsSent (p.gameLength.toNat + 1 - s.turnsSent)).map .turn := by
  obtain ⟨m, hm⟩ := run_progress hc hrun
  obtain ⟨n, hn⟩ := run_progress hc (hrun.append hlife)
  have hw := run_wf hc hrun
  have hg := hw.gameplay hs
  rw [Machine.log_append, broadcasts_append, List.map_append, hm, hend, List.map_append] at hn
  have hnum : n = m + 1 := by
    have hcount := congrArg (List.count Shape.ended) hn
    have hprog : ∀ s : Server β, s.progress.count .ended = 0 := fun s =>
      List.count_eq_zero.mpr ended_not_mem_progress
    simpa [List.count_flatten, count_ended_round, hprog, List.count_eq_zero.mpr hno,
      ServerMessage.shape] using hcount.symm
  rw [hnum, List.replicate_succ', List.flatten_concat, List.append_assoc, List.append_assoc,
    List.append_cancel_left_eq] at hn
  have hsplit : (s.progress ++ msgs.map ServerMessage.shape) ++ .ended :: [] =
      course p.playersCount.toNat (p.gameLength.toNat + 1) ++ .ended :: s'.progress := by
    simpa [round, ServerMessage.shape] using hn
  have hclosed : .ended ∉ s.progress ++ msgs.map ServerMessage.shape := by
    rw [List.mem_append, not_or]
    exact ⟨ended_not_mem_progress, hno⟩
  obtain ⟨hcourse, -, -⟩ := (List.append_cons_inj_of_notMem hclosed List.not_mem_nil).mp hsplit
  have hsent := turnsSent_le hw hg
  simp only [progress, if_pos hs, hw.params, course, List.append_assoc,
    List.append_cancel_left_eq, List.cons_append, List.cons.injEq] at hcourse
  have hrange : List.range (p.gameLength.toNat + 1) = List.range s.turnsSent ++
      List.range' s.turnsSent (p.gameLength.toNat + 1 - s.turnsSent) := by
    have happend := @List.range'_append_1 0 s.turnsSent (p.gameLength.toNat + 1 - s.turnsSent)
    rw [Nat.zero_add, Nat.add_sub_cancel' hsent] at happend
    simpa only [List.range_eq_range'] using happend.symm
  rw [hrange, List.map_append] at hcourse
  exact List.append_cancel_left hcourse.2

/-- A late observer is sent the turn it connected in twice. -/
theorem lateObserver_turns (h : (machine β p).Run (before ++ t :: life) s)
    (ho : LateObserver j t life) :
    observedTurns j t life = List.range (t.pre.engine.currentTurn.toNat + 1) ++
      List.range' t.pre.engine.currentTurn.toNat
        (p.gameLength.toNat + 1 - t.pre.engine.currentTurn.toNat) ∧
    observedTurns j t life ≠ List.range (p.gameLength.toNat + 1) := by
  obtain ⟨hrun, hs, hlife⟩ := h.at_step
  have hs' := step_stepped hs
  have hc := playersCount_pos hrun ho.started
  have hw := run_wf hc hrun
  have hpost : (machine β p).Run (before ++ [t]) t.post := .snoc hrun hs
  obtain ⟨hp, hn, hf⟩ := acceptedSlot_eq_some ho.accepted
  have hj := (ServerTcpHandler.freeSlot_eq_some hf).1
  obtain ⟨handler, hsame⟩ := hs'.accepted ho.accepted
  have hgame : Gameplay t.post.engine := by
    rw [hsame]
    exact (hw.gameplay ho.started).withHandler
  have hopen : (t.post.fd j).isSome := by
    have hout := hs'.sends_greeting ho.accepted
    rw [ho.greeted] at hout
    split at hout
    · rename_i hone
      have hslot : j = 1 := by
        have := congrArg List.head? hout
        simpa [greeting] using this
      rw [hslot]
      exact hone
    · simp [greeting] at hout
  obtain ⟨msgs, scores, hend, hno⟩ := ho.ended
  have hrest := rest_of_game hc hpost hlife hgame.started hend hno
  have hsent : t.post.turnsSent = t.pre.engine.currentTurn.toNat := by
    rw [hsame]
    rfl
  have hturns : observedTurns j t life = List.range (t.pre.engine.currentTurn.toNat + 1) ++
      List.range' t.pre.engine.currentTurn.toNat
        (p.gameLength.toNat + 1 - t.pre.engine.currentTurn.toNat) := by
    rw [observedTurns, ho.greeted, sentTo_map_one, if_pos rfl, turnNumbers_append,
      turnNumbers_greeting hgame, (path_heardBy hlife hj hopen ho.stays).2, hend,
      turnNumbers_append, turnNumbers_eq hrest, hsent, hsame]
    simp [turnNumbers, withHandler]
  refine ⟨hturns, ?_⟩
  rw [hturns]
  intro hrange
  have hlen := congrArg List.length hrange
  have hle := UInt16.le_iff_toNat_le.mp (hw.gameplay ho.started).bounded
  rw [hw.params] at hle
  simp at hlen
  omega

def latecomer : List Env :=
  soloJoin ++ pass true (.ready [1] ⟨none, []⟩ (some [])) ++
    pass true (.ready [0] ⟨some 6, []⟩ none) ++ pass true (.ready [] ⟨none, []⟩ none)

theorem exists_lateObserver : ∃ before t life s,
    (machine (StdSet Position) solo).Run (before ++ t :: life) s ∧ LateObserver 1 t life ∧
    observedTurns 1 t life = [0, 1, 2, 2, 3] := by
  have hcheck : (machine (StdSet Position) solo).check latecomer (fun tr _ =>
      match tr.drop 91 with
      | [] => false
      | t :: life => t.pre.acceptedSlot = some 1 ∧ t.pre.engine.gameplayStarted = true ∧
          t.out = t.post.engine.greeting.map (.one 1) ∧
          (∀ t' ∈ life, t'.pre.closedSlot t'.input ≠ some 1) ∧
          (broadcasts (Machine.log life)).map ServerMessage.shape = [.turn 2, .turn 3, .ended] ∧
          observedTurns 1 t life = [0, 1, 2, 2, 3]) = true := by
    decide +kernel
  obtain ⟨tr, s, h, htest⟩ := Machine.run_of_check hcheck
  rw [← List.take_append_drop 91 tr] at h
  split at htest
  · cases htest
  · rename_i t life hdrop
    rw [hdrop] at h
    obtain ⟨haccept, hstart, hgreeted, hstays, hshape, hturns⟩ := of_decide_eq_true htest
    refine ⟨_, t, life, s, h, ⟨haccept, hstart, hgreeted, hstays, ?_⟩, hturns⟩
    obtain ⟨msgs, msgs', hmsgs, hturn, hend⟩ :=
      List.map_eq_append_iff.mp (show _ = [Shape.turn 2, .turn 3] ++ [.ended] from hshape)
    obtain ⟨msg, rfl, hmsg⟩ := List.map_eq_singleton_iff.mp hend
    obtain ⟨scores, rfl⟩ := ServerMessage.shape_eq_ended hmsg
    exact ⟨msgs, scores, hmsgs, by rw [hturn]; decide⟩

theorem lateObserver_turns_latecomer : ∃ before t life s,
    (machine (StdSet Position) solo).Run (before ++ t :: life) s ∧ LateObserver 1 t life ∧
    observedTurns 1 t life ≠ List.range 4 := by
  obtain ⟨before, t, life, s, h, ho, -⟩ := exists_lateObserver
  exact ⟨before, t, life, s, h, ho, (lateObserver_turns h ho).2⟩

/-- A late observer need not be sent every turn once. -/
theorem exists_lateObserver_ne : ¬ ∀ (p : ServerParameters) before t life s j,
    (machine (StdSet Position) p).Run (before ++ t :: life) s →
    LateObserver j t life → observedTurns j t life = List.range (p.gameLength.toNat + 1) := by
  intro hall
  obtain ⟨before, t, life, s, h, ho, hturns⟩ := exists_lateObserver
  have hrange := hall solo before t life s 1 h ho
  rw [hturns] at hrange
  exact absurd hrange (by decide)

end Server

end Bomberrobots
