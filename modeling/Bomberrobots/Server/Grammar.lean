import Bomberrobots.Server.Arithmetic
import Bomberrobots.Server.Cursor

/-! # The grammar of the client messages

What `handle_msg` answers to the bytes of one read. It accepts the concatenations of complete
messages, where it takes any byte for a direction. A message that the handlers do not survive
is not answered at all.
-/

namespace Bomberrobots

namespace ClientMessage

/-- A message of the documented format. -/
def Documented (msg : ClientMessage) : Prop :=
  msg.Fits ∧ ∀ direction, msg = .move direction → direction.toByte ≤ 3

/-- The bytes are a concatenation of one or more messages of a kind. -/
def Concatenation (P : ClientMessage → Prop) (bytes : Bytes) : Prop :=
  ∃ msgs : List ClientMessage, msgs ≠ [] ∧ (∀ msg ∈ msgs, P msg) ∧ bytes = msgs.flatMap toBytes

variable {msg msg' : ClientMessage} {msgs msgs' : List ClientMessage} {bytes : Bytes}

theorem Documented.of_asReceived (h : msg.Documented) (hfit : msg'.Fits)
    (heq : msg.asReceived = msg'.asReceived) : msg'.Documented := by
  refine ⟨hfit, ?_⟩
  rintro direction rfl
  cases msg with
  | move d =>
    have hbyte := congrArg Direction.toByte (ClientMessage.move.inj heq)
    rw [Direction.toByte_ofByte, Direction.toByte_ofByte] at hbyte
    exact hbyte ▸ h.2 d rfl
  | _ => cases heq

theorem documented_of_flatMap_eq (hmsgs : ∀ msg ∈ msgs, msg.Documented)
    (hmsgs' : ∀ msg ∈ msgs', msg.Fits) (heq : msgs.flatMap toBytes = msgs'.flatMap toBytes) :
    ∀ msg ∈ msgs', msg.Documented := by
  have hmap := reads_readMessage.map_value_eq (fun msg hm => (hmsgs msg hm).1) hmsgs' heq
  intro msg' hm'
  obtain ⟨msg, hm, hsame⟩ := List.mem_map.mp (hmap ▸ List.mem_map_of_mem hm')
  exact (hmsgs msg hm).of_asReceived (hmsgs' msg' hm') hsame

theorem exists_readMessages_iff :
    (∃ msg, readMessages bytes.length bytes = some msg) ↔ Concatenation Fits bytes := by
  simp only [readMessages_eq, reads_readMessage.parseLast_eq_some_iff le_rfl]
  constructor
  · rintro ⟨-, msgs, msg, hfit, -, hbytes⟩
    exact ⟨msgs ++ [msg], by simp, hfit, hbytes⟩
  · rintro ⟨msgs, hne, hfit, hbytes⟩
    rw [← List.dropLast_append_getLast hne] at hfit hbytes
    exact ⟨_, _, _, hfit, rfl, hbytes⟩

end ClientMessage

namespace Server

open GameEngine ClientMessage

variable {β : Type} {p : ServerParameters} {s s' : Server β} {env : Env} {out : List Sending}
  {i : Slot} {u : Position} {bytes : Bytes}

/-- The handler of the message does not return. -/
def Fatal (s : Server β) (i : Slot) (msg : ClientMessage) : Prop :=
  s.engine.gameplayStarted = false ∧
    match msg with
    | .join _ => s.engine.Void ∧
        s.engine.players.size + 1 = s.engine.gameParams.playersCount.toNat
    | _ => i ∈ s.engine.playerIds

theorem fatal_asReceived {msg : ClientMessage} : Fatal s i msg.asReceived ↔ Fatal s i msg := by
  cases msg <;> rfl

/-- What holds of a server that waits for players, however many it waits for. -/
structure Waits (s : Server β) : Prop where
  client : s.point ≠ .client 0
  addressed : s.engine.tcpHandler.Addressed
  lobby : s.engine.gameplayStarted = false → s.engine.playersPositions = ∅ ∧
    s.engine.currentPlayersToDestroy = ∅ ∧ s.engine.currentTurn = 0

variable [PositionSet β]

theorem Waits.stepped (h : Waits s) (hs : Stepped env s s' out) : Waits s' := by
  have ha := h.addressed
  cases hs with
  | lobby hs => exact ⟨nofun, ha, h.lobby⟩
  | openTurn hs hb =>
    obtain ⟨-, t, rfl, rfl⟩ := beginTurn_ticked hb
    exact ⟨nofun, ha, fun hs' => Bool.noConfusion (hs.symm.trans hs')⟩
  | quiet hp => exact ⟨nofun, ha, h.lobby⟩
  | polled hp => exact ⟨nofun, ha, h.lobby⟩
  | noClient hn => exact ⟨nofun, ha, h.lobby⟩
  | full hn hf => exact ⟨nofun, ha.acceptClient, h.lobby⟩
  | greet hn hf he =>
    subst he
    exact ⟨nofun, ha.acceptClient, h.lobby⟩
  | noMessage hm => exact ⟨nextClient_ne_zero, ha, h.lobby⟩
  | @refused e i hm hr =>
    have hclosed : (e.tcpHandler.reportMsgStatus .errorMsg i).Addressed :=
      ServerTcpHandler.Addressed.reportMsgStatus ha nofun
    exact ⟨nextClient_ne_zero, hclosed, h.lobby⟩
  | handled hm hr hh =>
    refine ⟨nextClient_ne_zero, hh.frame.1 ▸ ha, ?_⟩
    cases hh with
    | start hs ha hn hg =>
      obtain ⟨robots, blocks, random, -, -, -, -, -, rfl⟩ := startGameplay_ok hg
      exact fun hs => Bool.noConfusion hs
    | move ha hp hc =>
      intro hs
      have hempty := (h.lobby hs).1
      dsimp only at hempty
      simp [hempty] at hp
    | _ => exact h.lobby
  | rest hs => exact ⟨nofun, ha, h.lobby⟩
  | send hs ht =>
    obtain ⟨robots, random, turn, -, -, -, rfl, -, -⟩ := sendTurn_ok ht
    exact ⟨nofun, ha, fun hs' => Bool.noConfusion (hs.symm.trans hs')⟩
  | finish =>
    unfold finishTurn
    dsimp only
    split
    · exact ⟨nofun, ha, fun _ => ⟨rfl, rfl, rfl⟩⟩
    · exact ⟨nofun, ha, fun hs => ⟨(h.lobby hs).1, rfl, (h.lobby hs).2.2⟩⟩

section Runs

variable {tr : List (Machine.Step (Server β) Env Sending)}

theorem run_waits (h : (machine β p).Run tr s) : Waits s := by
  refine h.invariant (I := fun _ s => Waits s) ⟨nofun, ServerTcpHandler.addressed_new, ?_⟩
    fun _ _ _ _ _ _ hI hs => hI.stepped (step_stepped hs)
  exact fun _ => ⟨rfl, rfl, rfl⟩

theorem callsStart_iff {player : Player} (h : (machine β p).Run tr s)
    (hs : s.engine.gameplayStarted = false) : (s.engine.joined i player).callsStart ↔
      s.engine.players.size + 1 = s.engine.gameParams.playersCount.toNat := by
  rcases Nat.eq_zero_or_pos p.playersCount.toNat with hc | hc
  · have hzero := congrArg UInt8.toNat (run_not_started (UInt8.toNat_inj.mp hc) h).1
    apply iff_of_false
    · intro hcalls
      exact size_players_joined (hcalls.trans hzero)
    · intro hsize
      exact absurd (hsize.trans hzero) (Nat.succ_ne_zero _)
  · have hl := (run_wf (UInt8.lt_iff_toNat_lt.mpr hc) h).lobby hs
    rw [callsStart, hl.size_joined, hl.registered.size]
    rfl

theorem handleJoin_error_iff {name : Bytes} (h : (machine β p).Run tr s)
    (hp : s.point = .client i) (hm : s.engine.tcpHandler.isMessageFrom i = true)
    (hs : s.engine.gameplayStarted = false) :
    (∃ f, s.engine.handleJoin i name = .error f) ↔ Fatal s i (.join name) := by
  obtain ⟨hclient, haddressed, hlobby⟩ := run_waits h
  have hi : i ≠ 0 := fun hi => hclient (hi ▸ hp)
  have hmem := haddressed i hi (isSome_fd_of_isMessageFrom hm)
  obtain ⟨address, haddr⟩ := Std.ExtTreeMap.mem_iff_exists_getElem?.mp hmem
  have ha : s.engine.tcpHandler.getAddress i = .ok address := by
    simp [ServerTcpHandler.getAddress, haddr]
  have hlen : (s.engine.joined i ⟨name, address⟩).currentTurn.toNat ≤
      (s.engine.joined i ⟨name, address⟩).turns.length := by
    simp [GameEngine.joined, (hlobby hs).2.2]
  have hjoin := @handleJoin_eq β _ s.engine i ⟨name, address⟩ hs ha
  rw [hjoin, afterJoin]
  by_cases hcalls : (s.engine.joined i ⟨name, address⟩).callsStart
  · rw [if_pos hcalls]
    have hsize := (callsStart_iff h hs).mp hcalls
    constructor
    · rintro ⟨f, hf⟩
      rcases Except.bind_eq_error_iff.mp hf with hf | ⟨r, -, hf⟩
      · exact ⟨hs, (startGameplay_error hf hlen).2, hsize⟩
      · exact absurd hf Except.pure_ne_error
    · rintro ⟨-, hvoid, -⟩
      rw [startGameplay_of_void size_players_joined hvoid hlen]
      exact ⟨_, rfl⟩
  · rw [if_neg hcalls]
    apply iff_of_false
    · rintro ⟨f, hf⟩
      cases hf
    · rintro ⟨-, -, hsize⟩
      exact hcalls ((callsStart_iff h hs).mpr hsize)

theorem handleClientMessage_error_iff {msg : ClientMessage} (h : (machine β p).Run tr s)
    (hp : s.point = .client i) (hm : s.engine.tcpHandler.isMessageFrom i = true) :
    (∃ f, s.engine.handleClientMessage i u msg = .error f) ↔ Fatal s i msg := by
  cases hj : msg.isJoin with
  | true =>
    cases msg with
    | join name =>
      cases hs : s.engine.gameplayStarted with
      | false => exact handleJoin_error_iff h hp hm hs
      | true =>
        apply iff_of_false
        · rintro ⟨f, hf⟩
          simp [handleClientMessage, handleJoin, hs] at hf
        · rintro ⟨hs', -⟩
          exact Bool.noConfusion (hs.symm.trans hs')
    | _ => cases hj
  | false =>
    have hfatal : Fatal s i msg ↔ s.engine.gameplayStarted = false ∧ i ∈ s.engine.playerIds := by
      cases msg with
      | join name => cases hj
      | _ => exact Iff.rfl
    rw [hfatal]
    constructor
    · rintro ⟨f, hf⟩
      obtain ⟨id, ha, hn⟩ := handleAction_error hf hj
      refine ⟨?_, Std.ExtTreeMap.mem_iff_exists_getElem?.mpr ⟨id, (actingPlayer_eq_some.mp ha).1⟩⟩
      by_contra hs
      rw [Bool.not_eq_false] at hs
      obtain ⟨hpos, hlog⟩ := (run_gameplay h hs).2.not_acting ha
      rcases hn with hn | hn
      · exact hn hpos
      · omega
    · rintro ⟨hs, hi⟩
      obtain ⟨hpos, hdestroy, -⟩ := (run_waits h).lobby hs
      obtain ⟨id, hid⟩ := Std.ExtTreeMap.mem_iff_exists_getElem?.mp hi
      have ha : s.engine.actingPlayer i = some id :=
        actingPlayer_eq_some.mpr ⟨hid, by simp [hdestroy]⟩
      exact ⟨_, handleAction_outOfRange hj ha (by simp [hpos])⟩

/--
`handle_msg` answers a read with `SUCCESS` or `ERROR_MSG` as the documented format says. Its
loop ends and looks at nothing but the received bytes, whatever the buffer holds behind them.
-/
structure AnswersGrammar (e : GameEngine β) (i : Slot) (u : Position) (bytes : Bytes) : Prop where
  success : Concatenation Documented bytes →
    ∃ e' sent, e.handleMsg i (some bytes) u = .ok (.success, e', sent)
  errorMsg : ¬ Concatenation Documented bytes →
    ∃ e' sent, e.handleMsg i (some bytes) u = .ok (.errorMsg, e', sent)
  parse : ∀ mem, Holds mem bytes →
    ∃ t, (Parse.loop mem).exec (bytes.length + 1) (.start bytes.length) = some t ∧
      t.currentBuf.Within bytes ∧ t.result = receivedMessage (some bytes)

theorem receivedMessage_eq (hne : bytes ≠ []) (hlen : bytes.length ≤ 256) :
    receivedMessage (some bytes) = readMessages bytes.length bytes := by
  rw [receivedMessage, readFrom_of_le hne hlen]

theorem receivedMessage_of_flatMap {msgs : List ClientMessage} {msg : ClientMessage}
    (hne : bytes ≠ []) (hlen : bytes.length ≤ 256) (hfit : ∀ m ∈ msgs ++ [msg], m.Fits)
    (hbytes : bytes = (msgs ++ [msg]).flatMap toBytes) :
    receivedMessage (some bytes) = some msg.asReceived := by
  rw [receivedMessage_eq hne hlen, readMessages_eq,
    reads_readMessage.parseLast_eq_some_iff le_rfl]
  exact ⟨msgs, msg, hfit, rfl, hbytes⟩

/-- The last of the messages in a read is handled, and those before it are forgotten. -/
theorem handleMsg_of_flatMap {e : GameEngine β} {msgs : List ClientMessage} {msg : ClientMessage}
    (hne : bytes ≠ []) (hlen : bytes.length ≤ 256) (hfit : ∀ m ∈ msgs ++ [msg], m.Fits)
    (hbytes : bytes = (msgs ++ [msg]).flatMap toBytes) :
    e.handleMsg i (some bytes) u =
      e.handleClientMessage i u msg.asReceived >>= fun r => pure (.success, r.1, r.2) :=
  handleMsg_of_some (receivedMessage_of_flatMap hne hlen hfit hbytes)

/--
Messages that arrive in one read have the effect of the last one alone, and a read that is not
answered with `SUCCESS` has none.
-/
theorem handleMsg_atomic (e : GameEngine β) (i : Slot) (u : Position) :
    (∀ msgs msg, (∀ m ∈ msgs ++ [msg], m.Fits) →
      ((msgs ++ [msg]).flatMap toBytes).length ≤ 256 →
      e.handleMsg i (some ((msgs ++ [msg]).flatMap toBytes)) u =
        e.handleMsg i (some msg.toBytes) u ∧
      e.handleMsg i (some msg.toBytes) u =
        e.handleClientMessage i u msg.asReceived >>= fun r => pure (.success, r.1, r.2)) ∧
    ∀ received status e' sent, e.handleMsg i received u = .ok (status, e', sent) →
      status ≠ .success → e' = e ∧ sent = [] := by
  constructor
  · intro msgs msg hfit hlen
    have hflat : (msgs ++ [msg]).flatMap toBytes = msgs.flatMap toBytes ++ msg.toBytes := by
      rw [List.flatMap_append, List.flatMap_singleton]
    have hne : msg.toBytes ≠ [] := reads_readMessage.ne_nil msg
    have hbatch := handleMsg_of_flatMap (e := e) (i := i) (u := u)
      (by rw [hflat]; exact List.append_ne_nil_of_right_ne_nil _ hne) hlen hfit rfl
    have hone : msg.toBytes = ([] ++ [msg]).flatMap toBytes := by simp
    have halone := handleMsg_of_flatMap (e := e) (i := i) (u := u) hne
      (by rw [hflat, List.length_append] at hlen; omega)
      (by simpa using hfit msg (by simp)) hone
    exact ⟨hbatch.trans halone.symm, halone⟩
  · intro received status e' sent h hs
    rcases handleMsg_ok h with ⟨-, -, he, hsent⟩ | ⟨-, -, hsuccess, -⟩
    · exact ⟨he, hsent⟩
    · exact absurd hsuccess hs

theorem handleMsg_atomic_batch : ∃ tr s, (machine (StdSet Position) solo).Run tr s ∧
    s.engine.gameplayStarted = true ∧
    (s.engine.handleMsg 1 (some [1]) default).map (fun r => r.2.1.bombs.size) = .ok 1 ∧
    (s.engine.handleMsg 1 (some [3, 0]) default).map (fun r =>
      (r.2.1.bombs.size, r.2.1.playersPositions[(0 : PlayerId)]?)) = .ok (0, some ⟨1, 1⟩) ∧
    s.engine.handleMsg 1 (some [1, 3, 0]) default = s.engine.handleMsg 1 (some [3, 0]) default := by
  have hcheck : (machine (StdSet Position) solo).check soloJoin (fun _ s =>
      s.engine.gameplayStarted ∧
      (s.engine.handleMsg 1 (some [1]) default).map (fun r => r.2.1.bombs.size) = .ok 1 ∧
      (s.engine.handleMsg 1 (some [3, 0]) default).map (fun r =>
        (r.2.1.bombs.size, r.2.1.playersPositions[(0 : PlayerId)]?)) = .ok (0, some ⟨1, 1⟩)) =
      true := by
    decide +kernel
  obtain ⟨tr, s, h, htest⟩ := Machine.run_of_check hcheck
  obtain ⟨hs, hbomb, hmove⟩ := of_decide_eq_true htest
  obtain ⟨hlast, -⟩ := handleMsg_atomic s.engine 1 default
  exact ⟨tr, s, h, hs, hbomb, hmove,
    (hlast [.placeBomb] (.move .up) (by simp [Fits]) (by decide)).1⟩

theorem exec_loop_start {mem : ℕ → UInt8} (hne : bytes ≠ []) (hlen : bytes.length ≤ 256)
    (hmem : Holds mem bytes) :
    ∃ t, (Parse.loop mem).exec (bytes.length + 1) (.start bytes.length) = some t ∧
      t.currentBuf.Within bytes ∧ t.result = receivedMessage (some bytes) := by
  rw [receivedMessage_eq hne hlen]
  exact Parse.exec_loop hmem .received hne le_rfl

/--
The server answers a read by the grammar exactly if, in case the bytes are complete messages,
their directions are among the four and the handler of the last message returns.
-/
theorem answersGrammar_iff (h : (machine β p).Run tr s) (hp : s.point = .client i)
    (hm : s.engine.tcpHandler.isMessageFrom i = true) (hne : bytes ≠ [])
    (hlen : bytes.length ≤ 256) :
    AnswersGrammar s.engine i u bytes ↔
      ∀ msgs msg, (∀ m ∈ msgs ++ [msg], m.Fits) → bytes = (msgs ++ [msg]).flatMap toBytes →
        (∀ m ∈ msgs ++ [msg], m.Documented) ∧ ¬ Fatal s i msg := by
  constructor
  · rintro ⟨hsuccess, herror, -⟩ msgs msg hfit hbytes
    have hmsg := handleMsg_of_flatMap (e := s.engine) (i := i) (u := u) hne hlen hfit hbytes
    have hdoc : Concatenation Documented bytes := by
      by_contra hn
      obtain ⟨e', sent, hanswer⟩ := herror hn
      obtain ⟨r, -, hr⟩ := Except.bind_eq_ok_iff.mp (hmsg.symm.trans hanswer)
      cases Except.pure_eq_ok.mp hr
    obtain ⟨e', sent, hanswer⟩ := hsuccess hdoc
    obtain ⟨msgs', -, hdoc, hbytes'⟩ := hdoc
    refine ⟨documented_of_flatMap_eq hdoc hfit (hbytes'.symm.trans hbytes), ?_⟩
    rw [← fatal_asReceived, ← handleClientMessage_error_iff (u := u) h hp hm]
    rintro ⟨f, hf⟩
    rw [hmsg, hf] at hanswer
    cases hanswer
  · intro hall
    have hparse := fun mem => @exec_loop_start bytes mem hne hlen
    cases hr : readMessages bytes.length bytes with
    | none =>
      refine ⟨?_, ?_, hparse⟩
      · rintro ⟨msgs, hmsgs, hdoc, hbytes⟩
        have hfit : Concatenation Fits bytes :=
          ⟨msgs, hmsgs, fun msg hm => (hdoc msg hm).1, hbytes⟩
        obtain ⟨msg, hmsg⟩ := exists_readMessages_iff.mpr hfit
        cases hr.symm.trans hmsg
      · intro _
        rw [handleMsg, readFrom_of_le hne hlen]
        simp only [hr]
        exact ⟨_, _, rfl⟩
    | some msg =>
      obtain ⟨msgs, hmsgs, hfit, hbytes⟩ := exists_readMessages_iff.mp ⟨msg, hr⟩
      rw [← List.dropLast_append_getLast hmsgs] at hfit hbytes
      obtain ⟨hdoc, hfatal⟩ := hall _ _ hfit hbytes
      have hmsg := handleMsg_of_flatMap (e := s.engine) (i := i) (u := u) hne hlen hfit hbytes
      rw [← fatal_asReceived, ← handleClientMessage_error_iff (u := u) h hp hm] at hfatal
      refine ⟨fun _ => ?_, fun hn => absurd ⟨_, by simp, hdoc, hbytes⟩ hn, hparse⟩
      rw [hmsg]
      cases hh : s.engine.handleClientMessage i u (msgs.getLast hmsgs).asReceived with
      | error f => exact absurd ⟨f, hh⟩ hfatal
      | ok r => exact ⟨_, _, rfl⟩

end Runs

theorem exists_message : ∃ tr s, (machine (StdSet Position) solo).Run tr s ∧
    s.point = .client 1 ∧ s.engine.tcpHandler.isMessageFrom 1 = true := by
  have hcheck : (machine (StdSet Position) solo).check (soloJoin.take 32) (fun _ s =>
      s.point = .client 1 ∧ s.engine.tcpHandler.isMessageFrom 1 = true) = true := by
    decide +kernel
  obtain ⟨tr, s, h, htest⟩ := Machine.run_of_check hcheck
  exact ⟨tr, s, h, of_decide_eq_true htest⟩

theorem not_documented_strayMove : ¬ (ClientMessage.move (.unnamed 9)).Documented :=
  fun h => absurd (h.2 _ rfl) (by decide)

theorem answersGrammar_iff_strayMove : ∃ tr s, (machine (StdSet Position) solo).Run tr s ∧
    s.point = .client 1 ∧ s.engine.tcpHandler.isMessageFrom 1 = true ∧
    ¬ AnswersGrammar s.engine 1 default [3, 9] := by
  obtain ⟨tr, s, h, hp, hm⟩ := exists_message
  refine ⟨tr, s, h, hp, hm, ?_⟩
  rw [answersGrammar_iff h hp hm (by decide) (by decide)]
  intro hall
  obtain ⟨hdoc, -⟩ := hall [] (.move (.unnamed 9)) (by simp [Fits]) rfl
  exact not_documented_strayMove (hdoc _ (by simp))

/-- The server accepts directions that have no name. -/
theorem exists_not_answersGrammar : ¬ ∀ (p : ServerParameters)
    (tr : List (Machine.Step (Server (StdSet Position)) Env Sending))
    (s : Server (StdSet Position)), (machine (StdSet Position) p).Run tr s → ∀ i u bytes,
    s.point = .client i → s.engine.tcpHandler.isMessageFrom i = true → bytes ≠ [] →
    bytes.length ≤ 256 → AnswersGrammar s.engine i u bytes := by
  intro hall
  obtain ⟨tr, s, h, hp, hm⟩ := exists_message
  obtain ⟨-, herror, -⟩ := hall solo tr s h 1 default [3, 9] hp hm (by decide) (by decide)
  have hstray : ¬ Concatenation Documented [3, 9] := by
    rintro ⟨msgs, -, hdoc, hbytes⟩
    have hsame : ∀ msg ∈ [ClientMessage.move (.unnamed 9)], msg.Documented :=
      documented_of_flatMap_eq hdoc (by simp [Fits]) hbytes.symm
    exact not_documented_strayMove (hsame _ List.mem_cons_self)
  obtain ⟨e', sent, hanswer⟩ := herror hstray
  have hreceived : receivedMessage (some [3, 9]) = some (.move (.unnamed 9)) := rfl
  have hmsg := handleMsg_of_some (e := s.engine) (i := 1) (u := default) hreceived
  obtain ⟨r, -, hr⟩ := Except.bind_eq_ok_iff.mp (hmsg.symm.trans hanswer)
  cases Except.pure_eq_ok.mp hr

end Server

end Bomberrobots
