import Bomberrobots.Server.Parameters
import Bomberrobots.Server.Protocol

/-! # How many players start a game

The server counts the players of the lobby against the 8 bits of the parameter. The game
starts with the number on the command line exactly when that number fits.
-/

namespace Bomberrobots

namespace ServerTcpHandler

def ready (h : ServerTcpHandler) (slots : List Slot) : ServerTcpHandler :=
  h.resetRevents.pollExec fun i => ⟨slots.contains i, false⟩

variable {h : ServerTcpHandler} {slots : List Slot} {i : Slot}

@[simp] theorem fd_ready : (h.ready slots).fd i = h.fd i := rfl

@[simp] theorem addresses_ready : (h.ready slots).addresses = h.addresses := rfl

theorem revents_ready : (h.ready slots).revents i =
    if (h.fd i).isSome then ⟨slots.contains i, false⟩ else Revents.none := rfl

theorem isMessageFrom_ready :
    (h.ready slots).isMessageFrom i = ((h.fd i).isSome && slots.contains i) := by
  rw [isMessageFrom, revents_ready, fd_ready]
  cases (h.fd i).isSome <;> simp

theorem isNewConnection_ready :
    (h.ready slots).isNewConnection = ((h.fd 0).isSome && slots.contains 0) := by
  rw [isNewConnection, revents_ready]
  cases (h.fd 0).isSome <;> rfl

end ServerTcpHandler

namespace GameEngine

variable {β : Type}

/-- The comparison behind the acceptance of a player. -/
def callsStart (e : GameEngine β) : Prop := e.players.size = e.gameParams.playersCount.toNat

instance callsStart.instDecidable {e : GameEngine β} : Decidable e.callsStart :=
  inferInstanceAs (Decidable (_ = _))

variable [PositionSet β]

def afterJoin (e : GameEngine β) : Except Fault (GameEngine β × List Sending) :=
  if e.callsStart then e.startGameplay else .ok (e, [])

theorem handleJoin_eq {e : GameEngine β} {i : Slot} {player : Player}
    (hs : e.gameplayStarted = false) (ha : e.tcpHandler.getAddress i = .ok player.address) :
    e.handleJoin i player.name = (e.joined i player).afterJoin >>= fun r => pure (r.1,
      e.tcpHandler.sendMessageToAll (.acceptedPlayer e.nextPlayerId player) ++ r.2) := by
  unfold handleJoin
  rw [if_neg (by simp [hs])]
  simp only [ha]
  unfold afterJoin
  by_cases hn : (e.joined i player).callsStart
  · rw [if_pos hn]
    exact if_pos hn
  · rw [if_neg hn]
    exact if_neg hn

end GameEngine

namespace Server

open GameEngine

def joinedIds (msgs : List ServerMessage) : List PlayerId :=
  msgs.foldl (fun ids msg =>
    match msg with
    | .acceptedPlayer id _ => ids ++ [id]
    | .gameEnded _ => []
    | _ => ids) []

variable {β : Type} {s s' : Server β} {msgs new : List ServerMessage}

theorem joinedIds_append : joinedIds (msgs ++ new) = new.foldl (fun ids msg =>
    match msg with
    | .acceptedPlayer id _ => ids ++ [id]
    | .gameEnded _ => []
    | _ => ids) (joinedIds msgs) := List.foldl_append

/--
The step accepts a Join of the player. It may still fail, when `start_gameplay` is called and
does not return.
-/
def AcceptsJoin (s : Server β) (env : Env) (i : Slot) (player : Player) : Prop :=
  s.engine.gameplayStarted = false ∧ s.handledMessage env = some (i, .join player.name) ∧
    s.engine.tcpHandler.getAddress i = .ok player.address

/--
The game starts with `n` players: the first `n` ids that are accepted are distinct, there are
`n` players behind the `n`-th of them, and its acceptance is the one that calls `start_gameplay`.
-/
structure StartsWith (n : ℕ) (msgs : List ServerMessage) (s : Server β) : Prop where
  distinct : ((joinedIds msgs).take n).Nodup
  size : (joinedIds msgs).length = n → s.engine.players.size = n
  start : ∀ env i player, s.AcceptsJoin env i player →
    ((s.engine.joined i player).callsStart ↔ (joinedIds msgs).length + 1 = n)
  started : s.engine.gameplayStarted = true → (joinedIds msgs).length = n

def Numbering (msgs : List ServerMessage) (s : Server β) : Prop :=
  (joinedIds msgs).map UInt8.toNat = List.range
    (if s.engine.gameplayStarted then s.engine.gameParams.playersCount.toNat
      else s.engine.nextPlayerId.toNat)

theorem Numbering.length (h : Numbering msgs s) : (joinedIds msgs).length =
    if s.engine.gameplayStarted then s.engine.gameParams.playersCount.toNat
      else s.engine.nextPlayerId.toNat := by
  have hlen := congrArg List.length h
  rwa [List.length_map, List.length_range] at hlen

theorem Numbering.nodup (h : Numbering msgs s) : (joinedIds msgs).Nodup := by
  have hnodup : ((joinedIds msgs).map UInt8.toNat).Nodup := by
    unfold Numbering at h
    rw [h]
    exact List.nodup_range
  exact hnodup.of_map

structure Waiting (p : ServerParameters) (e : GameEngine β) : Prop where
  params : e.gameParams = p
  started : e.gameplayStarted = false
  connected : (e.tcpHandler.fd 1).isSome
  address : 1 ∈ e.tcpHandler.addresses

def joinEnv : Env := .ready [1] ⟨none, []⟩ (some [0, 0])

variable {p : ServerParameters}

theorem Waiting.acceptsJoin {e : GameEngine β} (h : Waiting p e) : ∃ player, AcceptsJoin
    (⟨e.withHandler (e.tcpHandler.ready [1]), .client 1⟩ : Server β) joinEnv 1 player := by
  obtain ⟨address, ha⟩ := Std.ExtTreeMap.mem_iff_exists_getElem?.mp h.address
  refine ⟨⟨[], address⟩, h.started, ?_, ?_⟩
  · apply handledMessage_eq_some_iff.mpr
    refine ⟨rfl, ?_, rfl⟩
    simp [GameEngine.withHandler, ServerTcpHandler.isMessageFrom_ready, h.connected]
  · simp [ServerTcpHandler.getAddress, GameEngine.withHandler, ha]

variable [PositionSet β] {env : Env}

theorem Played.numbering (h : Played env s s' new) (hI : Numbering msgs s) :
    Numbering (msgs ++ new) s' := by
  unfold Numbering at hI ⊢
  rw [joinedIds_append]
  cases h with
  | still hp => exact hI
  | @joined e i player hl hlt hn =>
    have hs : (e.joined i player).gameplayStarted = false := hl.started
    rw [if_neg (by simp [hl.started])] at hI
    rw [if_neg (by simp [hs])]
    simp [hI, toNat_joined hlt, List.range_succ]
  | @started e e' i player sent hl hn hg =>
    have hg' := (hl.startGameplay hn hg).1
    have hparams : e'.gameParams = e.gameParams := by
      obtain ⟨robots, blocks, random, -, -, -, -, -, rfl⟩ := startGameplay_ok hg
      rfl
    rw [if_neg (by simp [hl.started])] at hI
    rw [hl.size_joined] at hn
    rw [if_pos hg'.started]
    simp [hI, hparams, ← hn, List.range_succ]
  | @acted e e' i msg hg hm hr hh =>
    obtain ⟨events, hlog⟩ := hh.logged hg
    simpa [hlog.started, hlog.params, hg.started] using hI
  | opened hg hlt he hd => exact hI
  | sent hg hr hc ht => exact hI
  | closed hg hlt => exact hI
  | ended hg hlast => rfl

section Runs

variable {tr : List (Machine.Step (Server β) Env Sending)}

theorem run_numbering (hc : 0 < p.playersCount) (h : (machine β p).Run tr s) :
    Numbering (broadcasts (Machine.log tr)) s :=
  run_played (I := Numbering) hc h rfl fun _ _ _ _ _ _ hI hs => hs.numbering hI

theorem run_callsStart_iff {i : Slot} {player : Player} (h : (machine β p).Run tr s)
    (hs : s.engine.gameplayStarted = false) : (s.engine.joined i player).callsStart ↔
      (joinedIds (broadcasts (Machine.log tr))).length + 1 = p.playersCount.toNat := by
  rcases Nat.eq_zero_or_pos p.playersCount.toNat with hc | hc
  · have hzero := (run_not_started (UInt8.toNat_inj.mp hc) h).1
    have hsize : (s.engine.joined i player).players.size ≠ 0 := by
      rw [Ne, ← Std.ExtTreeMap.eq_empty_iff_size_eq_zero]
      simp [GameEngine.joined]
    have hcount : (s.engine.joined i player).gameParams.playersCount.toNat = 0 :=
      congrArg UInt8.toNat hzero
    rw [callsStart, hcount, hc]
    simp [hsize]
  · have hw := run_wf (UInt8.lt_iff_toNat_lt.mpr hc) h
    have hlen := (run_numbering (UInt8.lt_iff_toNat_lt.mpr hc) h).length
    have hcount : (s.engine.joined i player).gameParams.playersCount = p.playersCount :=
      congrArg ServerParameters.playersCount hw.params
    rw [if_neg (by simp [hs])] at hlen
    rw [callsStart, (hw.lobby hs).size_joined, hlen, hcount]

theorem playersCount_pos_of_callsStart {i : Slot} {player : Player} (h : (machine β p).Run tr s)
    (hs : s.engine.gameplayStarted = false) (hcalls : (s.engine.joined i player).callsStart) :
    0 < p.playersCount := by
  have hcount := (run_callsStart_iff h hs).mp hcalls
  exact UInt8.lt_iff_toNat_lt.mpr (hcount ▸ Nat.succ_pos _)

theorem run_startsWith (hc : 0 < p.playersCount) (h : (machine β p).Run tr s) :
    StartsWith p.playersCount.toNat (broadcasts (Machine.log tr)) s := by
  have hnum := run_numbering hc h
  have hlen := hnum.length
  obtain ⟨hw, hb⟩ := run_wf_below hc h
  have hp := hw.params
  constructor
  · exact (List.take_sublist ..).nodup hnum.nodup
  · intro hn
    cases hs : s.engine.gameplayStarted with
    | false =>
      have hlt := hb hs
      rw [hn, if_neg (by simp [hs])] at hlen
      exact absurd hlen hlt.ne'
    | true =>
      rw [← hp]
      exact (hw.gameplay hs).registered.size
  · rintro env i player ⟨hs, -, -⟩
    exact run_callsStart_iff h hs
  · intro hs
    rwa [if_pos hs, hp] at hlen

end Runs

theorem emits_polled {e : GameEngine β} (slots : List Slot) (hs : e.gameplayStarted = false) :
    (machine β p).Emits ⟨e, .top⟩ [] ⟨e.withHandler (e.tcpHandler.ready slots), .accept⟩ := by
  have htop : (machine β p).Emits ⟨e, .top⟩ []
      ⟨e.withHandler e.tcpHandler.resetRevents, .poll⟩ := by
    apply Machine.Emits.step (i := .ready slots ⟨none, []⟩ none)
    exact if_neg (by simp [hs])
  have hpoll : (machine β p).Emits ⟨e.withHandler e.tcpHandler.resetRevents, .poll⟩ []
      ⟨e.withHandler (e.tcpHandler.ready slots), .accept⟩ :=
    Machine.Emits.step (i := .ready slots ⟨none, []⟩ none) rfl
  exact htop.trans_nil hpoll

theorem emits_noMessage {e : GameEngine β} {i : Slot} (env : Env)
    (hm : ∀ j, i ≤ j → e.tcpHandler.isMessageFrom j = false) :
    (machine β p).Emits ⟨e, .client i⟩ [] ⟨e, .bottom⟩ := by
  have hstep : step ⟨e, .client i⟩ env = .ok (⟨e, nextClient i⟩, []) := by
    simp [step, hm i le_rfl]
  induction hk : 25 - i.val generalizing i with
  | zero =>
    have hlast : nextClient i = .bottom := dif_neg (by omega)
    rw [hlast] at hstep
    exact .step hstep
  | succ k ih =>
    have hlt : i.val + 1 < 26 := by omega
    have hnext : nextClient i = .client ⟨i.val + 1, hlt⟩ := dif_pos hlt
    rw [hnext] at hstep
    have hm' : ∀ j, (⟨i.val + 1, hlt⟩ : Slot) ≤ j → e.tcpHandler.isMessageFrom j = false :=
      fun j hj => hm j ((Fin.le_def.mpr (Nat.le_succ i.val)).trans hj)
    apply (Machine.Emits.step hstep).trans_nil
    apply ih hm'
    · simp [step, hm' _ le_rfl]
    · simp only
      omega

theorem step_of_handleClientMessage {e e' : GameEngine β} {i : Slot} {msg : ClientMessage}
    {sent : List Sending} (hm : e.tcpHandler.isMessageFrom i = true)
    (hr : receivedMessage env.received = some msg)
    (h : e.handleClientMessage i env.uninitialised msg = .ok (e', sent)) :
    step ⟨e, .client i⟩ env = .ok (⟨e', nextClient i⟩, sent) := by
  have hm' : e.handleMsg i env.received env.uninitialised = .ok (.success, e', sent) := by
    rw [handleMsg_of_some hr, h]
    rfl
  simp only [step, hm, if_true, clientStep, hm']
  rfl

theorem emits_rest {e : GameEngine β} (hs : e.gameplayStarted = false) :
    (machine β p).Emits ⟨e, .bottom⟩ [] ⟨e, .top⟩ := by
  apply Machine.Emits.step (i := .ready [] ⟨none, []⟩ none)
  exact if_neg (by simp [hs])

theorem AcceptsJoin.step_of_not_callsStart {i : Slot} {player : Player}
    (h : s.AcceptsJoin env i player) (hn : ¬(s.engine.joined i player).callsStart) :
    step s env = .ok (⟨s.engine.joined i player, nextClient i⟩,
      s.engine.tcpHandler.sendMessageToAll (.acceptedPlayer s.engine.nextPlayerId player)) := by
  obtain ⟨hs, hm, ha⟩ := h
  obtain ⟨hp, hm, hr⟩ := handledMessage_eq_some_iff.mp hm
  obtain ⟨e, point⟩ := s
  obtain rfl : point = .client i := hp
  apply step_of_handleClientMessage hm hr
  apply (handleJoin_eq hs ha).trans
  rw [afterJoin, if_neg hn]
  rfl

namespace Waiting

variable {e : GameEngine β}

theorem emits_ready (h : Waiting p e) : (machine β p).Emits ⟨e, .top⟩ []
    ⟨e.withHandler (e.tcpHandler.ready [1]), .client 1⟩ := by
  apply (emits_polled [1] h.started).trans_nil
  apply Machine.Emits.step (i := joinEnv)
  exact if_neg (by simp [GameEngine.withHandler, ServerTcpHandler.isNewConnection_ready])

theorem emits_joined {player : Player} (h : Waiting p e)
    (ha : AcceptsJoin (⟨e.withHandler (e.tcpHandler.ready [1]), .client 1⟩ : Server β)
      joinEnv 1 player)
    (hn : ¬((e.withHandler (e.tcpHandler.ready [1])).joined 1 player).callsStart) :
    ∃ e', Waiting p e' ∧ (machine β p).Emits ⟨e, .top⟩
      ((e.tcpHandler.ready [1]).sendMessageToAll (.acceptedPlayer e.nextPlayerId player))
      ⟨e', .top⟩ := by
  have hquiet : ∀ j : Slot, 2 ≤ j → (e.tcpHandler.ready [1]).isMessageFrom j = false := by
    intro j hj
    have hne : j ≠ 1 := fun heq => absurd (heq ▸ hj) (by decide)
    simp [ServerTcpHandler.isMessageFrom_ready, hne]
  have hjoin := h.emits_ready.trans (.step (ha.step_of_not_callsStart hn))
  have hrest : (machine β p).Emits
      ⟨(e.withHandler (e.tcpHandler.ready [1])).joined 1 player, nextClient 1⟩ []
      ⟨(e.withHandler (e.tcpHandler.ready [1])).joined 1 player, .top⟩ :=
    (emits_noMessage joinEnv hquiet).trans_nil (emits_rest h.started)
  exact ⟨(e.withHandler (e.tcpHandler.ready [1])).joined 1 player,
    ⟨h.params, h.started, h.connected, h.address⟩, hjoin.trans_nil hrest⟩

end Waiting

theorem exists_waiting : ∃ (e : GameEngine β) (out : List Sending), Waiting p e ∧
    broadcasts out = [] ∧ (machine β p).Emits (init p) out ⟨e, .top⟩ := by
  have hpoll := emits_polled (p := p) (e := (.new p : GameEngine β)) [0] rfl
  have hquiet : ∀ j : Slot, 1 ≤ j → ((ServerTcpHandler.new.ready [0]).acceptClient
      ⟨some 5, []⟩).2.isMessageFrom j = false := by
    decide
  have hconnected : (((ServerTcpHandler.new.ready [0]).acceptClient ⟨some 5, []⟩).2.fd 1).isSome :=
    by decide
  have haddress : 1 ∈ ((ServerTcpHandler.new.ready [0]).acceptClient ⟨some 5, []⟩).2.addresses := by
    decide
  have haccept : (machine β p).Emits
      ⟨(GameEngine.new p).withHandler (ServerTcpHandler.new.ready [0]), .accept⟩
      (acceptStep ((GameEngine.new p).withHandler (ServerTcpHandler.new.ready [0]))
        ⟨some 5, []⟩).2
      ⟨(acceptStep ((GameEngine.new p).withHandler (ServerTcpHandler.new.ready [0]))
        ⟨some 5, []⟩).1, .client 1⟩ :=
    Machine.Emits.step (i := .ready [] ⟨some 5, []⟩ none) rfl
  rw [acceptStep_eq] at haccept
  have hclient := haccept.trans_nil (emits_noMessage (.ready [] ⟨none, []⟩ none) hquiet)
  have hrun := (hpoll.trans hclient).trans_nil (emits_rest rfl)
  refine ⟨_, _, ⟨rfl, rfl, hconnected, haddress⟩, ?_, hrun⟩
  rw [List.nil_append]
  dsimp only
  split
  · rfl
  · rw [sendHello_append_sendHelloState]
    split
    · exact broadcasts_map_one
    · rfl

/-- As long as the game cannot start, any number of players can join. -/
theorem exists_joined (k : ℕ) (hk : p.playersCount.toNat = 0 ∨ k < p.playersCount.toNat) :
    ∃ (e : GameEngine β) (tr : List (Machine.Step (Server β) Env Sending)), Waiting p e ∧
      (joinedIds (broadcasts (Machine.log tr))).length = k ∧ (machine β p).Run tr ⟨e, .top⟩ := by
  induction k with
  | zero =>
    obtain ⟨e, out, hw, hout, tr, hrun, rfl⟩ := @exists_waiting β p _
    exact ⟨e, tr, hw, by rw [hout]; rfl, hrun⟩
  | succ k ih =>
    obtain ⟨e, tr, hw, hlen, hrun⟩ := ih (hk.imp_right Nat.lt_of_succ_lt)
    obtain ⟨player, ha⟩ := hw.acceptsJoin
    have hn : ¬((e.withHandler (e.tcpHandler.ready [1])).joined 1 player).callsStart := by
      intro hcalls
      have hlast : (e.joined 1 player).callsStart := hcalls
      rw [run_callsStart_iff (s := ⟨e, .top⟩) hrun hw.started, hlen] at hlast
      omega
    obtain ⟨e', hw', tr', hjoin, hlog⟩ := hw.emits_joined ha hn
    refine ⟨e', _, hw', ?_, hrun.append hjoin⟩
    rw [Machine.log_append, hlog, broadcasts_append, joinedIds_append]
    simpa using hlen

theorem eq_of_startsWith {n : ℕ} (hn : 0 < n) (h : ∀ tr s, (machine β p).Run tr s →
    StartsWith n (broadcasts (Machine.log tr)) s) : p.playersCount.toNat = n := by
  let k := if p.playersCount.toNat = 0 then n - 1 else p.playersCount.toNat - 1
  have hk : p.playersCount.toNat = 0 ∨ k < p.playersCount.toNat := by
    rcases Nat.eq_zero_or_pos p.playersCount.toNat with hc | hc
    · exact .inl hc
    · right
      simp only [k, if_neg hc.ne']
      omega
  obtain ⟨e, tr, hw, hlen, hrun⟩ := @exists_joined β p _ k hk
  obtain ⟨player, ha⟩ := hw.acceptsJoin
  obtain ⟨tr', hready, hlog⟩ := hw.emits_ready
  have hrun' := hrun.append hready
  have hstart := (h _ _ hrun').start _ _ _ ha
  rw [run_callsStart_iff hrun' hw.started] at hstart
  rw [Machine.log_append, hlog, List.append_nil, hlen] at hstart
  simp only [k] at hstart
  split at hstart <;> omega

variable {options : Options} {parsed : ParsedParameters}

/-- The game starts with the number of players on the command line when 8 bits hold it. -/
theorem startsWith_iff (h : parseParameters (some options) = .ok parsed) :
    (∀ tr s, (machine β parsed.toServerParameters).Run tr s →
      StartsWith options.playersCountU16.toNat (broadcasts (Machine.log tr)) s) ↔
      options.playersCountU16.toNat ≤ 255 := by
  obtain ⟨hpos, hcount⟩ := parseParameters_ok h
  constructor
  · intro hstarts
    have hfits := eq_of_startsWith hpos hstarts
    omega
  · intro hle tr s hr
    rw [Nat.mod_eq_of_lt (Nat.lt_succ_of_le hle)] at hcount
    have hc : 0 < parsed.playersCount := UInt8.lt_iff_toNat_lt.mpr (hcount ▸ hpos)
    rw [← hcount]
    exact run_startsWith hc hr

def crowd : Options where
  bombTimer := 2
  playersCountU16 := 257
  turnDuration := 100
  explosionRadius := 1
  initialBlocks := 0
  gameLength := 3
  serverName := []
  port := 2022
  seed := 0
  sizeX := 3
  sizeY := 3
  help := false

theorem startsWith_iff_crowd : ∃ parsed, parseParameters (some crowd) = .ok parsed ∧
    ((∀ tr s, (machine (StdSet Position) parsed.toServerParameters).Run tr s →
      StartsWith 257 (broadcasts (Machine.log tr)) s) ↔ 257 ≤ 255) := by
  have hparsed : parseParameters (some crowd) = .ok _ := rfl
  exact ⟨_, hparsed, startsWith_iff hparsed⟩

/-- A game for 257 players starts with the first of them. -/
theorem exists_not_startsWith : ¬ ∀ options parsed, parseParameters (some options) = .ok parsed →
    ∀ tr s, (machine (StdSet Position) parsed.toServerParameters).Run tr s →
      StartsWith options.playersCountU16.toNat (broadcasts (Machine.log tr)) s := by
  intro h
  have hcheck : (machine (StdSet Position) solo).check soloJoin (fun tr s =>
      s.engine.gameplayStarted &&
        (joinedIds (broadcasts (Machine.log tr))).length == 1) = true := by decide +kernel
  obtain ⟨tr, s, hr, hs⟩ := Machine.run_of_check hcheck
  rw [Bool.and_eq_true, beq_iff_eq] at hs
  have hstarts := h crowd _ rfl tr s hr
  exact absurd (hs.2.symm.trans (hstarts.started hs.1)) (by decide)

end Server

end Bomberrobots
