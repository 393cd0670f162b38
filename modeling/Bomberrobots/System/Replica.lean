import Bomberrobots.Client.Bombs
import Bomberrobots.Client.Lobby
import Bomberrobots.System.Network

/-! # Clients as replicas

A client that has been told about the lobby, or about the end of a game, and handles what it
is sent from then on, has the players, the bombs and the blocks of the server whenever it has
caught up, and it never fails.
-/

namespace Bomberrobots

namespace Server

open GameEngine GameInfo

variable {β γ : Type} [PositionSet γ] {p : ServerParameters} {s s' : Server β} {env : Env}
  {c c' : Client γ} {new : List ServerMessage} {out : List Sending} {i j : Slot}

/-- A client that lags behind in nothing: it has seen the broadcast turns of a running game. -/
structure Follows (s : Server β) (c : Client γ) : Prop where
  status : c.isLobbyStatus = !s.engine.gameplayStarted
  players : c.lobbyInfo.players = s.engine.players
  game : s.engine.gameplayStarted = true → ∃ turn, c.gameInfo =
    { (allEvents (s.engine.turns.take s.turnsSent)).foldl seen c.readGameStarted with turn := turn }

theorem Follows.of_sameLobby (h : SameLobby s c) (hs : s.engine.gameplayStarted = false) :
    Follows s c where
  status := by rw [(h hs).2, hs]; rfl
  players := (h hs).1
  game hs' := Bool.noConfusion (hs.symm.trans hs')

theorem Follows.keep (h : Follows s c)
    (hs : s'.engine.gameplayStarted = s.engine.gameplayStarted)
    (hp : s'.engine.players = s.engine.players)
    (ht : s.engine.gameplayStarted = true →
      s'.engine.turns.take s'.turnsSent = s.engine.turns.take s.turnsSent) : Follows s' c where
  status := h.status.trans (by rw [hs])
  players := h.players.trans hp.symm
  game hs' := by
    rw [ht (hs.symm.trans hs')]
    exact h.game (hs.symm.trans hs')

theorem follows_greeting (hs : s.engine.gameplayStarted = false) :
    ∃ c', c.handleServerMessages s.engine.greeting = .ok c' ∧ Follows s c' := by
  obtain ⟨lobbyInfo, hread, -⟩ := handleServerMessages_acceptedPlayer
    (c := { c with
      lobbyInfo := .new s.engine.gameParams.serverName s.engine.gameParams.playersCount
        s.engine.gameParams.sizeX s.engine.gameParams.sizeY s.engine.gameParams.gameLength
        s.engine.gameParams.explosionRadius s.engine.gameParams.bombTimer
      isLobbyStatus := true }) s.engine.players.toList
  have hok : ∃ c', c.handleServerMessages s.engine.greeting = .ok c' := by
    rw [greeting, hs]
    exact ⟨_, hread⟩
  obtain ⟨c', hc'⟩ := hok
  exact ⟨c', hc', .of_sameLobby (sameLobby_greeting hc') hs⟩

theorem Follows.sent {e : GameEngine β} {robots : List (PlayerId × Position)} {random : Random}
    {turn : TurnInfo} (hf : Follows ⟨e, .bottom⟩ c) (hg : Gameplay e)
    (hturn : (e.respawned robots random).turns[e.currentTurn.toNat]? = some turn)
    (hd : Destroyable ⟨e.respawned robots random, .broadcast⟩) :
    ∃ c', c.handleServerMessages [.turn turn] = .ok c' ∧
      Follows ⟨e.respawned robots random, .broadcast⟩ c' := by
  obtain ⟨shown, hgame⟩ := hf.game hg.started
  have hsame : (e.respawned robots random).currentTurn = e.currentTurn := rfl
  have htake : (e.respawned robots random).turns.take (e.currentTurn.toNat + 1) =
      e.turns.take e.currentTurn.toNat ++ [turn] := by
    rw [List.take_add_one, hturn, GameEngine.respawned, seeded, take_logEvents]
    rfl
  have hkeys : ∀ event ∈ allEvents [turn], ∀ id ∈ event.robotsDestroyed,
      id ∈ c.gameInfo.scores := by
    intro event he id hid
    have hall : event ∈ allEvents (e.respawned robots random).turns := by
      rw [allEvents_cons, allEvents_nil, List.append_nil] at he
      exact List.mem_flatMap.mpr ⟨turn, List.mem_of_getElem? hturn, he⟩
    rw [hgame]
    refine mem_scores_foldl_seen.mpr (Client.mem_scores_readGameStarted.mpr ?_)
    rw [hf.players]
    exact hd hg.started event hall id hid
  have hempty : c.gameInfo.explosions = PositionSet.empty := by
    rw [hgame]
    exact explosions_foldl_seen
  obtain ⟨shown', hread⟩ := foldlM_readTurn hempty hkeys
  have hmsgs := @Client.handleServerMessages_turns γ _ c [turn]
  rw [hread] at hmsgs
  refine ⟨_, hmsgs, ?_⟩
  refine ⟨hf.status, hf.players, fun _ => ⟨shown', ?_⟩⟩
  simp only [turnsSent, hsame, Point.sent_broadcast, htake, allEvents_concat, List.foldl_append]
  rw [hgame, foldl_seen_turn, allEvents_cons, allEvents_nil, List.append_nil]
  rfl

variable [PositionSet β]

theorem Played.follows (h : Played env s s' new) (hd : Destroyable s') (hf : Follows s c) :
    ∃ c', c.handleServerMessages new = .ok c' ∧ Follows s' c' := by
  cases h with
  | still hp =>
    refine ⟨c, rfl, hf.keep rfl rfl fun hs => ?_⟩
    simp only [turnsSent, withHandler, hp hs]
  | @joined e i player hl hlt hn =>
    refine ⟨_, rfl, ?_⟩
    constructor
    · exact hf.status
    · simp only [LobbyInfo.addPlayer, hf.players]
      rfl
    · exact fun hs => Bool.noConfusion (hl.started.symm.trans hs)
  | @started e e' i player sent hl hn hg =>
    refine ⟨_, rfl, ?_⟩
    obtain ⟨hg', hturn, -⟩ := hl.startGameplay hn hg
    have hplayers : e'.players = (e.joined i player).players := by
      obtain ⟨robots, blocks, random, -, -, -, -, -, rfl⟩ := startGameplay_ok hg
      rfl
    constructor
    · simp only [hg'.started]
      rfl
    · simp only [LobbyInfo.addPlayer, hf.players, hplayers]
      rfl
    · intro _
      simp only [turnsSent, sent_nextClient, hturn]
      exact ⟨none, rfl⟩
  | @acted e e' i msg hg hm hr hh =>
    obtain ⟨events, hlog⟩ := hh.logged hg
    refine ⟨c, rfl, hf.keep hlog.started hlog.players fun _ => ?_⟩
    simp [turnsSent, hlog.turn, hlog.turns, take_logEvents]
  | @opened e handler hg hlt he hd =>
    refine ⟨c, rfl, hf.keep rfl rfl fun _ => ?_⟩
    have hn : (e.currentTurn + 1).toNat = e.turns.length := hg.nextTurn hlt
    simp only [turnsSent, GameEngine.opened, withHandler, hn, Point.sent_top, Point.sent_poll,
      Nat.add_zero, ← hg.length]
    rw [List.take_left, List.take_length]
  | sent hg hr hcheck hturn => exact hf.sent hg hturn hd
  | @closed e hg hlt => exact ⟨c, rfl, hf.keep rfl rfl fun _ => rfl⟩
  | ended hg hlast => exact ⟨_, rfl, rfl, rfl, fun hs => Bool.noConfusion hs⟩

theorem run_destroyable {tr : List (Machine.Step (Server β) Env Sending)}
    (hc : 0 < p.playersCount) (h : (machine β p).Run tr s) : Destroyable s :=
  run_played (I := fun _ s => Destroyable s) hc h (fun hs => Bool.noConfusion hs)
    fun _ _ _ _ _ _ hI hs => hs.destroyable hI

section Agreement

variable {s : Server (StdSet Position)} {c : Client (StdSet Position)}
  {tr : List (Machine.Step (Server (StdSet Position)) Env Sending)}

theorem Follows.bombs_blocks (hf : Follows s c) (h : (machine (StdSet Position) p).Run tr s)
    (hp : s.point = .broadcast) :
    (c.gameInfo.bombs.map fun _ bomb => bomb.position) =
      (s.engine.bombs.map fun _ bomb => bomb.position) ∧
    c.gameInfo.blocks = s.engine.blocksPositions := by
  have hs := started_of_broadcast h hp
  have hc := playersCount_pos h hs
  have hg := (run_wf hc h).gameplay hs
  obtain ⟨turn, hgame⟩ := hf.game hs
  have hall : s.engine.turns.take s.turnsSent = s.engine.turns := by
    rw [turnsSent, hp, Point.sent_broadcast, ← hg.length, List.take_length]
  rw [hall] at hgame
  rw [hgame]
  constructor
  · have hshown := run_played (I := fun _ s => ShownBombs c s) hc h
      (fun hs => Bool.noConfusion hs) fun _ _ _ _ _ _ hI hs => hs.shownBombs hI
    ext id : 1
    rw [Std.ExtTreeMap.getElem?_map, Std.ExtTreeMap.getElem?_map, hshown hs id, Option.map_map]
    rfl
  · rw [← (run_tracked hc h hs).blocks]
    exact blocks_foldl_seen_eq rfl

end Agreement

end Server

namespace Network

open Server

variable {β γ : Type} [PositionSet γ] {p : ServerParameters} {n n' : Network β γ} {x : Supply}
  {s : Server β} {act : Activity} {out : List Sending} {i : Slot}
  {tr : List (Machine.Step (Network β γ) Activity Sending)}
  {t : Machine.Step (Network β γ) Activity Sending}
  {later : List (Machine.Step (Network β γ) Activity Sending)}

/-- What the client of a slot will be when it has handled all it has been sent. -/
def drained (n : Network β γ) (i : Slot) : Option (Client γ) :=
  (n.peers i).mailbox.drained Client.handleServerMessage

/-- The step sends the client of the slot the greeting of a lobby or the end of a game. -/
def informs (i : Slot) (t : Machine.Step (Network β γ) Activity Sending) : Bool :=
  (sentTo i t.out).any fun msg =>
    msg.shape = .ended || (msg.shape = .hello && !t.post.server.engine.gameplayStarted)

/-- The step closes the connection of the slot, or greets it again during a game. -/
def disturbs (i : Slot) (t : Machine.Step (Network β γ) Activity Sending) : Bool :=
  (t.post.server.fd i).isNone || (t.post.server.engine.gameplayStarted &&
    (sentTo i t.out).any fun msg => msg.shape = .hello)

/-- Whether a client that will not have failed has been informed, and not been disturbed since. -/
def informed (i : Slot) (tr : List (Machine.Step (Network β γ) Activity Sending)) : Bool :=
  tr.foldl (fun told t =>
    (informs i t && (t.post.drained i).isSome) || (told && !disturbs i t)) false

omit [PositionSet γ] in
theorem not_informs_of_nil (h : t.out = []) : informs i t = false := by
  simp [informs, h]

theorem informed_concat : informed i (tr ++ [t]) =
    ((informs i t && (t.post.drained i).isSome) || (informed i tr && !disturbs i t)) := by
  simp [informed]

theorem informed_of_nil (h : t.out = []) (hi : informed i (tr ++ [t]) = true) :
    informed i tr = true := by
  rw [informed_concat, not_informs_of_nil h, Bool.false_and, Bool.false_or,
    Bool.and_eq_true] at hi
  exact hi.1

theorem informed_of_calm (hi : informs i t = true) (hlive : (t.post.drained i).isSome)
    (hcalm : ∀ u ∈ later, disturbs i u = false) : informed i (tr ++ t :: later) = true := by
  induction later using List.reverseRecOn with
  | nil =>
    rw [informed_concat, hi, hlive]
    rfl
  | append_singleton later u ih =>
    have hcalm' := fun v hv => hcalm v (List.mem_append_left _ hv)
    rw [← List.cons_append, ← List.append_assoc, informed_concat, ih hcalm', hcalm u (by simp),
      Bool.not_false, Bool.and_true, Bool.or_true]

theorem exists_of_informed (h : informed i tr = true) : ∃ earlier t later,
    tr = earlier ++ t :: later ∧ informs i t = true ∧ (t.post.drained i).isSome ∧
      ∀ u ∈ later, disturbs i u = false := by
  induction tr using List.reverseRecOn with
  | nil => cases h
  | append_singleton tr u ih =>
    rw [informed_concat, Bool.or_eq_true, Bool.and_eq_true, Bool.and_eq_true,
      Bool.not_eq_true'] at h
    rcases h with ⟨hi, hlive⟩ | ⟨h, hcalm⟩
    · exact ⟨tr, u, [], rfl, hi, hlive, by simp⟩
    · obtain ⟨earlier, t, later, rfl, hi, hlive, hlater⟩ := ih h
      refine ⟨earlier, t, later ++ [u], by simp, hi, hlive, fun v hv => ?_⟩
      rcases List.mem_append.mp hv with hv | hv
      · exact hlater v hv
      · rw [List.mem_singleton.mp hv, hcalm]

omit [PositionSet γ] in
theorem lobby_of_not_disturbs
    (hgreet : sentTo i t.out = t.post.server.engine.greeting) (h : disturbs i t = false) :
    t.post.server.engine.gameplayStarted = false := by
  rw [disturbs, Bool.or_eq_false_iff, hgreet] at h
  simpa [GameEngine.greeting, GameEngine.helloMsg, ServerMessage.shape] using h.2

/-- The client of the slot is connected and follows the server, as far as it has been told. -/
structure InStep (n : Network β γ) (i : Slot) : Prop where
  client : i ≠ 0
  opened : (n.server.fd i).isSome
  follows : ∃ c, n.drained i = some c ∧ Follows n.server c

theorem InStep.acceptedSlot_ne (h : InStep n i) : n.server.acceptedSlot ≠ some i := by
  intro ha
  have hfree := (ServerTcpHandler.freeSlot_eq_some (acceptedSlot_eq_some ha).2.2).2
  have hfd := h.opened
  rw [Server.fd, hfree] at hfd
  cases hfd

theorem drained_served (ha : n.server.acceptedSlot ≠ some i) :
    drained ⟨s, n.served x out⟩ i =
      (n.drained i).bind fun c => (c.handleServerMessages (sentTo i out)).toOption := by
  have hmailbox : (n.served x out i).mailbox = (n.peers i).mailbox.deliver (sentTo i out) := by
    simp only [served, if_neg ha]
    split <;> rfl
  rw [drained, hmailbox]
  exact Mailbox.drained_deliver

theorem drained_served_new (ha : n.server.acceptedSlot = some i) :
    drained ⟨s, n.served x out⟩ i =
      ((Client.init : Client γ).handleServerMessages (sentTo i out)).toOption := by
  have hmailbox : (n.served x out i).mailbox =
      (⟨some .init, []⟩ : Mailbox (Client γ) ServerMessage).deliver (sentTo i out) := by
    simp only [served, if_pos ha]
    rfl
  rw [drained, hmailbox, Mailbox.drained_deliver]
  rfl

theorem exists_handled {c' : Client γ} (h : drained ⟨s, n.served x out⟩ i = some c') :
    ∃ c : Client γ, c.handleServerMessages (sentTo i out) = .ok c' := by
  by_cases ha : n.server.acceptedSlot = some i
  · rw [drained_served_new ha] at h
    exact ⟨_, Mailbox.ok_of_toOption h⟩
  · rw [drained_served ha] at h
    obtain ⟨c, -, hc⟩ := Option.bind_eq_some_iff.mp h
    exact ⟨c, Mailbox.ok_of_toOption hc⟩

theorem InStep.update {j : Slot} {peer : Peer γ} (h : InStep n i)
    (hpeer : peer.mailbox.drained Client.handleServerMessage = n.drained j) :
    InStep ⟨n.server, Function.update n.peers j peer⟩ i where
  client := h.client
  opened := h.opened
  follows := by
    obtain ⟨c, hc, hf⟩ := h.follows
    refine ⟨c, ?_, hf⟩
    by_cases hij : i = j
    · subst hij
      simp only [drained, Function.update_self]
      exact hpeer.trans hc
    · simp only [drained, Function.update_of_ne hij]
      exact hc

variable [PositionSet β]

theorem sentTo_of_informs (hw : Wf p n.server) (hb : Below p n.server)
    (hs : Server.Stepped (n.env x) n.server s out)
    (hi : informs i ⟨n, .serve x, out, ⟨s, n.served x out⟩⟩ = true) :
    i ≠ 0 ∧ (s.fd i).isSome ∧ s.engine.gameplayStarted = false ∧
      (sentTo i out = s.engine.greeting ∨
        s.engine.players = ∅ ∧ ∃ scores, sentTo i out = [.gameEnded scores]) := by
  simp only [informs, Bool.and_eq_true, List.any_eq_true, Bool.or_eq_true, decide_eq_true_eq,
    Bool.not_eq_true'] at hi
  obtain ⟨msg, hmsg, hshape⟩ := hi
  cases ha : n.server.acceptedSlot with
  | some j =>
    rcases hs.sentTo_of_accepted (i := i) ha with hnil | ⟨rfl, hfd, hgreet⟩
    · rw [hnil] at hmsg
      cases hmsg
    · rw [hgreet] at hmsg
      have hl := (hshape.resolve_left (shape_greeting_ne_ended hmsg)).2
      exact ⟨by decide, hfd, hl, .inl hgreet⟩
  | none =>
    obtain ⟨y, hy, hreach⟩ := List.mem_flatMap.mp hmsg
    obtain ⟨msg', rfl, hhello⟩ := hs.sends_all ha y hy
    rw [Sending.reaching] at hreach
    split at hreach
    · rename_i hopen
      obtain rfl := List.mem_singleton.mp hreach
      obtain ⟨hi, hfd⟩ := ServerTcpHandler.mem_openSlots.mp hopen
      rw [hs.sentTo_eq ha hi hfd] at hmsg ⊢
      have hended : msg.shape = .ended := hshape.resolve_right fun hn => hhello hn.1
      have hplayed : Played (n.env x) n.server s (broadcasts out) := hw.played hb.room hs
      generalize hserver : n.server = s₀ at hplayed hfd
      generalize broadcasts out = msgs at hplayed hmsg
      cases hplayed with
      | ended hg hlast => exact ⟨hi, hfd, rfl, .inr ⟨rfl, _, rfl⟩⟩
      | started hl hn hg =>
        simp only [List.mem_cons, List.not_mem_nil, or_false] at hmsg
        rcases hmsg with rfl | rfl <;> cases hended
      | joined hl hlt hn =>
        obtain rfl := List.mem_singleton.mp hmsg
        cases hended
      | sent hg hr hcheck hturn =>
        obtain rfl := List.mem_singleton.mp hmsg
        cases hended
      | _ => cases hmsg
    · cases hreach

theorem inStep_of_informs (hw : Wf p n.server) (hb : Below p n.server)
    (hs : Server.Stepped (n.env x) n.server s out)
    (hi : informs i ⟨n, .serve x, out, ⟨s, n.served x out⟩⟩ = true)
    (hlive : (drained ⟨s, n.served x out⟩ i).isSome) : InStep ⟨s, n.served x out⟩ i := by
  obtain ⟨hclient, hfd, hl, hsent⟩ := sentTo_of_informs hw hb hs hi
  obtain ⟨c', hc'⟩ := Option.isSome_iff_exists.mp hlive
  obtain ⟨c, hc⟩ := exists_handled hc'
  refine ⟨hclient, hfd, c', hc', ?_⟩
  rcases hsent with hgreet | ⟨hempty, scores, hended⟩
  · rw [hgreet] at hc
    obtain ⟨c'', hc'', hf⟩ := follows_greeting (c := c) hl
    obtain rfl := Except.ok.inj (hc''.symm.trans hc)
    exact hf
  · rw [hended] at hc
    obtain rfl := Except.ok.inj hc
    exact ⟨by rw [hl]; rfl, hempty.symm, fun hs => Bool.noConfusion (hl.symm.trans hs)⟩

/-- A client that is in step stays so, unless it is disturbed. -/
theorem InStep.serve (h : InStep n i) (hw : Wf p n.server) (hb : Below p n.server)
    (hd : Destroyable s) (hs : Server.Stepped (n.env x) n.server s out)
    (hnot : disturbs i ⟨n, .serve x, out, ⟨s, n.served x out⟩⟩ = false) :
    InStep ⟨s, n.served x out⟩ i := by
  have hopen := hnot
  simp only [disturbs, Bool.or_eq_false_iff, Option.isNone_eq_false_iff] at hopen
  obtain ⟨c, hc, hf⟩ := h.follows
  refine ⟨h.client, hopen.1, ?_⟩
  rw [drained_served h.acceptedSlot_ne, hc, Option.bind_some]
  cases ha : n.server.acceptedSlot with
  | some j =>
    rcases hs.sentTo_of_accepted (i := i) ha with hnil | ⟨rfl, hfd, hgreet⟩
    · rw [hnil]
      obtain ⟨handler, rfl⟩ := hs.accepted ha
      refine ⟨c, rfl, hf.keep rfl rfl fun _ => ?_⟩
      simp only [turnsSent, GameEngine.withHandler, (acceptedSlot_eq_some ha).1]
      rfl
    · have hl : s.engine.gameplayStarted = false := lobby_of_not_disturbs hgreet hnot
      obtain ⟨c', hc', hf'⟩ := follows_greeting (c := c) hl
      exact ⟨c', by rw [hgreet, hc']; rfl, hf'⟩
  | none =>
    obtain ⟨c', hc', hf'⟩ := (hw.played hb.room hs).follows hd hf
    rw [hs.sentTo_eq ha h.client h.opened]
    exact ⟨c', by rw [hc']; rfl, hf'⟩

/-- A client that has been informed is in step, whatever is still on its way to it. -/
theorem run_inStep (hc : 0 < p.playersCount) (h : (machine β γ p).Run tr n)
    (hi : informed i tr = true) : InStep n i := by
  refine h.invariant (I := fun tr n => informed i tr = true → InStep n i) ?_ ?_ hi
  · simp [informed]
  · intro tr n act n' out hr hI hs hi
    obtain ⟨tr', hserver, -⟩ := run_server hr
    obtain ⟨hw, hb⟩ := run_wf_below hc hserver
    cases step_stepped hs with
    | serve hstep =>
      have hs' := Server.step_stepped hstep
      rw [informed_concat, Bool.or_eq_true, Bool.and_eq_true, Bool.and_eq_true,
        Bool.not_eq_true'] at hi
      rcases hi with ⟨hi, hlive⟩ | ⟨hi, hnot⟩
      · exact inStep_of_informs hw hb hs' hi hlive
      · exact (hI hi).serve hw hb (run_destroyable hc (.snoc hserver hstep)) hs' hnot
    | handle => exact (hI (informed_of_nil rfl hi)).update Mailbox.drained_handle
    | command =>
      refine (hI (informed_of_nil rfl hi)).update ?_
      rw [Peer.mailbox_handleGuiMessage]
      rfl
    | send =>
      refine (hI (informed_of_nil rfl hi)).update ?_
      rw [Peer.mailbox_sendServerMessage]
      rfl

section Agreement

variable {n : Network (StdSet Position) (StdSet Position)}
  {tr later : List (Machine.Step (Network (StdSet Position) (StdSet Position)) Activity Sending)}
  {t : Machine.Step (Network (StdSet Position) (StdSet Position)) Activity Sending}

def bombing : List Activity :=
  connects ++ presses ++ serve 30 [1] 2 ++ [.handle 1, .handle 1, .handle 1] ++ presses ++
    serve 29 [1] 1 ++ [.handle 1]

end Agreement

end Network

end Bomberrobots
