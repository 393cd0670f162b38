import Bomberrobots.Client.Layout
import Bomberrobots.Server.Fits
import Bomberrobots.System.Replica

/-! # Replicas that read bytes

What a client is sent over a connection is a stream of bytes, and its reads cut it anywhere.
A client that reads the stream from its start is the replica that handles the messages, as
long as the messages survive the cuts.
-/

namespace Bomberrobots

theorem Sending.msg_of_mem_reaching {i : Slot} {x : Sending} {msg : ServerMessage}
    (h : msg ∈ x.reaching i) : x.msg = msg := by
  cases x with
  | one j msg' =>
    rw [reaching] at h
    split at h
    · exact (List.mem_singleton.mp h).symm
    · cases h
  | all slots msg' =>
    rw [reaching] at h
    split at h
    · exact (List.mem_singleton.mp h).symm
    · cases h

namespace Network

open Server

variable {β γ : Type} {p : ServerParameters} {n : Network β γ} {i : Slot}
  {msg : ServerMessage} {tr : List (Machine.Step (Network β γ) Activity Sending)}
  {t : Machine.Step (Network β γ) Activity Sending}

def arrives (i : Slot) (t : Machine.Step (Network β γ) Activity Sending) : Bool :=
  match t.input with
  | .serve _ => t.pre.server.acceptedSlot = some i
  | _ => false

/-- What the slot has been sent since the last client connected there. -/
def told (i : Slot) (tr : List (Machine.Step (Network β γ) Activity Sending)) :
    List ServerMessage :=
  tr.foldl (fun msgs t => (if arrives i t then [] else msgs) ++ sentTo i t.out) []

theorem told_concat :
    told i (tr ++ [t]) = (if arrives i t then [] else told i tr) ++ sentTo i t.out := by
  simp [told]

theorem told_of_nil (h : t.out = []) (hc : arrives i t = false) :
    told i (tr ++ [t]) = told i tr := by
  rw [told_concat, h, hc]
  simp

theorem exists_sending (h : msg ∈ told i tr) : ∃ x ∈ Machine.log tr, x.msg = msg := by
  induction tr using List.reverseRecOn with
  | nil => cases h
  | append_singleton tr t ih =>
    rw [told_concat, List.mem_append] at h
    rw [Machine.log_append]
    rcases h with h | h
    · split at h
      · cases h
      · obtain ⟨x, hx, hmsg⟩ := ih h
        exact ⟨x, List.mem_append_left _ hx, hmsg⟩
    · obtain ⟨x, hx, hreach⟩ := List.mem_flatMap.mp h
      exact ⟨x, List.mem_append_right _ (by simpa using hx), Sending.msg_of_mem_reaching hreach⟩

variable [PositionSet γ]

theorem drained_update {j : Slot} {peer : Peer γ}
    (hpeer : peer.mailbox.drained Client.handleServerMessage = n.drained j) :
    drained ⟨n.server, Function.update n.peers j peer⟩ i = n.drained i := by
  by_cases hij : i = j
  · subst hij
    simp only [drained, Function.update_self]
    exact hpeer
  · simp only [drained, Function.update_of_ne hij]

variable [PositionSet β]

/-- When the client of a slot has caught up, it has handled what the slot has been sent. -/
theorem run_drained (h : (machine β γ p).Run tr n) :
    n.drained i = ((Client.init : Client γ).handleServerMessages (told i tr)).toOption := by
  refine h.invariant (I := fun tr n =>
    n.drained i = ((Client.init : Client γ).handleServerMessages (told i tr)).toOption) rfl ?_
  rintro tr n act n' out - hI hs
  cases step_stepped hs with
  | @serve x s out hstep =>
    rw [told_concat]
    by_cases ha : n.server.acceptedSlot = some i
    · have hc : arrives i ⟨n, .serve x, out, ⟨s, n.served x out⟩⟩ = true := decide_eq_true ha
      rw [hc, if_pos rfl, List.nil_append]
      exact drained_served_new ha
    · have hc : arrives i ⟨n, .serve x, out, ⟨s, n.served x out⟩⟩ = false := decide_eq_false ha
      rw [drained_served ha, hI, hc]
      exact Mailbox.toOption_foldlM_append.symm
  | handle =>
    rw [told_of_nil rfl rfl, ← hI]
    exact drained_update Mailbox.drained_handle
  | command =>
    rw [told_of_nil rfl rfl, ← hI]
    exact drained_update (by rw [Peer.mailbox_handleGuiMessage]; rfl)
  | send =>
    rw [told_of_nil rfl rfl, ← hI]
    exact drained_update (by rw [Peer.mailbox_sendServerMessage]; rfl)

def Addressed : Activity → Prop
  | .serve x => x.accepted.address.length ≤ 255
  | _ => True

instance : DecidablePred Addressed
  | .serve x => inferInstanceAs (Decidable (x.accepted.address.length ≤ 255))
  | .handle _ => .isTrue trivial
  | .command _ _ => .isTrue trivial
  | .send _ => .isTrue trivial

theorem run_told_fits (hc : 0 < p.playersCount) (hname : p.serverName.length ≤ 255)
    (h : (machine β γ p).Run tr n) (haddr : ∀ t ∈ tr, Addressed t.input) :
    ∀ msg ∈ told i tr, msg.Fits := by
  obtain ⟨tr', hserver, hlog, haddr'⟩ : ∃ tr', (Server.machine β p).Run tr' n.server ∧
      Machine.log tr' = Machine.log tr ∧ ∀ t ∈ tr', t.input.accepted.address.length ≤ 255 := by
    refine h.invariant_of (I := fun tr n => ∃ tr', (Server.machine β p).Run tr' n.server ∧
      Machine.log tr' = Machine.log tr ∧ ∀ t ∈ tr', t.input.accepted.address.length ≤ 255)
      (C := fun _ act => Addressed act) haddr ⟨[], .nil, rfl, by simp⟩ ?_
    rintro tr n act n' out - ⟨tr', hr, hlog, haddr'⟩ hC hs
    cases step_stepped hs with
    | @serve x s out hstep =>
      refine ⟨_, .snoc hr hstep, by simp [hlog], fun t ht => ?_⟩
      rcases List.mem_append.mp ht with ht | ht
      · exact haddr' t ht
      · obtain rfl := List.mem_singleton.mp ht
        exact hC
    | handle => exact ⟨tr', hr, by simp [hlog], haddr'⟩
    | command => exact ⟨tr', hr, by simp [hlog], haddr'⟩
    | send => exact ⟨tr', hr, by simp [hlog], haddr'⟩
  intro msg hm
  obtain ⟨x, hx, rfl⟩ := exists_sending hm
  exact log_fits hc hname hserver haddr' x (hlog ▸ hx)

section Agreement

variable {n : Network (StdSet Position) (StdSet Position)} {socket : Socket} {rest : Bytes}
  {tr later : List (Machine.Step (Network (StdSet Position) (StdSet Position)) Activity Sending)}
  {t : Machine.Step (Network (StdSet Position) (StdSet Position)) Activity Sending}

/-- The client knows what the server has to tell. -/
structure Agrees (s : Server (StdSet Position)) (c : Client (StdSet Position)) : Prop where
  status : c.isLobbyStatus = !s.engine.gameplayStarted
  players : c.lobbyInfo.players = s.engine.players
  bombs : s.point = .broadcast → (c.gameInfo.bombs.map fun _ bomb => bomb.position) =
    (s.engine.bombs.map fun _ bomb => bomb.position)
  blocks : s.point = .broadcast → c.gameInfo.blocks = s.engine.blocksPositions

/--
A client that is informed by a step, will not have failed by then and is not disturbed later
agrees with the server when it has read the bytes of all it has been sent since it connected,
wherever its reads end without doing harm to a message.
-/
theorem run_reads (hc : 0 < p.playersCount) (hname : p.serverName.length ≤ 255)
    (h : (machine (StdSet Position) (StdSet Position) p).Run (tr ++ t :: later) n)
    (haddr : ∀ u ∈ tr ++ t :: later, Addressed u.input) (hi : informs i t = true)
    (hlive : (t.post.drained i).isSome) (hcalm : ∀ u ∈ later, disturbs i u = false)
    (hs : socket.Segmented)
    (hstream : socket.stream =
      (told i (tr ++ t :: later)).flatMap ServerMessage.toBytes ++ rest)
    (hends : layout.Survives (Socket.messagePieces (told i (tr ++ t :: later)))
      {n | socket.Ends (n + 1)}) :
    ∃ c, Reading.Yields Socket.source (Reading.times Socket.handleServerMessage
        (told i (tr ++ t :: later)).length Client.init) socket c rest ∧
      Agrees n.server c := by
  obtain ⟨c, hdrained, hf⟩ := (run_inStep hc h (informed_of_calm hi hlive hcalm)).follows
  rw [run_drained h] at hdrained
  have hread := Mailbox.ok_of_toOption hdrained
  refine ⟨c, Socket.yields_messages (run_told_fits hc hname h haddr) hread hs hstream hends, ?_⟩
  obtain ⟨tr', hserver, -⟩ := run_server h
  exact ⟨hf.status, hf.players, fun hp => (hf.bombs_blocks hserver hp).1,
    fun hp => (hf.bombs_blocks hserver hp).2⟩

def bombingMessages : List ServerMessage :=
  [.hello [] 1 3 3 3 1 2, .acceptedPlayer 0 ⟨[], []⟩,
    .gameStarted (Std.ExtTreeMap.insert ∅ 0 ⟨[], []⟩), .turn ⟨0, [.playerMoved 0 ⟨1, 0⟩]⟩,
    .turn ⟨1, [.bombPlaced 0 ⟨1, 0⟩]⟩]

def bombingReads : Socket where
  buf := []
  incoming := [[0, 0, 1, 0, 3, 0, 3, 0, 3, 0, 1, 0, 2, 1, 0, 0, 0, 2, 0, 0],
    [0, 1, 0, 0, 0, 3, 0, 0, 0, 0, 0, 1, 2, 0, 0, 1, 0, 0],
    [3, 0, 1, 0, 0, 0, 1, 0, 0, 0, 0, 0, 0, 1, 0, 0]]
  uninitialised := fun _ => 0

theorem survives_bombingReads : layout.Survives (Socket.messagePieces bombingMessages)
    {n | bombingReads.Ends (n + 1)} := by
  have hplayers : (Std.ExtTreeMap.insert (∅ : StdMap PlayerId Player) 0 ⟨[], []⟩).toList =
      [(0, ⟨[], []⟩)] := by decide
  simp only [bombingMessages, Socket.messagePieces, ServerMessage.pieces, sizedPieces, hplayers,
    Event.pieces, Player.pieces, Position.pieces, List.flatMap_cons, List.flatMap_nil,
    List.cons_append, List.nil_append, List.append_nil, Pieces.Survives, layout, Piece.survives,
    Piece.toBytes, Pieces.mem_beyond, Set.mem_ofPred_eq, List.length_nil, Nat.not_lt_zero,
    false_implies, implies_true, true_or]
  decide

theorem run_reads_bombing : ∃ tr n c,
    (machine (StdSet Position) (StdSet Position) solo).Run tr n ∧
    n.server.engine.bombs.size = 1 ∧ Reading.Yields Socket.source
      (Reading.times Socket.handleServerMessage 5 Client.init) bombingReads c [] ∧
    Agrees n.server c := by
  have hcheck : (machine (StdSet Position) (StdSet Position) solo).check bombing (fun tr n =>
      informed 1 tr && (tr.all (fun t => Addressed t.input) &&
        (told 1 tr = bombingMessages && n.server.engine.bombs.size = 1))) = true := by
    decide +kernel
  obtain ⟨tr, n, h, htest⟩ := Machine.run_of_check hcheck
  simp only [Bool.and_eq_true, List.all_eq_true, decide_eq_true_eq] at htest
  obtain ⟨hi, haddr, htold, hbomb⟩ := htest
  obtain ⟨tr, t, later, rfl, hi, hlive, hcalm⟩ := exists_of_informed hi
  have hs : bombingReads.Segmented := by simp [Socket.Segmented, bombingReads]
  have hstream : bombingReads.stream =
      (told 1 (tr ++ t :: later)).flatMap ServerMessage.toBytes ++ [] := by
    rw [htold]
    decide
  have hread := run_reads (by decide) (by decide) h haddr hi hlive hcalm hs hstream
    (htold ▸ survives_bombingReads)
  rw [htold] at hread
  obtain ⟨c, hyields, hagrees⟩ := hread
  exact ⟨_, n, c, h, hbomb, hyields, hagrees⟩

end Agreement

end Network

end Bomberrobots
