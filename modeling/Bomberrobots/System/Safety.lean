import Bomberrobots.Server.Authority
import Bomberrobots.Server.Grammar
import Bomberrobots.System.Network

/-! # Clients that lag behind

A server dies of an action that a player sends to its lobby. A client goes by the last
message it has handled, so it may send such an action. It does not, as long as nothing of
a game is still on its way when the game ends.
-/

namespace Bomberrobots

open Framing GameEngine

namespace ClientMessage

@[simp] theorem isJoin_asReceived {msg : ClientMessage} : msg.asReceived.isJoin = msg.isJoin := by
  cases msg <;> rfl

theorem fits_of_not_isJoin {msg : ClientMessage} (h : msg.isJoin = false) : msg.Fits := by
  cases msg with
  | join name => cases h
  | _ => trivial

end ClientMessage

/-- A client sends a Join as long as it takes itself to be in the lobby, and else an action. -/
theorem exists_message_of_sentFor {isLobbyStatus : Bool} {name bytes : Bytes}
    {msgCode direction : UInt8} (h : sentFor isLobbyStatus name msgCode direction = some bytes) :
    ∃ msg : ClientMessage, bytes = msg.toBytes ∧ msg.isJoin = isLobbyStatus ∧
      (name.length ≤ 255 → msg.Fits) := by
  have hjoin : ∃ msg : ClientMessage, joinMessage name = msg.toBytes ∧ msg.isJoin = true ∧
      (name.length ≤ 255 → msg.Fits) := ⟨.join name, rfl, rfl, fun h => h⟩
  unfold sentFor at h
  cases isLobbyStatus with
  | true =>
    simp only [if_true] at h
    split_ifs at h
    all_goals
      obtain rfl := Option.some.inj h
      exact hjoin
  | false =>
    simp only [Bool.false_eq_true, if_false] at h
    split_ifs at h
    · obtain rfl := Option.some.inj h
      exact ⟨.placeBomb, rfl, rfl, fun _ => trivial⟩
    · obtain rfl := Option.some.inj h
      exact ⟨.placeBlock, rfl, rfl, fun _ => trivial⟩
    · obtain rfl := Option.some.inj h
      exact ⟨.move _, rfl, rfl, fun _ => trivial⟩

namespace Peer

variable {γ : Type} {peer : Peer γ} {msgs : List ClientMessage} {registered : Prop}

/-- The client sends Joins, if it still sends anything. -/
def Joining (peer : Peer γ) : Prop :=
  ∀ c, peer.mailbox.process = some c → c.isLobbyStatus = true

/-- These messages of the client are on their way. -/
structure Sends (peer : Peer γ) (msgs : List ClientMessage) : Prop where
  stream : peer.stream = msgs.flatMap ClientMessage.toBytes
  fits : ∀ msg ∈ msgs, msg.Fits
  name : peer.name.length ≤ 255

/-- What is on its way between a server in its lobby and a client, which may be registered. -/
structure Waiting (peer : Peer γ) (msgs : List ClientMessage) (registered : Prop) : Prop where
  notStarted : ∀ players, .gameStarted players ∉ peer.mailbox.queue
  ordered : msgs.Pairwise fun msg msg' => msg.isJoin = true → msg'.isJoin = true
  joining : (∃ msg ∈ msgs, msg.isJoin = true) ∨ registered → peer.Joining
  joins : registered → ∀ msg ∈ msgs, msg.isJoin = true

/-- Nothing of a game is on its way, except actions. -/
def Ready (peer : Peer γ) : Prop :=
  (∀ players, .gameStarted players ∉ peer.mailbox.queue) ∧
    ∃ actions : List ClientMessage, (∀ msg ∈ actions, msg.isJoin = false) ∧
      peer.stream = actions.flatMap ClientMessage.toBytes

theorem sends_new [PositionSet γ] {name : Bytes} (h : name.length ≤ 255) :
    (new name : Peer γ).Sends [] := ⟨rfl, by simp, h⟩

theorem Sends.deliver {sent : List ServerMessage} (h : peer.Sends msgs) :
    (peer.deliver sent).Sends msgs := ⟨h.stream, h.fits, h.name⟩

theorem Waiting.deliver {sent : List ServerMessage} (h : peer.Waiting msgs registered)
    (hsent : ∀ players, .gameStarted players ∉ sent) :
    (peer.deliver sent).Waiting msgs registered :=
  { h with notStarted := fun players hm =>
      (List.mem_append.mp hm).elim (h.notStarted players) (hsent players) }

theorem Waiting.read {msg : ClientMessage} {before after : List ClientMessage} {n : ℕ}
    (h : peer.Waiting (before ++ msg :: after) registered) :
    (peer.read n).Waiting after (registered ∨ msg.isJoin = true) := by
  have hsub : ∀ {m}, m ∈ after → m ∈ before ++ msg :: after := fun hm =>
    List.mem_append_right _ (List.mem_cons_of_mem _ hm)
  obtain ⟨-, hordered, -⟩ := List.pairwise_append.mp h.ordered
  obtain ⟨hafter, hordered⟩ := List.pairwise_cons.mp hordered
  constructor
  · exact h.notStarted
  · exact hordered
  · rintro (⟨m, hm, hj⟩ | hr | hj)
    · exact h.joining (.inl ⟨m, hsub hm, hj⟩)
    · exact h.joining (.inr hr)
    · exact h.joining (.inl ⟨msg, by simp, hj⟩)
  · rintro (hr | hj) m hm
    · exact h.joins hr m (hsub hm)
    · exact hafter m hm hj

theorem Waiting.mono {registered' : Prop} (h : peer.Waiting msgs registered)
    (hr : registered' → registered) : peer.Waiting msgs registered' :=
  ⟨h.notStarted, h.ordered, fun hj => h.joining (hj.imp_right hr), fun hr' => h.joins (hr hr')⟩

theorem Ready.waiting (h : peer.Ready) (hname : peer.name.length ≤ 255) :
    ∃ msgs, peer.Sends msgs ∧ peer.Waiting msgs False := by
  obtain ⟨hstart, actions, hactions, hstream⟩ := h
  refine ⟨actions, ⟨hstream, fun msg hm => ClientMessage.fits_of_not_isJoin (hactions msg hm),
    hname⟩, hstart, ?_, ?_, False.elim⟩
  · refine List.pairwise_of_forall_mem_list fun msg hm msg' _ hj => ?_
    exact Bool.noConfusion ((hactions msg hm).symm.trans hj)
  · rintro (⟨msg, hm, hj⟩ | hfalse)
    · exact Bool.noConfusion ((hactions msg hm).symm.trans hj)
    · exact hfalse.elim

theorem Sends.read {msg : ClientMessage} {k : ℕ} (h : peer.Sends msgs)
    (hr : receivedMessage (some ((peer.outbox.take k).take 256)) = some msg) :
    ∃ before msg' after, msgs = before ++ msg' :: after ∧ msg.isJoin = msg'.isJoin ∧
      (peer.read (min k 256)).Sends after := by
  have htake : (peer.outbox.take k).take 256 = peer.outbox.take (min k 256) := by
    rw [List.take_take, Nat.min_comm]
  rw [htake] at hr
  have hlen : (peer.outbox.take (min k 256)).length ≤ 256 :=
    (List.length_take_le ..).trans (Nat.min_le_right ..)
  have hne : peer.outbox.take (min k 256) ≠ [] := by
    intro hnil
    rw [hnil] at hr
    cases hr
  rw [Server.receivedMessage_eq hne hlen, readMessages_eq] at hr
  have hw : peer.outbox.take (min k 256) ++ (peer.read (min k 256)).stream =
      msgs.flatMap ClientMessage.toBytes := by
    rw [← h.stream]
    simp only [Peer.stream, Peer.read, ← List.append_assoc, List.take_append_drop]
  obtain ⟨before, msg', after, rfl, rfl, hrest⟩ :=
    reads_readMessage.exists_of_parseLast h.fits hw le_rfl hr
  refine ⟨before, msg', after, rfl, ClientMessage.isJoin_asReceived, hrest, ?_, h.name⟩
  exact fun m hm => h.fits m (List.mem_append_right _ (List.mem_cons_of_mem _ hm))

theorem Sends.sendServerMessage (h : peer.Sends msgs) : peer.sendServerMessage.Sends msgs := by
  unfold Peer.sendServerMessage
  split
  · exact h
  · refine ⟨?_, h.fits, h.name⟩
    rw [← h.stream]
    exact List.append_nil _

theorem Waiting.sendServerMessage (h : peer.Waiting msgs registered) :
    peer.sendServerMessage.Waiting msgs registered := by
  unfold Peer.sendServerMessage
  split
  · exact h
  · exact ⟨h.notStarted, h.ordered, h.joining, h.joins⟩

theorem handleGuiMessage_sends (peer : Peer γ) (datagram : Bytes) :
    (peer.handleGuiMessage datagram).name = peer.name ∧
    ∃ new : List ClientMessage, (peer.handleGuiMessage datagram).stream =
        peer.stream ++ new.flatMap ClientMessage.toBytes ∧
      (∀ msg ∈ new, peer.name.length ≤ 255 → msg.Fits) ∧
      ∀ msg ∈ new, ∃ c, peer.mailbox.process = some c ∧ msg.isJoin = c.isLobbyStatus := by
  unfold Peer.handleGuiMessage
  split
  · exact ⟨rfl, [], by simp⟩
  · rename_i c hc
    split
    · rename_i hpending
      rw [List.isEmpty_iff] at hpending
      refine ⟨rfl, ?_⟩
      cases hsent : ((Bomberrobots.handleGuiMessage c.isLobbyStatus peer.name datagram).run
          peer.input).1 with
      | none => exact ⟨[], by simp [stream, hsent, hpending]⟩
      | some bytes =>
        have hsentFor := hsent
        rw [sent_handleGuiMessage] at hsentFor
        obtain ⟨msg, rfl, hj, hfit⟩ := exists_message_of_sentFor hsentFor
        refine ⟨[msg], ?_, ?_, ?_⟩
        · simp [stream, hsent, hpending]
        · simpa using hfit
        · simp [hc, hj]
    · exact ⟨rfl, [], by simp⟩

theorem Sends.handleGuiMessage {datagram : Bytes} (h : peer.Sends msgs) :
    ∃ msgs', (peer.handleGuiMessage datagram).Sends msgs' ∧
      ∀ registered, peer.Waiting msgs registered →
        (peer.handleGuiMessage datagram).Waiting msgs' registered := by
  obtain ⟨hname, new, hstream, hfits, hnew⟩ := peer.handleGuiMessage_sends datagram
  refine ⟨msgs ++ new, ⟨?_, ?_, hname ▸ h.name⟩, fun registered hw => ?_⟩
  · rw [hstream, h.stream, List.flatMap_append]
  · intro msg hm
    rcases List.mem_append.mp hm with hm | hm
    · exact h.fits msg hm
    · exact hfits msg hm h.name
  · -- a client that takes itself to be in the lobby sends a Join
    have hjoin : peer.Joining → ∀ msg ∈ new, msg.isJoin = true := by
      intro hjoining msg hm
      obtain ⟨c, hc, hj⟩ := hnew msg hm
      exact hj.trans (hjoining c hc)
    have hjoining : ∀ msg ∈ new, msg.isJoin = true → peer.Joining := by
      intro msg hm hj c hc
      obtain ⟨c', hc', hj'⟩ := hnew msg hm
      obtain rfl := Option.some.inj (hc'.symm.trans hc)
      exact hj'.symm.trans hj
    constructor
    · rw [mailbox_handleGuiMessage]
      exact hw.notStarted
    · refine List.pairwise_append.mpr ⟨hw.ordered, ?_, ?_⟩
      · exact List.pairwise_of_forall_mem_list fun msg hm msg' hm' hj =>
          hjoin (hjoining msg hm hj) msg' hm'
      · exact fun msg hm msg' hm' hj => hjoin (hw.joining (.inl ⟨msg, hm, hj⟩)) msg' hm'
    · have hsame : peer.Joining → (peer.handleGuiMessage datagram).Joining :=
        fun h c hc => h c (mailbox_handleGuiMessage ▸ hc)
      rintro (⟨msg, hm, hj⟩ | hr)
      · rcases List.mem_append.mp hm with hm | hm
        · exact hsame (hw.joining (.inl ⟨msg, hm, hj⟩))
        · exact hsame (hjoining msg hm hj)
      · exact hsame (hw.joining (.inr hr))
    · intro hr msg hm
      rcases List.mem_append.mp hm with hm | hm
      · exact hw.joins hr msg hm
      · exact hjoin (hw.joining (.inr hr)) msg hm

variable [PositionSet γ]

theorem isLobbyStatus_handleServerMessage {c c' : Client γ} {msg : ServerMessage}
    (h : c.handleServerMessage msg = .ok c') (hm : ∀ players, msg ≠ .gameStarted players)
    (hs : c.isLobbyStatus = true) : c'.isLobbyStatus = true := by
  cases msg with
  | gameStarted players => exact absurd rfl (hm players)
  | turn info =>
    obtain ⟨gameInfo, -, h⟩ := Except.bind_eq_ok_iff.mp h
    obtain rfl := Except.pure_eq_ok.mp h
    exact hs
  | acceptedPlayer id player =>
    obtain rfl := Except.ok.inj h
    exact hs
  | _ =>
    obtain rfl := Except.ok.inj h
    rfl

theorem Sends.handleServerMessage (h : peer.Sends msgs) : peer.handleServerMessage.Sends msgs :=
  ⟨h.stream, h.fits, h.name⟩

theorem Waiting.handleServerMessage (h : peer.Waiting msgs registered) :
    peer.handleServerMessage.Waiting msgs registered := by
  obtain ⟨mailbox, name, input, pending, outbox⟩ := peer
  rcases Mailbox.handle_cases (b := mailbox) (f := Client.handleServerMessage) with
    hsame | ⟨c, msg, queue, rfl, hnext⟩
  · simpa only [Peer.handleServerMessage, hsame] using h
  · simp only [Peer.handleServerMessage, hnext]
    refine { h with notStarted := ?_, joining := ?_ }
    · exact fun players hm => h.notStarted players (List.mem_cons_of_mem _ hm)
    · intro hj c' hc'
      have hok : c.handleServerMessage msg = .ok c' := Mailbox.ok_of_toOption hc'
      refine isLobbyStatus_handleServerMessage hok ?_ (h.joining hj c rfl)
      rintro players rfl
      exact h.notStarted players List.mem_cons_self

end Peer

namespace Server

open GameEngine

variable {β : Type} [PositionSet β] {p : ServerParameters} {s s' : Server β} {env : Env}
  {out : List Sending} {i : Slot}

def EndsGame (s : Server β) : Prop :=
  s.point = .broadcast ∧ s.engine.currentTurn = s.engine.gameParams.gameLength

theorem Stepped.endsGame (h : Stepped env s s' out) (hs : s.engine.gameplayStarted = true)
    (hs' : s'.engine.gameplayStarted = false) : EndsGame s := by
  cases h with
  | openTurn _ hb =>
    obtain ⟨-, t, rfl, rfl⟩ := beginTurn_ticked hb
    exact Bool.noConfusion (hs.symm.trans hs')
  | greet hn hf he =>
    subst he
    exact Bool.noConfusion (hs.symm.trans hs')
  | handled hm hr hh =>
    cases hh with
    | start hl ha hn hg => exact Bool.noConfusion (hs.symm.trans hl)
    | _ => exact Bool.noConfusion (hs.symm.trans hs')
  | send _ ht =>
    obtain ⟨robots, random, turn, -, -, -, rfl, -, -⟩ := sendTurn_ok ht
    exact Bool.noConfusion (hs.symm.trans hs')
  | finish =>
    simp only [finishTurn] at hs'
    split at hs'
    · exact ⟨rfl, ‹_›⟩
    · exact Bool.noConfusion (hs.symm.trans hs')
  | _ => exact Bool.noConfusion (hs.symm.trans hs')

theorem Stepped.not_gameStarted (h : Stepped env s s' out)
    (hs' : s'.engine.gameplayStarted = false) (players : StdMap PlayerId Player) :
    .gameStarted players ∉ sentTo i out := by
  cases ha : s.acceptedSlot with
  | some j =>
    rw [h.sends_greeting ha]
    split
    · rw [sentTo_map_one]
      split
      · simp [greeting, helloMsg, hs']
      · simp
    · simp
  | none =>
    intro hm
    obtain ⟨x, hx, hreach⟩ := List.mem_flatMap.mp hm
    obtain ⟨msg, rfl, -⟩ := h.sends_all ha x hx
    obtain rfl : msg = .gameStarted players := by
      rw [Sending.reaching] at hreach
      split at hreach
      · exact (List.mem_singleton.mp hreach).symm
      · cases hreach
    cases h with
    | handled hm hr hh =>
      cases hh with
      | join hs ha hn => simp [ServerTcpHandler.sendMessageToAll] at hx
      | start hs ha hn hg =>
        obtain ⟨robots, blocks, random, -, -, -, -, -, rfl⟩ := startGameplay_ok hg
        exact Bool.noConfusion hs'
      | _ => cases hx
    | send hs ht =>
      obtain ⟨robots, random, turn, -, -, -, -, -, rfl⟩ := sendTurn_ok ht
      simp [ServerTcpHandler.sendMessageToAll] at hx
    | finish =>
      simp only [finishTurn] at hx
      split at hx
      · simp [endGameplay, ServerTcpHandler.sendMessageToAll] at hx
      · cases hx
    | greet hn hf he => simp [acceptedSlot, hn, hf] at ha
    | _ => cases hx

end Server

namespace Network

open Server

variable {β γ : Type} {p : ServerParameters} {n n' : Network β γ} {x : Supply} {s : Server β}
  {act : Activity} {out : List Sending} {i : Slot}
  {tr : List (Machine.Step (Network β γ) Activity Sending)}

theorem readSlot_eq_some {s : Server β} : readSlot s = some i ↔
    s.point = .client i ∧ s.engine.tcpHandler.isMessageFrom i = true := by
  unfold readSlot
  split
  · rename_i j hp
    rw [hp, Point.client.injEq]
    split
    · rw [Option.some.injEq]
      constructor
      · rintro rfl
        exact ⟨rfl, ‹_›⟩
      · exact And.left
    · rename_i hm
      constructor
      · rintro ⟨⟩
      · rintro ⟨rfl, hm'⟩
        exact absurd hm' hm
  · rename_i hp
    constructor
    · rintro ⟨⟩
    · rintro ⟨hp', -⟩
      exact absurd hp' (hp i)

theorem received_of_readSlot (hr : readSlot n.server = some i) :
    (n.env x).received = x.arrived.map fun k => ((n.peers i).outbox.take k).take 256 := by
  simp only [env, arriving, hr]

theorem exists_received (hr : readSlot n.server = some i)
    (hc : n.server.closedSlot (n.env x) ≠ some i) : ∃ k msg, x.arrived = some k ∧
      receivedMessage (some (((n.peers i).outbox.take k).take 256)) = some msg ∧
      n.server.handledMessage (n.env x) = some (i, msg) := by
  obtain ⟨hp, hm⟩ := readSlot_eq_some.mp hr
  cases hmsg : receivedMessage (n.env x).received with
  | none => exact absurd (by simp [closedSlot, hp, hm, hmsg]) hc
  | some msg =>
    have hhandled := handledMessage_eq_some_iff.mpr ⟨hp, hm, hmsg⟩
    rw [received_of_readSlot hr] at hmsg
    cases ha : x.arrived with
    | none =>
      rw [ha] at hmsg
      cases hmsg
    | some k =>
      rw [ha] at hmsg
      exact ⟨k, msg, rfl, hmsg, hhandled⟩

/-- The messages of a client are whole, and those for a server in its lobby wait in order. -/
def InOrder (s : Server β) (i : Slot) (peer : Peer γ) : Prop :=
  ∃ msgs, peer.Sends msgs ∧ (s.engine.gameplayStarted = false →
    peer.Waiting msgs (i ∈ s.engine.playerIds))

def Orderly (n : Network β γ) : Prop :=
  ∀ i, i ≠ 0 → (n.server.fd i).isSome → InOrder n.server i (n.peers i)

/--
The name of a client that connects fits, no newcomer gets the slot of a player in the lobby,
and the end of a game finds the clients ready for the next.
-/
def Timely (n : Network β γ) : Activity → Prop
  | .serve x => x.name.length ≤ 255 ∧
      (n.server.engine.gameplayStarted = false → ∀ j, n.server.acceptedSlot = some j →
        j ∉ n.server.engine.playerIds) ∧
      (EndsGame n.server → ∀ i, i ≠ 0 → (n.server.fd i).isSome → (n.peers i).Ready)
  | _ => True

/-- The client joins three times and places a bomb, while the server still has a Join to read. -/
def eager : List Activity :=
  connects ++ presses ++ presses ++ presses ++ serve 29 [1] 2 ++ serve 4 [1] 2 ++
    [.handle 1, .handle 1, .handle 1] ++ presses ++ serve 26 [] 0 ++ serve 29 [1] 2 ++ serve 4 [1] 1

/-- A client that is not ready for the next game can crash the server. -/
theorem failure_eager :
    (machine (StdSet Position) (StdSet Position) { duo with gameLength := 0 }).failure eager =
      some .outOfRange := by
  decide +kernel

theorem joinsGame_eq_true {s s' : Server β} {env : Env} (h : joinsGame i ⟨s, env, out, s'⟩ = true) :
    ∃ msg, s.handledMessage env = some (i, msg) ∧ msg.isJoin = true := by
  simp only [joinsGame, Bool.and_eq_true, Option.any_eq_true, decide_eq_true_eq] at h
  obtain ⟨-, ⟨j, msg⟩, hm, rfl, hj⟩ := h
  exact ⟨msg, hm, hj⟩

theorem Orderly.update {peer : Peer γ} (h : n.Orderly)
    (hpeer : ∀ msgs, (n.peers i).Sends msgs → ∃ msgs', peer.Sends msgs' ∧
      ∀ registered, (n.peers i).Waiting msgs registered → peer.Waiting msgs' registered) :
    Orderly ⟨n.server, Function.update n.peers i peer⟩ := by
  intro j hj hopen
  obtain ⟨msgs, hsends, hwait⟩ := h j hj hopen
  by_cases hji : j = i
  · subst hji
    obtain ⟨msgs', hsends', hwait'⟩ := hpeer msgs hsends
    refine ⟨msgs', ?_, fun hl => ?_⟩
    · simpa using hsends'
    · simpa using hwait' _ (hwait hl)
  · refine ⟨msgs, ?_, fun hl => ?_⟩
    · simpa [hji] using hsends
    · simpa [hji] using hwait hl

variable [PositionSet β]

theorem InOrder.read (h : InOrder n.server i (n.peers i))
    (hs : Server.Stepped (n.env x) n.server s out) (hr : readSlot n.server = some i)
    (hc : n.server.closedSlot (n.env x) ≠ some i) :
    InOrder s i (((n.peers i).read (min (x.arrived.getD 0) 256)).deliver (sentTo i out)) := by
  obtain ⟨msgs, hsends, hwait⟩ := h
  obtain ⟨k, msg, hk, hmsg, hhandled⟩ := exists_received hr hc
  obtain ⟨before, msg', after, rfl, hjoin, hsends'⟩ := hsends.read hmsg
  rw [hk, Option.getD_some]
  refine ⟨after, hsends'.deliver, fun hl => ?_⟩
  refine Peer.Waiting.deliver ?_ (hs.not_gameStarted hl)
  cases hstart : n.server.engine.gameplayStarted with
  | true =>
    have hp := (hs.endsGame hstart hl).1
    exact Point.noConfusion ((readSlot_eq_some.mp hr).1.symm.trans hp)
  | false =>
    refine (hwait hstart).read.mono fun hm => ?_
    refine (hs.mem_playerIds hm).imp_right fun hj => ?_
    obtain ⟨m, hm, hj⟩ := joinsGame_eq_true hj
    obtain ⟨-, rfl⟩ := Prod.mk.inj (Option.some.inj (hhandled.symm.trans hm))
    exact hjoin ▸ hj

theorem InOrder.deliver (h : InOrder n.server i (n.peers i))
    (hs : Server.Stepped (n.env x) n.server s out) (hr : readSlot n.server ≠ some i)
    (hends : EndsGame n.server → (n.peers i).Ready) :
    InOrder s i ((n.peers i).deliver (sentTo i out)) := by
  obtain ⟨msgs, hsends, hwait⟩ := h
  by_cases hl : s.engine.gameplayStarted = false
  · cases hstart : n.server.engine.gameplayStarted with
    | true =>
      obtain ⟨msgs', hsends', hwait'⟩ := (hends (hs.endsGame hstart hl)).waiting hsends.name
      refine ⟨msgs', hsends'.deliver, fun _ => ?_⟩
      refine Peer.Waiting.deliver (hwait'.mono fun hm => ?_) (hs.not_gameStarted hl)
      rw [hs.playerIds_of_endsGame hstart hl] at hm
      exact Std.ExtTreeMap.not_mem_empty hm
    | false =>
      refine ⟨msgs, hsends.deliver, fun _ => ?_⟩
      refine Peer.Waiting.deliver ((hwait hstart).mono fun hm => ?_) (hs.not_gameStarted hl)
      rcases hs.mem_playerIds hm with hm | hj
      · exact hm
      · obtain ⟨msg, hm, -⟩ := joinsGame_eq_true hj
        obtain ⟨hp, hm, -⟩ := handledMessage_eq_some_iff.mp hm
        exact absurd (readSlot_eq_some.mpr ⟨hp, hm⟩) hr
  · exact ⟨msgs, hsends.deliver, fun hl' => absurd hl' hl⟩

variable [PositionSet γ]

theorem inOrder_new (hs : Server.Stepped (n.env x) n.server s out)
    (hC : n.Timely (.serve x)) (ha : n.server.acceptedSlot = some i) :
    InOrder s i ((Peer.new x.name : Peer γ).deliver (sentTo i out)) := by
  obtain ⟨hname, hfree, -⟩ := hC
  refine ⟨[], (Peer.sends_new hname).deliver, fun hl => ?_⟩
  have hnot : i ∉ s.engine.playerIds := by
    intro hm
    rcases hs.mem_playerIds hm with hm | hj
    · obtain ⟨handler, rfl⟩ := hs.accepted ha
      exact hfree hl i ha hm
    · obtain ⟨msg, hm, -⟩ := joinsGame_eq_true hj
      exact Point.noConfusion
        ((acceptedSlot_eq_some ha).1.symm.trans (handledMessage_eq_some_iff.mp hm).1)
  refine ⟨fun players => ?_, .nil, ?_, fun hm => absurd hm hnot⟩
  · simpa [Peer.deliver, Peer.new, Mailbox.deliver] using hs.not_gameStarted hl players
  · simp [hnot]

theorem Orderly.serve (h : n.Orderly) (hC : n.Timely (.serve x))
    (hs : Server.Stepped (n.env x) n.server s out) : Orderly ⟨s, n.served x out⟩ := by
  intro i hi hopen
  have hfd : (s.fd i).isSome := hopen
  rw [hs.fd_eq i] at hfd
  change InOrder s i (n.served x out i)
  rw [served]
  by_cases ha : n.server.acceptedSlot = some i
  · rw [if_pos ha]
    exact inOrder_new hs hC ha
  · rw [if_neg ha] at hfd ⊢
    split_ifs at hfd with hc
    · cases hfd
    · split
      · exact (h i hi hfd).read hs ‹_› hc
      · exact (h i hi hfd).deliver hs ‹_› fun hends => hC.2.2 hends i hi hfd

end Network

namespace Network

open Server

variable {β γ : Type} {n : Network β γ} {s : Server β} {act : Activity}

def quiet (peer : Peer γ) : Bool :=
  peer.stream.isEmpty && peer.mailbox.queue.all fun msg => msg.shape ≠ .started

instance : Decidable (EndsGame s) := instDecidableAnd

end Network

end Bomberrobots
