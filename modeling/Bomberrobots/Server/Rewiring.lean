import Bomberrobots.Server.Game

/-! # The engine and its connections

The engine looks at its connections only for which slots are open and for the addresses of
their clients. With a handler that agrees on these it does the same.
-/

namespace Bomberrobots

namespace ServerTcpHandler

structure SameConnections (h h' : ServerTcpHandler) : Prop where
  isSome : ∀ i, (h'.fd i).isSome = (h.fd i).isSome
  addresses : ∀ i : Slot, i ≠ 0 → (h.fd i).isSome → h'.addresses[i.val]? = h.addresses[i.val]?

structure SameTable (h h' : ServerTcpHandler) : Prop extends SameConnections h h' where
  revents : ∀ i, h'.revents i = h.revents i

variable {h h' : ServerTcpHandler} {i : Slot} {msg : ServerMessage}

namespace SameConnections

theorem openSlots (hc : h.SameConnections h') : h'.openSlots = h.openSlots := by
  unfold ServerTcpHandler.openSlots
  simp only [hc.isSome]

theorem freeSlot (hc : h.SameConnections h') : h'.freeSlot = h.freeSlot := by
  unfold ServerTcpHandler.freeSlot
  simp only [← Option.not_isSome, hc.isSome]

theorem sendMessageToAll (hc : h.SameConnections h') :
    h'.sendMessageToAll msg = h.sendMessageToAll msg := by
  unfold ServerTcpHandler.sendMessageToAll
  rw [hc.openSlots]

theorem getAddress (hc : h.SameConnections h') (hi : i ≠ 0) (ho : (h.fd i).isSome) :
    h'.getAddress i = h.getAddress i := by
  unfold ServerTcpHandler.getAddress
  rw [hc.addresses i hi ho]

theorem resetRevents (hc : h.SameConnections h') : h.resetRevents.SameTable h'.resetRevents :=
  ⟨⟨hc.isSome, hc.addresses⟩, fun _ => rfl⟩

end SameConnections

namespace SameTable

theorem isNewConnection (ht : h.SameTable h') : h'.isNewConnection = h.isNewConnection := by
  unfold ServerTcpHandler.isNewConnection
  rw [ht.revents]

theorem isMessageFrom (ht : h.SameTable h') : h'.isMessageFrom i = h.isMessageFrom i := by
  unfold ServerTcpHandler.isMessageFrom
  rw [ht.isSome, ht.revents]

theorem pollExec {reported : Slot → Revents} (ht : h.SameTable h') :
    (h.pollExec reported).SameTable (h'.pollExec reported) := by
  constructor
  · exact ⟨ht.isSome, ht.addresses⟩
  · intro i
    change (if (h'.fd i).isSome then _ else _) = if (h.fd i).isSome then _ else _
    rw [ht.isSome]

theorem acceptClient {client : Accepted} (ht : h.SameTable h') :
    (h.acceptClient client).2.SameTable (h'.acceptClient client).2 := by
  cases hf : h.freeSlot with
  | none =>
    rw [acceptClient_of_none hf, acceptClient_of_none (ht.freeSlot.trans hf)]
    constructor
    · constructor
      · exact ht.isSome
      · intro i hi ho
        rw [Std.ExtTreeMap.getElem?_insert, Std.ExtTreeMap.getElem?_insert, ht.addresses i hi ho]
    · exact ht.revents
  | some j =>
    have hf' := ht.freeSlot.trans hf
    constructor
    · constructor
      · intro i
        rw [fd_acceptClient_of_some hf, fd_acceptClient_of_some hf']
        split
        · rfl
        · exact ht.isSome i
      · intro i hi ho
        rw [fd_acceptClient_of_some hf] at ho
        rw [acceptClient_of_some hf, acceptClient_of_some hf', Std.ExtTreeMap.getElem?_insert,
          Std.ExtTreeMap.getElem?_insert]
        split
        · rfl
        · rename_i hj
          have hne : i ≠ j := fun heq => hj (heq ▸ Std.ReflOrd.compare_self)
          rw [if_neg hne] at ho
          exact ht.addresses i hi ho
    · intro i
      rw [acceptClient_of_some hf, acceptClient_of_some hf']
      by_cases hij : i = j
      · subst hij
        simpa [ServerTcpHandler.revents] using ht.revents i
      · simpa [ServerTcpHandler.revents, hij] using ht.revents i

theorem reportMsgStatus {status : MessageRecvStatus} (ht : h.SameTable h') :
    (h.reportMsgStatus status i).SameTable (h'.reportMsgStatus status i) := by
  by_cases hs : status = .success
  · simpa [ServerTcpHandler.reportMsgStatus, hs] using ht
  · constructor
    · constructor
      · intro j
        rw [fd_reportMsgStatus hs, fd_reportMsgStatus hs]
        split
        · rfl
        · exact ht.isSome j
      · intro j hj ho
        rw [fd_reportMsgStatus hs] at ho
        simp only [ServerTcpHandler.reportMsgStatus, if_neg hs]
        split at ho
        · cases ho
        · exact ht.addresses j hj ho
    · intro j
      have hj := ht.revents j
      by_cases hij : j = i
      · subst hij
        simpa [ServerTcpHandler.revents, ServerTcpHandler.reportMsgStatus, hs] using hj
      · simpa [ServerTcpHandler.revents, ServerTcpHandler.reportMsgStatus, hs, hij] using hj

end SameTable

end ServerTcpHandler

namespace GameEngine

open Except

variable {β : Type} {e e' : GameEngine β} {h : ServerTcpHandler} {i : Slot}

/-- The same engine with another handler of the same connections. -/
structure Rewired (h : ServerTcpHandler) (e e' : GameEngine β) : Prop where
  eq : e' = e.withHandler h
  table : e.tcpHandler.SameTable h

/-- The same engine with another handler, and the same messages. -/
def Answered (h : ServerTcpHandler) (r r' : GameEngine β × List Sending) : Prop :=
  Rewired h r.1 r'.1 ∧ r.2 = r'.2

namespace Rewired

theorem addEvent {turn : UInt16} {event : Event} (hr : Rewired h e e') :
    Rel (Rewired h) (e.addEvent turn event) (e'.addEvent turn event) := by
  obtain ⟨rfl, hc⟩ := hr
  unfold GameEngine.addEvent withHandler
  dsimp only
  split
  · exact .ok ⟨rfl, hc⟩
  · exact .error

theorem seedPosition (hr : Rewired h e e') :
    Rel (fun r r' => r.1 = r'.1 ∧ Rewired h r.2 r'.2) e.seedPosition e'.seedPosition := by
  obtain ⟨rfl, hc⟩ := hr
  unfold GameEngine.seedPosition
  apply Rel.refl.bind
  rintro ⟨x, random⟩ _ rfl
  apply Rel.refl.bind
  rintro ⟨y, random⟩ _ rfl
  exact .ok ⟨rfl, rfl, hc⟩

theorem seedPlayer {id : PlayerId} (hr : Rewired h e e') :
    Rel (Rewired h) (e.seedPlayer id) (e'.seedPlayer id) := by
  unfold GameEngine.seedPlayer
  apply hr.seedPosition.bind
  rintro ⟨pos, e⟩ ⟨_, _⟩ ⟨rfl, rfl, hc⟩
  apply (addEvent ⟨rfl, hc⟩).bind
  rintro e _ ⟨rfl, hc⟩
  exact .ok ⟨rfl, hc⟩

theorem seedPlayers (hr : Rewired h e e') : Rel (Rewired h) e.seedPlayers e'.seedPlayers := by
  obtain ⟨rfl, hc⟩ := hr
  apply Rel.foldlM _ ⟨rfl, hc⟩
  intro e e' id hr
  exact hr.seedPlayer

theorem respawnPlayer {id : PlayerId} (hr : Rewired h e e') :
    Rel (Rewired h) (e.respawnPlayer id) (e'.respawnPlayer id) := by
  obtain ⟨rfl, hc⟩ := hr
  unfold GameEngine.respawnPlayer withHandler
  dsimp only
  split
  · exact seedPlayer ⟨rfl, hc⟩
  · exact .error

theorem sendTurn (hr : Rewired h e e') : Rel (Answered h) e.sendTurn e'.sendTurn := by
  obtain ⟨rfl, hc⟩ := hr
  unfold GameEngine.sendTurn
  apply Rel.bind (R := Rewired h)
  · apply Rel.foldlM _ ⟨rfl, hc⟩
    intro e e' id hr
    exact hr.respawnPlayer
  · rintro e _ ⟨rfl, hc⟩
    unfold withHandler
    dsimp only
    split
    · exact .ok ⟨⟨rfl, hc⟩, hc.sendMessageToAll.symm⟩
    · exact .error

theorem handlePlaceBomb (hr : Rewired h e e') :
    Rel (Rewired h) (e.handlePlaceBomb i) (e'.handlePlaceBomb i) := by
  obtain ⟨rfl, hc⟩ := hr
  have hacting : (e.withHandler h).actingPlayer i = e.actingPlayer i := rfl
  unfold GameEngine.handlePlaceBomb
  rw [hacting]
  split
  · exact .ok ⟨rfl, hc⟩
  · apply Rel.refl.bind
    rintro pos _ rfl
    exact addEvent ⟨rfl, hc⟩

variable [PositionSet β]

theorem seedBlock (hr : Rewired h e e') : Rel (Rewired h) e.seedBlock e'.seedBlock := by
  unfold GameEngine.seedBlock
  apply hr.seedPosition.bind
  rintro ⟨pos, e⟩ ⟨_, _⟩ ⟨rfl, rfl, hc⟩
  apply (addEvent ⟨rfl, hc⟩).bind
  rintro e _ ⟨rfl, hc⟩
  exact .ok ⟨rfl, hc⟩

theorem seedBlocks (hr : Rewired h e e') : Rel (Rewired h) e.seedBlocks e'.seedBlocks := by
  obtain ⟨rfl, hc⟩ := hr
  apply Rel.foldlM _ ⟨rfl, hc⟩
  intro e e' _ hr
  exact hr.seedBlock

theorem startGameplay (hr : Rewired h e e') :
    Rel (Answered h) e.startGameplay e'.startGameplay := by
  obtain ⟨rfl, hc⟩ := hr
  unfold GameEngine.startGameplay
  dsimp only
  apply Rel.bind (R := Rewired h)
  · exact seedPlayers ⟨rfl, hc⟩
  · intro e₁ e₁' hr
    apply hr.seedBlocks.bind
    intro e₂ e₂' hr
    exact .ok ⟨hr, hc.sendMessageToAll.symm⟩

theorem finishTurn (hr : Rewired h e e') : Answered h e.finishTurn e'.finishTurn := by
  obtain ⟨rfl, hc⟩ := hr
  unfold GameEngine.finishTurn withHandler
  dsimp only
  split
  · exact ⟨⟨rfl, hc⟩, hc.sendMessageToAll.symm⟩
  · exact ⟨⟨rfl, hc⟩, rfl⟩

theorem explosionLoop {c : Position} {fuel : ℕ} {i : UInt16} {go : Rays} {x : Explosion} :
    (e.withHandler h).explosionLoop c fuel i go x = e.explosionLoop c fuel i go x := by
  induction fuel generalizing i go x with
  | zero => rfl
  | succ fuel ih =>
    have hscan : (e.withHandler h).scanRays c i go x = e.scanRays c i go x := rfl
    unfold GameEngine.explosionLoop
    simp only [ih, hscan]
    rfl

theorem explode {c : Position} {x : Explosion} :
    (e.withHandler h).explode c x = e.explode c x := by
  unfold GameEngine.explode
  simp only [explosionLoop]
  rfl

theorem handleExplosion {id : BombId} {bomb : Bomb} (hr : Rewired h e e') :
    Rel (Rewired h) (e.handleExplosion id bomb) (e'.handleExplosion id bomb) := by
  obtain ⟨rfl, hc⟩ := hr
  unfold GameEngine.handleExplosion
  rw [explode]
  apply Rel.refl.bind
  rintro x _ rfl
  exact addEvent ⟨rfl, hc⟩

theorem tickBomb {entry : BombId × Bomb} (hr : Rewired h e e') :
    Rel (Rewired h) (e.tickBomb entry) (e'.tickBomb entry) := by
  obtain ⟨rfl, hc⟩ := hr
  unfold GameEngine.tickBomb
  dsimp only
  split
  · exact handleExplosion ⟨rfl, hc⟩
  · exact .ok ⟨rfl, hc⟩

theorem beginTurn (hr : Rewired h e e') : Rel (Rewired h) e.beginTurn e'.beginTurn := by
  obtain ⟨rfl, hc⟩ := hr
  unfold GameEngine.beginTurn
  dsimp only
  apply Rel.bind (R := Rewired h)
  · apply Rel.foldlM _ ⟨rfl, hc⟩
    intro e e' entry hr
    exact hr.tickBomb
  · rintro e _ ⟨rfl, hc⟩
    exact .ok ⟨rfl, hc⟩

theorem handleJoin {name : Bytes} (hr : Rewired h e e') (hi : i ≠ 0)
    (ho : (e.tcpHandler.fd i).isSome) :
    Rel (Answered h) (e.handleJoin i name) (e'.handleJoin i name) := by
  obtain ⟨rfl, hc⟩ := hr
  unfold GameEngine.handleJoin withHandler
  dsimp only
  split
  · exact .ok ⟨⟨rfl, hc⟩, rfl⟩
  · rw [hc.getAddress hi ho]
    apply Rel.refl.bind
    rintro address _ rfl
    rw [hc.sendMessageToAll]
    split
    · apply Rel.bind (R := Answered h)
      · exact startGameplay ⟨rfl, hc⟩
      · rintro ⟨e₁, sent⟩ ⟨_, _⟩ ⟨hr, rfl⟩
        exact .ok ⟨hr, rfl⟩
    · exact .ok ⟨⟨rfl, hc⟩, rfl⟩

theorem handlePlaceBlock (hr : Rewired h e e') :
    Rel (Rewired h) (e.handlePlaceBlock i) (e'.handlePlaceBlock i) := by
  obtain ⟨rfl, hc⟩ := hr
  have hacting : (e.withHandler h).actingPlayer i = e.actingPlayer i := rfl
  unfold GameEngine.handlePlaceBlock
  rw [hacting]
  split
  · exact .ok ⟨rfl, hc⟩
  · apply Rel.refl.bind
    rintro pos _ rfl
    exact addEvent ⟨rfl, hc⟩

theorem handleMove {d : Direction} {u : Position} (hr : Rewired h e e') :
    Rel (Rewired h) (e.handleMove i d u) (e'.handleMove i d u) := by
  obtain ⟨rfl, hc⟩ := hr
  have hacting : (e.withHandler h).actingPlayer i = e.actingPlayer i := rfl
  have hcheck : ∀ pos, (e.withHandler h).checkPositionToMove pos = e.checkPositionToMove pos :=
    fun _ => rfl
  unfold GameEngine.handleMove
  rw [hacting]
  split
  · exact .ok ⟨rfl, hc⟩
  · apply Rel.refl.bind
    rintro pos _ rfl
    dsimp only
    rw [hcheck]
    split
    · exact .ok ⟨rfl, hc⟩
    · exact addEvent ⟨rfl, hc⟩

theorem handleClientMessage {u : Position} {msg : ClientMessage} (hr : Rewired h e e')
    (hi : i ≠ 0) (ho : (e.tcpHandler.fd i).isSome) :
    Rel (Answered h) (e.handleClientMessage i u msg) (e'.handleClientMessage i u msg) := by
  cases msg with
  | join name => exact hr.handleJoin hi ho
  | placeBomb => exact hr.handlePlaceBomb.bind fun _ _ hr => .ok ⟨hr, rfl⟩
  | placeBlock => exact hr.handlePlaceBlock.bind fun _ _ hr => .ok ⟨hr, rfl⟩
  | move d => exact hr.handleMove.bind fun _ _ hr => .ok ⟨hr, rfl⟩

end Rewired

end GameEngine

end Bomberrobots
