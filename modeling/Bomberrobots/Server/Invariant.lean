import Bomberrobots.Server.Phases
import Bomberrobots.Server.Steps

/-! # The invariant of the server

Every state of every run is in the lobby or in a game. Each of the 25 clients places
at most one bomb in a turn, so the counter of the bombs does not wrap around.
-/

namespace Bomberrobots

namespace ServerTcpHandler

def Addressed (h : ServerTcpHandler) : Prop :=
  ∀ i : Slot, i ≠ 0 → (h.fd i).isSome → i.val ∈ h.addresses

variable {h : ServerTcpHandler} {client : Accepted} {i j : Slot}

theorem freeSlot_eq_some (hf : h.freeSlot = some j) : j ≠ 0 ∧ h.fd j = none := by
  have := List.find?_some hf
  simpa using this

theorem acceptClient_of_some (hf : h.freeSlot = some j) :
    (h.acceptClient client).2 =
      { activeClients := h.activeClients + 1
        pollDescriptors := Function.update h.pollDescriptors j ⟨client.fd, h.revents j⟩
        addresses := h.addresses.insert j.val client.address } := by
  simp [acceptClient, hf]

theorem acceptClient_of_none (hf : h.freeSlot = none) :
    (h.acceptClient client).2 =
      { h with addresses := h.addresses.insert (2 ^ 64 - 1) client.address } := by
  simp [acceptClient, hf]

theorem fd_acceptClient_of_some (hf : h.freeSlot = some j) :
    (h.acceptClient client).2.fd i = if i = j then client.fd else h.fd i := by
  rw [acceptClient_of_some hf]
  by_cases hi : i = j
  · subst hi
    simp [fd]
  · simp [fd, hi]

theorem fd_reportMsgStatus {status : MessageRecvStatus} (hs : status ≠ .success) :
    (h.reportMsgStatus status j).fd i = if i = j then none else h.fd i := by
  by_cases hi : i = j
  · subst hi
    simp [fd, reportMsgStatus, hs]
  · simp [fd, reportMsgStatus, hs, hi]

theorem Addressed.acceptClient (ha : h.Addressed) : (h.acceptClient client).2.Addressed := by
  intro i hi ho
  cases hf : h.freeSlot with
  | none =>
    rw [acceptClient_of_none hf] at ho ⊢
    exact Std.ExtTreeMap.mem_insert.mpr (.inr (ha i hi ho))
  | some j =>
    rw [fd_acceptClient_of_some hf] at ho
    rw [acceptClient_of_some hf, Std.ExtTreeMap.mem_insert]
    split at ho
    · subst i
      exact .inl (Std.ReflOrd.compare_self)
    · exact .inr (ha i hi ho)

theorem Addressed.reportMsgStatus {status : MessageRecvStatus} (ha : h.Addressed)
    (hs : status ≠ .success) : (h.reportMsgStatus status j).Addressed := by
  intro i hi ho
  rw [fd_reportMsgStatus hs] at ho
  have haddr : (h.reportMsgStatus status j).addresses = h.addresses := by
    simp [ServerTcpHandler.reportMsgStatus, hs]
  rw [haddr]
  split at ho
  · cases ho
  · exact ha i hi ho

theorem addressed_new : new.Addressed := by
  intro i hi ho
  simp [new, fd, hi] at ho

end ServerTcpHandler

/-- How many clients can have been served in the current turn. -/
def Point.served : Point → ℕ
  | .poll | .accept => 0
  | .client i => i.val - 1
  | .top | .bottom | .broadcast => 25

namespace Server

open GameEngine

theorem served_nextClient {i : Slot} : (nextClient i).served = i.val := by
  unfold nextClient
  split
  · simp [Point.served]
  · simp only [Point.served]
    omega

theorem nextClient_ne_zero {i : Slot} : nextClient i ≠ .client 0 := by
  unfold nextClient
  split
  · intro h
    have := congrArg Fin.val (Point.client.inj h)
    exact Nat.succ_ne_zero _ this
  · exact Point.noConfusion

theorem nextClient_ne_top {i : Slot} : nextClient i ≠ .top := by
  unfold nextClient
  split <;> exact Point.noConfusion

theorem nextClient_ne_broadcast {i : Slot} : nextClient i ≠ .broadcast := by
  unfold nextClient
  split <;> exact Point.noConfusion

variable {β : Type}

/-- The next player id is not the last one there is. -/
def Room (s : Server β) : Prop :=
  s.engine.gameplayStarted = false → s.engine.nextPlayerId.toNat < 255

variable [PositionSet β] {p : ServerParameters} {s s' : Server β} {env : Env}
  {out : List Sending}

/-- The invariant of the states between two steps. -/
structure Wf (p : ServerParameters) (s : Server β) : Prop where
  params : s.engine.gameParams = p
  phase : Lobby s.engine ∨ Gameplay s.engine
  budget : s.engine.nextBombId.toNat ≤ 25 * s.engine.currentTurn.toNat + s.point.served
  closed : s.point = .top → s.engine.gameplayStarted = true →
    s.engine.currentTurn < p.gameLength ∧ s.engine.currentBlocksToErase = [] ∧
      s.engine.currentPlayersToDestroy = ∅
  playing : s.point = .broadcast → s.engine.gameplayStarted = true
  client : s.point ≠ .client 0
  addressed : s.engine.tcpHandler.Addressed

namespace Wf

theorem lobby (h : Wf p s) (hs : s.engine.gameplayStarted = false) : Lobby s.engine := by
  rcases h.phase with hl | hg
  · exact hl
  · exact absurd hg.started (by simp [hs])

theorem gameplay (h : Wf p s) (hs : s.engine.gameplayStarted = true) : Gameplay s.engine := by
  rcases h.phase with hl | hg
  · exact absurd hl.started (by simp [hs])
  · exact hg

theorem init : Wf p (init p : Server β) where
  params := rfl
  phase := .inl Lobby.new
  budget := Nat.zero_le _
  closed _ hs := by cases hs
  playing hp := by cases hp
  client := by simp [Server.init]
  addressed := ServerTcpHandler.addressed_new

theorem withHandler {e : GameEngine β} {handler : ServerTcpHandler} {point point' : Point}
    (h : Wf p ⟨e, point⟩) (ha : handler.Addressed) (hv : Lobby e ∨ point.served ≤ point'.served)
    (ht : point' ≠ .top) (hb : point' ≠ .broadcast) (hc : point' ≠ .client 0) :
    Wf p ⟨e.withHandler handler, point'⟩ where
  params := h.params
  phase := h.phase.imp Lobby.withHandler Gameplay.withHandler
  budget := by
    have hbudget : e.nextBombId.toNat ≤ 25 * e.currentTurn.toNat + point.served := h.budget
    rcases hv with hl | hv
    · simp [GameEngine.withHandler, hl.nextBomb]
    · exact hbudget.trans (Nat.add_le_add_left hv _)
  closed hp := absurd hp ht
  playing hp := absurd hp hb
  client := hc
  addressed := ha

theorem moveOn {e : GameEngine β} {handler : ServerTcpHandler} {i : Slot} (h : Wf p ⟨e, .client i⟩)
    (ha : handler.Addressed) : Wf p ⟨e.withHandler handler, nextClient i⟩ := by
  refine h.withHandler ha (.inr ?_) nextClient_ne_top nextClient_ne_broadcast nextClient_ne_zero
  rw [served_nextClient]
  exact Nat.sub_le ..

/-- Between two turns at most `25` bombs are placed, so no bomb id is used twice in a game. -/
theorem budget_lt (h : Wf p s) : s.engine.nextBombId.toNat + 1 < 2 ^ 32 := by
  have hb := h.budget
  have ht := s.engine.currentTurn.toNat_lt
  have hs : s.point.served ≤ 25 := by
    cases s.point with
    | client i =>
      have := i.isLt
      simp only [Point.served]
      omega
    | _ => simp [Point.served]
  omega

theorem handled {e e' : GameEngine β} {i : Slot} {msg : ClientMessage} (h : Wf p ⟨e, .client i⟩)
    (hroom : Room (⟨e, .client i⟩ : Server β))
    (hh : Handled e i env.uninitialised msg e' out) : Wf p ⟨e', nextClient i⟩ := by
  have hi : i ≠ 0 := fun hi => h.client (hi ▸ rfl)
  have hserved : (Point.client i).served + 1 ≤ (nextClient i).served := by
    rw [served_nextClient]
    have := Nat.pos_of_ne_zero fun h0 => hi (Fin.ext h0)
    simp only [Point.served]
    omega
  have hbudget : e.nextBombId.toNat ≤ 25 * e.currentTurn.toNat + (Point.client i).served := h.budget
  have hmain : (Lobby e' ∨ Gameplay e') ∧
      e'.nextBombId.toNat ≤ 25 * e'.currentTurn.toNat + (nextClient i).served := by
    have hphase : Lobby e ∨ Gameplay e := h.phase
    rcases hphase with hl | hg
    · rcases hh.lobby hl with ⟨-, rfl, -⟩ | ⟨player, -, hn, rfl, -⟩ |
        ⟨player, sent, -, hn, hg, -⟩
      · exact ⟨.inl hl, hbudget.trans (by omega)⟩
      · refine ⟨.inl (hl.joined (hroom hl.started)), hbudget.trans ?_⟩
        simp only [GameEngine.joined]
        omega
      · obtain ⟨hg', ht, hb⟩ := hl.startGameplay hn hg
        exact ⟨.inr hg', by simp [hb]⟩
    · obtain ⟨hg', ht, hb⟩ := hg.handled hh h.budget_lt
      refine ⟨.inr hg', ?_⟩
      rw [ht]
      omega
  exact
    { params := hh.frame.2.trans h.params
      phase := hmain.1
      budget := hmain.2
      closed := fun hp => absurd hp (nextClient_ne_top)
      playing := fun hp => absurd hp (nextClient_ne_broadcast)
      client := nextClient_ne_zero
      addressed := by
        have hf : e'.tcpHandler = e.tcpHandler := hh.frame.1
        simpa only [hf] using h.addressed }

theorem opened {e e' : GameEngine β} (h : Wf p ⟨e, .top⟩) (hs : e.gameplayStarted = true)
    (hb : (e.withHandler e.tcpHandler.resetRevents).beginTurn = .ok e') :
    Wf p ⟨e', .poll⟩ ∧ e' = (e.withHandler e.tcpHandler.resetRevents).opened := by
  have hg := h.gameplay hs
  obtain ⟨hlt, -, -⟩ := h.closed rfl hs
  have hlt' : e.currentTurn < e.gameParams.gameLength := by
    have hp : e.gameParams = p := h.params
    simpa only [hp] using hlt
  have hg' : Gameplay (e.withHandler e.tcpHandler.resetRevents) := hg.withHandler
  obtain ⟨-, rfl⟩ := beginTurn_ok hb (hg'.nextTurn hlt')
  refine ⟨?_, rfl⟩
  exact
    { params := h.params
      phase := .inr (hg'.opened hlt')
      budget := by
        have hb := h.budget
        have hn := hg.nextTurn hlt'
        have hl := hg.length
        simp only [GameEngine.opened, GameEngine.withHandler, Point.served] at hb ⊢
        simp only [hl] at hn
        omega
      closed := by simp
      playing := by simp
      client := by simp
      addressed := h.addressed }

theorem sent {e e' : GameEngine β} (h : Wf p ⟨e, .bottom⟩) (hs : e.gameplayStarted = true)
    (ht : e.sendTurn = .ok (e', out)) : Wf p ⟨e', .broadcast⟩ := by
  have hg := h.gameplay hs
  obtain ⟨robots, random, turn, hr, -, -, rfl, -, -⟩ := sendTurn_ok ht
  exact
    { params := h.params
      phase := .inr (hg.respawned hr)
      budget := h.budget
      closed := by simp
      playing := fun _ => hs
      client := by simp
      addressed := h.addressed }

theorem finished {e : GameEngine β} (h : Wf p ⟨e, .broadcast⟩) :
    Wf p ⟨e.finishTurn.1, .top⟩ := by
  have hp : e.gameParams = p := h.params
  have hg := h.gameplay (h.playing rfl)
  unfold finishTurn
  dsimp only
  split
  · exact
      { params := hp
        phase := .inl (lobby_endGameplay rfl rfl)
        budget := Nat.zero_le _
        closed := fun _ hs => by cases hs
        playing := by simp
        client := by simp
        addressed := h.addressed }
  · rename_i hlast
    have hle := hg.bounded
    exact
      { params := hp
        phase := .inr hg.cleared
        budget := h.budget
        closed := fun _ _ => by
          refine ⟨?_, rfl, rfl⟩
          rw [← hp]
          exact UInt16.lt_of_le_of_ne hle hlast
        playing := by simp
        client := by simp
        addressed := h.addressed }

/-- Every step keeps the invariant, as long as there are ids for the players who join. -/
theorem stepped (h : Wf p s) (hroom : Room s) (hs : Stepped env s s' out) : Wf p s' := by
  have ha := h.addressed
  cases hs with
  | lobby hs => exact h.withHandler ha (.inl (h.lobby hs)) nofun nofun nofun
  | openTurn hs hb => exact (h.opened hs hb).1
  | quiet hp => exact h.withHandler ha (.inr (Nat.zero_le _)) nofun nofun nofun
  | polled hp =>
    refine h.withHandler ?_ (.inr le_rfl) nofun nofun nofun
    exact ha
  | noClient hn => exact h.withHandler ha (.inr le_rfl) nofun nofun nofun
  | full hn hf => exact h.withHandler ha.acceptClient (.inr le_rfl) nofun nofun nofun
  | greet hn hf he => exact he ▸ h.withHandler ha.acceptClient (.inr le_rfl) nofun nofun nofun
  | noMessage hm => exact h.moveOn ha
  | refused hm hr => exact h.moveOn (ha.reportMsgStatus nofun)
  | handled hm hr hh => exact h.handled hroom hh
  | rest hs =>
    exact
      { params := h.params
        phase := h.phase
        budget := h.budget
        closed := fun _ ht => absurd ht (by simp [hs])
        playing := nofun
        client := nofun
        addressed := ha }
  | send hs ht => exact h.sent hs ht
  | finish => exact h.finished

end Wf

end Server

end Bomberrobots
