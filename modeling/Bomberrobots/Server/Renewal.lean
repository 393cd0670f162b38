import Bomberrobots.Library.Bisimulation
import Bomberrobots.Server.Protocol
import Bomberrobots.Server.Rewiring

/-! # A server after a game

Behind the end of a game nothing is left of it. With the same open connections and the same
generator, the server cannot be told from one that has just been started.
-/

namespace Bomberrobots

namespace Server

open Except GameEngine ServerTcpHandler

variable {β : Type}

/-- Two servers in the same state, but for what their handlers remember of other connections. -/
inductive Alike : Server β → Server β → Prop
  /-- What `poll` has reported does not count before the next pass. -/
  | top {e : GameEngine β} {h : ServerTcpHandler} (hc : e.tcpHandler.SameConnections h) :
      Alike ⟨e, .top⟩ ⟨e.withHandler h, .top⟩
  | within {e : GameEngine β} {h : ServerTcpHandler} {point : Point}
      (ht : e.tcpHandler.SameTable h) (hp : point ≠ .client 0) :
      Alike ⟨e, point⟩ ⟨e.withHandler h, point⟩

abbrev Continued (r r' : Server β × List Sending) : Prop := Alike r.1 r'.1 ∧ r.2 = r'.2

theorem continued_of_answered {h : ServerTcpHandler} {point : Point}
    {r r' : GameEngine β × List Sending} (ha : Answered h r r') (hp : point ≠ .client 0) :
    Continued (⟨r.1, point⟩, r.2) (⟨r'.1, point⟩, r'.2) := by
  obtain ⟨⟨he, ht⟩, hout⟩ := ha
  rw [he]
  exact ⟨.within ht hp, hout⟩

variable [PositionSet β] {p : ServerParameters} {e : GameEngine β} {h : ServerTcpHandler}
  {env : Env} {i : Slot}

theorem alike_top (hc : e.tcpHandler.SameConnections h) :
    Rel Continued (step ⟨e, .top⟩ env) (step ⟨e.withHandler h, .top⟩ env) := by
  unfold step
  dsimp only [withHandler]
  split
  · apply Rel.bind (R := Rewired h.resetRevents)
    · exact Rewired.beginTurn ⟨rfl, hc.resetRevents⟩
    · rintro e₁ _ ⟨rfl, ht⟩
      exact .ok ⟨.within ht nofun, rfl⟩
  · exact .ok ⟨.within (e := e.withHandler e.tcpHandler.resetRevents) hc.resetRevents nofun, rfl⟩

theorem alike_poll (ht : e.tcpHandler.SameTable h) :
    Rel Continued (step ⟨e, .poll⟩ env) (step ⟨e.withHandler h, .poll⟩ env) := by
  unfold step
  dsimp only
  split
  · exact .ok ⟨.within ht nofun, rfl⟩
  · exact .ok ⟨.within (e := e.withHandler (e.tcpHandler.pollExec _)) ht.pollExec nofun, rfl⟩

theorem alike_accept (ht : e.tcpHandler.SameTable h) :
    Rel Continued (step ⟨e, .accept⟩ env) (step ⟨e.withHandler h, .accept⟩ env) := by
  unfold step
  dsimp only [withHandler]
  rw [ht.isNewConnection]
  split
  · rw [acceptStep_eq, acceptStep_eq]
    dsimp only [withHandler]
    rw [sendHello_append_sendHelloState, sendHello_append_sendHelloState, ht.freeSlot]
    refine .ok ⟨.within (e := e.withHandler (e.tcpHandler.acceptClient env.accepted).2)
      ht.acceptClient nofun, ?_⟩
    dsimp only
    rw [ht.acceptClient.isSome]
    rfl
  · exact .ok ⟨.within ht nofun, rfl⟩

theorem handleMsg_rewired {u : Position} {received : Option Bytes} (ht : e.tcpHandler.SameTable h)
    (hi : i ≠ 0) (ho : (e.tcpHandler.fd i).isSome) :
    Rel (fun r r' => r.1 = r'.1 ∧ Answered h r.2 r'.2) (e.handleMsg i received u)
      ((e.withHandler h).handleMsg i received u) := by
  unfold handleMsg
  split
  · split
    · exact .ok ⟨rfl, ⟨rfl, ht⟩, rfl⟩
    · apply (Rewired.handleClientMessage ⟨rfl, ht⟩ hi ho).bind
      intro r r' hr
      exact .ok ⟨rfl, hr⟩
  · exact .ok ⟨rfl, ⟨rfl, ht⟩, rfl⟩

theorem clientStep_rewired (ht : e.tcpHandler.SameTable h) (hi : i ≠ 0)
    (ho : (e.tcpHandler.fd i).isSome) :
    Rel (fun r r' => ∃ h', Answered h' r r') (clientStep e i env)
      (clientStep (e.withHandler h) i env) := by
  unfold clientStep
  apply (handleMsg_rewired ht hi ho).bind
  rintro ⟨status, e₁, sent⟩ ⟨_, _, _⟩ ⟨rfl, ⟨rfl, ht₁⟩, rfl⟩
  exact .ok ⟨h.reportMsgStatus status i, ⟨rfl, ht₁.reportMsgStatus⟩, rfl⟩

theorem alike_client (ht : e.tcpHandler.SameTable h) (hi : i ≠ 0) :
    Rel Continued (step ⟨e, .client i⟩ env) (step ⟨e.withHandler h, .client i⟩ env) := by
  unfold step
  dsimp only [withHandler]
  rw [ht.isMessageFrom]
  split
  · rename_i hm
    apply (clientStep_rewired ht hi (isSome_fd_of_isMessageFrom hm)).bind
    rintro r r' ⟨h', ha⟩
    exact .ok (continued_of_answered ha nextClient_ne_zero)
  · exact .ok ⟨.within ht nextClient_ne_zero, rfl⟩

theorem alike_bottom (ht : e.tcpHandler.SameTable h) :
    Rel Continued (step ⟨e, .bottom⟩ env) (step ⟨e.withHandler h, .bottom⟩ env) := by
  unfold step
  dsimp only [withHandler]
  split
  · apply Rel.bind (R := Answered h)
    · exact Rewired.sendTurn ⟨rfl, ht⟩
    · intro r r' ha
      exact .ok (continued_of_answered ha nofun)
  · exact .ok ⟨.within ht nofun, rfl⟩

/-- What a server has forgotten does not show. -/
theorem alike_bisimulation : (machine β p).Bisimulation Alike := by
  intro s t env hst
  change Rel Continued (step s env) (step t env)
  cases hst with
  | top hc => exact alike_top hc
  | @within e h point ht hp =>
    cases point with
    | top => exact alike_top ht.toSameConnections
    | poll => exact alike_poll ht
    | accept => exact alike_accept ht
    | client i => exact alike_client ht fun hi => hp (hi ▸ rfl)
    | bottom => exact alike_bottom ht
    | broadcast => exact .ok (continued_of_answered (Rewired.finishTurn ⟨rfl, ht⟩) nofun)

/-- A server that has just been started, with the given connections and the given generator. -/
def fresh (p : ServerParameters) (h : ServerTcpHandler) (random : Random) : Server β :=
  ⟨{ GameEngine.new p with tcpHandler := h, random := random }, .top⟩

variable {s s' : Server β} {out : List Sending}
  {tr : List (Machine.Step (Server β) Env Sending)} {scores : StdMap PlayerId Score}

theorem Stepped.fresh {random : Random} (hst : Stepped env s s' out)
    (he : ∃ h, s.engine = (fresh p h random).engine)
    (hout : ∀ id player, .acceptedPlayer id player ∉ broadcasts out) :
    ∃ h, s'.engine = (Server.fresh p h random).engine := by
  obtain ⟨h, he⟩ := he
  cases hst with
  | openTurn hs hb =>
    obtain rfl := he
    cases hs
  | greet hn hf heq =>
    obtain rfl := he
    exact ⟨_, heq⟩
  | handled hm hr hh =>
    obtain rfl := he
    cases hh with
    | late hs => cases hs
    | join hs ha hn => exact absurd (List.mem_singleton_self _) (hout _ _)
    | start hs ha hn hg =>
      rw [broadcasts_append] at hout
      exact absurd (List.mem_append_left _ (List.mem_singleton_self _)) (hout _ _)
    | bomb ha hp => simp [Server.fresh, GameEngine.new] at hp
    | block ha hp => simp [Server.fresh, GameEngine.new] at hp
    | stay ha hp hc => simp [Server.fresh, GameEngine.new] at hp
    | move ha hp hc => simp [Server.fresh, GameEngine.new] at hp
    | idle hm ha => exact ⟨_, rfl⟩
  | send hs ht =>
    obtain rfl := he
    cases hs
  | finish =>
    obtain rfl := he
    unfold finishTurn
    dsimp only
    split <;> exact ⟨_, rfl⟩
  | _ =>
    obtain rfl := he
    exact ⟨_, rfl⟩

theorem run_fresh_of_idle (h : (machine β p).Run tr s)
    (hidle : ∀ id player, .acceptedPlayer id player ∉ broadcasts (Machine.log tr)) :
    ∃ handler, s.engine = (fresh p handler (.new p.seed)).engine := by
  refine h.invariant (I := fun tr s =>
    (∀ id player, .acceptedPlayer id player ∉ broadcasts (Machine.log tr)) →
    ∃ handler, s.engine = (fresh p handler (.new p.seed)).engine) (fun _ => ⟨_, rfl⟩) ?_ hidle
  intro tr s env s' out hr hI hs hidle
  rw [Machine.log_append, broadcasts_append] at hidle
  apply (step_stepped hs).fresh
  · exact hI fun id player hm => hidle id player (List.mem_append_left _ hm)
  · intro id player hm
    exact hidle id player (List.mem_append_right _ (by simpa using hm))

/-- Nothing is left of a game when it has ended. -/
theorem run_fresh (h : (machine β p).Run tr s) (hs : step s env = .ok (s', out))
    (hm : .gameEnded scores ∈ broadcasts out) :
    s' = fresh p s'.engine.tcpHandler s'.engine.random := by
  obtain ⟨hp, hpoint⟩ := (step_stepped hs).of_gameEnded hm
  have hc := playersCount_pos h (started_of_broadcast h hp)
  have hparams := (run_wf hc h).params
  obtain ⟨-, -, -, he⟩ := ended_of_gameEnded hc h hs hm
  obtain ⟨e, point⟩ := s'
  obtain rfl : e = _ := he
  obtain rfl : point = .top := hpoint
  rw [← hparams]
  rfl

/--
A server whose game has ended answers everything that follows as one that has just been
started, with the same open connections and the same generator.
-/
theorem run_renewed (h : (machine β p).Run tr s) (hs : step s env = .ok (s', out))
    (hm : .gameEnded scores ∈ broadcasts out) :
    s' = fresh p s'.engine.tcpHandler s'.engine.random ∧
    ∀ handler, s'.engine.tcpHandler.SameConnections handler → ∀ inputs,
      (machine β p).answers s' inputs =
        (machine β p).answers (fresh p handler s'.engine.random) inputs := by
  have hfresh := run_fresh h hs hm
  constructor
  · exact hfresh
  · intro handler hc inputs
    have halike : Alike s' (fresh p handler s'.engine.random) := by
      rw [hfresh]
      exact .top hc
    exact alike_bisimulation.answers_eq halike inputs

theorem run_renewed_solo : ∃ tr s env s' out handler,
    (machine (StdSet Position) solo).Run tr s ∧ s.engine.turns.length = 4 ∧
    step s env = .ok (s', out) ∧
    handler.activeClients ≠ s'.engine.tcpHandler.activeClients ∧
    s' = fresh solo s'.engine.tcpHandler s'.engine.random ∧
    ∀ inputs, (machine (StdSet Position) solo).answers s' inputs =
      (machine (StdSet Position) solo).answers (fresh solo handler s'.engine.random) inputs := by
  have hcheck : (machine (StdSet Position) solo).check
      (soloJoin ++ (List.replicate 3 (pass true (.ready [] ⟨none, []⟩ none))).flatten.dropLast)
      (fun _ s => s.point = .broadcast ∧ s.engine.turns.length = 4 ∧
        s.engine.tcpHandler.activeClients = 1 ∧
        s.engine.currentTurn = s.engine.gameParams.gameLength) = true := by
    decide +kernel
  obtain ⟨tr, ⟨e, point⟩, h, htest⟩ := Machine.run_of_check hcheck
  obtain ⟨hp, hturns, hactive, hlast⟩ := of_decide_eq_true htest
  obtain rfl : point = .broadcast := hp
  have hfinish : e.finishTurn = e.settled.endGameplay := if_pos hlast
  have hs : step ⟨e, .broadcast⟩ (.ready [] ⟨none, []⟩ none) =
      .ok (⟨e.settled.endGameplay.1, .top⟩, e.settled.endGameplay.2) := by
    rw [← hfinish]
    rfl
  obtain ⟨hfresh, hanswers⟩ := run_renewed h hs (List.mem_singleton_self _)
  have hforgot : (0 : UInt64) ≠ e.tcpHandler.activeClients := by
    rw [hactive]
    decide
  exact ⟨tr, _, _, _, _, { e.tcpHandler with activeClients := 0 }, h, hturns, hs, hforgot, hfresh,
    hanswers _ ⟨fun _ => rfl, fun _ _ _ => rfl⟩⟩

end Server

end Bomberrobots
