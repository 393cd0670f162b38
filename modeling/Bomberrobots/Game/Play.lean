import Bomberrobots.Game.Refinement

/-! # A run of the server plays the game

The messages that the server handles are commands to the robots, at most one for each robot in a
turn. Whenever a turn is broadcast the engine keeps the board to which the rules lead with the
commands of the turns so far, from the positions that the generator draws.
-/

namespace Bomberrobots

abbrev ServerParameters.Orders (p : ServerParameters) :=
  List (p.Robot × Game.Command ServerParameters.Way)

namespace Server

open GameEngine ServerParameters

variable {β : Type}

/-- The command that a step hears for the robot of the player whose message it handles. -/
def orders (p : ServerParameters) (t : Machine.Step (Server β) Env Sending) : p.Orders :=
  match t.pre.handledMessage t.input with
  | none => []
  | some (i, msg) =>
    match t.pre.engine.playerIds[i]?, msg.command with
    | some id, some c => if h : id.toNat < p.playersCount.toNat then [(⟨id.toNat, h⟩, c)] else []
    | _, _ => []

/-- A turn begins at the head of the loop, and turn 0 with the game. -/
def listen (p : ServerParameters) (heard : List p.Orders × p.Orders)
    (t : Machine.Step (Server β) Env Sending) : List p.Orders × p.Orders :=
  if t.pre.engine.gameplayStarted then
    if t.pre.point = .top then (heard.1 ++ [heard.2], []) else (heard.1, heard.2 ++ orders p t)
  else ([], [])

/-- The commands of the turns of the running game that are over, and those of the current turn. -/
def heard (p : ServerParameters) (tr : List (Machine.Step (Server β) Env Sending)) :
    List p.Orders × p.Orders :=
  tr.foldl (listen p) ([], [])

def turnsHeard (p : ServerParameters) (tr : List (Machine.Step (Server β) Env Sending)) :
    List p.Orders :=
  (heard p tr).1 ++ [(heard p tr).2]

/-- A step handles no message but a Join or a command. -/
def Understood (s : Server β) (env : Env) : Prop :=
  ∀ received ∈ s.handledMessage env, received.2.isJoin = true ∨ received.2.command.isSome = true

instance {s : Server β} {env : Env} : Decidable (Understood s env) :=
  inferInstanceAs (Decidable (∀ received ∈ s.handledMessage env,
    received.2.isJoin = true ∨ received.2.command.isSome = true))

variable {p : ServerParameters} {tr : List (Machine.Step (Server β) Env Sending)}
  {t : Machine.Step (Server β) Env Sending}

theorem heard_concat : heard p (tr ++ [t]) = listen p (heard p tr) t := by
  simp [heard]

theorem orders_of_none (h : t.pre.handledMessage t.input = none) : orders p t = [] := by
  simp [orders, h]

theorem Played.drawnBefore_eq [PositionSet β] {env : Env} {s s' : Server β}
    {msgs : List ServerMessage} (h : Played env s s' msgs)
    (hs' : s'.engine.gameplayStarted = true) : drawnBefore p msgs = 0 := by
  cases h with
  | ended hg hlast => cases hs'
  | _ => rfl

/-- The board to which the commands have led at a program point. -/
noncomputable def reached (p : ServerParameters) [NeZero p.sizeX.toNat] [NeZero p.sizeY.toNat]
    (n : ℕ) (heard : List p.Orders × p.Orders) (point : Point) : Game.State p.Robot p.Field :=
  if point.sent = 1 then p.rules.play n (heard.1 ++ [heard.2])
  else p.rules.unfinished (p.rules.play n heard.1) heard.2

section Following

variable [NeZero p.sizeX.toNat] [NeZero p.sizeY.toNat]

structure Following (p : ServerParameters) [NeZero p.sizeX.toNat] [NeZero p.sizeY.toNat] (n : ℕ)
    (heard : List p.Orders × p.Orders) (s : Server (StdSet Position)) : Prop where
  turns : heard.1.length = s.engine.currentTurn.toNat
  keeps : Keeps s.engine s.gone (reached p n heard s.point)
  once : ∀ orders ∈ heard.1 ++ [heard.2], (orders.map Prod.fst).Nodup
  served : ∀ c ∈ heard.2, ∃ j : Slot, j.val ≤ s.point.served ∧
    s.engine.playerIds[j]? = some c.1.playerId

variable {n : ℕ} {heard : List p.Orders × p.Orders} {e e' : GameEngine (StdSet Position)}
  {point point' : Point} {i : Slot} {s s' : Server (StdSet Position)} {env : Env}
  {out : List Sending}

namespace Following

theorem still {handler : ServerTcpHandler} (h : Following p n heard ⟨e, point⟩)
    (hp : point'.sent = point.sent) (hle : point.served ≤ point'.served) :
    Following p n heard ⟨e.withHandler handler, point'⟩ where
  turns := h.turns
  keeps := by
    have hold := h.keeps
    rw [gone_withHandler hp]
    simp only [reached, hp] at hold ⊢
    exact { hold with }
  once := h.once
  served c hc := by
    obtain ⟨j, hj, hid⟩ := h.served c hc
    exact ⟨j, hj.trans hle, hid⟩

theorem opened (h : Following p n heard ⟨e, .top⟩) (hlt : e.currentTurn < e.gameParams.gameLength)
    (he : e.currentBlocksToErase = []) (hd : e.currentPlayersToDestroy = ∅) :
    Following p n (heard.1 ++ [heard.2], []) ⟨e.opened, .poll⟩ where
  turns := by
    have hmax := e.gameParams.gameLength.toNat_lt
    have hold := h.turns
    rw [UInt16.lt_iff_toNat_lt] at hlt
    simp only [GameEngine.opened, UInt16.toNat_add, UInt16.toNat_one, List.length_append,
      List.length_singleton] at hold ⊢
    omega
  keeps := by
    have hold := h.keeps
    rw [gone_of_sent Point.sent_top] at hold
    rw [gone_of_unsent Point.sent_poll]
    exact hold.opened hlt he hd
  once orders ho := by
    rcases List.mem_append.mp ho with ho | ho
    · exact h.once orders ho
    · rw [List.mem_singleton.mp ho]
      exact List.nodup_nil
  served c hc := by cases hc

/-- A player whose slot is served gives the first command of the turn to its robot. -/
theorem ordered {j : p.Robot} {msg : ClientMessage} {c : Game.Command Way}
    (h : Following p n heard ⟨e, .client i⟩) (hg : Gameplay e) (hi : i ≠ 0)
    (hn : e.nextBombId.toNat + 1 < 2 ^ 32) (hid : e.playerIds[i]? = some j.playerId)
    (hc : msg.command = some c) :
    Following p n (heard.1, heard.2 ++ [(j, c)]) ⟨e.perform (e.act i msg), nextClient i⟩ := by
  have hplayers : (e.perform (e.act i msg)).playerIds = e.playerIds := by
    cases e.act i msg <;> rfl
  have hdestroy : (e.perform (e.act i msg)).currentPlayersToDestroy =
      e.currentPlayersToDestroy := by
    cases e.act i msg <;> rfl
  have hturn : (e.perform (e.act i msg)).currentTurn = e.currentTurn := by
    cases e.act i msg <;> rfl
  constructor
  · rw [hturn]
    exact h.turns
  · have hold := h.keeps
    rw [gone_of_unsent Point.sent_client] at hold
    rw [gone_of_unsent sent_nextClient]
    simp only [reached, Point.sent_client, sent_nextClient, Nat.zero_ne_one, if_false,
      Game.Rules.unfinished_concat, hdestroy] at hold ⊢
    exact hold.perform hg.nextBombId_not_mem hn hid hc
  · intro orders ho
    rcases List.mem_append.mp ho with ho | ho
    · exact h.once orders (List.mem_append_left _ ho)
    · obtain rfl := List.mem_singleton.mp ho
      rw [List.map_append, List.map_singleton, List.nodup_append]
      refine ⟨h.once _ (List.mem_append_right _ (List.mem_singleton_self _)),
        List.nodup_singleton _, ?_⟩
      rintro k hk _ hj rfl
      obtain rfl := List.mem_singleton.mp hj
      obtain ⟨c', hc', rfl⟩ := List.mem_map.mp hk
      obtain ⟨i', hi', hid'⟩ := h.served c' hc'
      obtain rfl := hg.registered.injective i i' _ hid hid'
      have := Nat.pos_of_ne_zero fun h0 => hi (Fin.ext h0)
      simp only [Point.served] at hi'
      omega
  · intro c' hc'
    rw [hplayers, served_nextClient]
    rcases List.mem_append.mp hc' with hc' | hc'
    · obtain ⟨i', hi', hid'⟩ := h.served c' hc'
      exact ⟨i', hi'.trans (Nat.sub_le ..), hid'⟩
    · obtain rfl := List.mem_singleton.mp hc'
      exact ⟨i, le_rfl, hid⟩

theorem handled {msg : ClientMessage} {u : Position} {sent : List Sending}
    (h : Following p n heard ⟨e, .client i⟩) (hw : Wf p (⟨e, .client i⟩ : Server (StdSet Position)))
    (hg : Gameplay e) (hm : handledMessage ⟨e, .client i⟩ env = some (i, msg))
    (hu : Understood ⟨e, .client i⟩ env) (hh : Handled e i u msg e' sent) :
    Following p n (heard.1, heard.2 ++ orders p ⟨⟨e, .client i⟩, env, out, s'⟩)
      ⟨e', nextClient i⟩ := by
  have hi : i ≠ 0 := fun hi => hw.client (hi ▸ rfl)
  have hle : (Point.client i).served ≤ (nextClient i).served := by
    rw [served_nextClient]
    exact Nat.sub_le ..
  have hstill : Following p n heard ⟨e, nextClient i⟩ := by
    have hstill : Following p n heard ⟨e.withHandler e.tcpHandler, nextClient i⟩ :=
      h.still sent_nextClient hle
    exact hstill
  cases hc : msg.command with
  | none =>
    have hjoin : msg.isJoin = true := by
      simpa [hc] using hu _ hm
    cases msg with
    | join name =>
      obtain ⟨-, rfl⟩ : sent = [] ∧ e' = e := by
        cases hh with
        | late hs => exact ⟨rfl, rfl⟩
        | join hs ha hn => exact Bool.noConfusion (hg.started.symm.trans hs)
        | start hs ha hn hst => exact Bool.noConfusion (hg.started.symm.trans hs)
        | idle hj ha => cases hj
      simpa [orders, hm, ClientMessage.command] using hstill
    | _ => cases hjoin
  | some c =>
    have haction : msg.IsAction := by
      cases msg with
      | join name => cases hc
      | move d =>
        simp only [ClientMessage.command] at hc
        split at hc
        · assumption
        · cases hc
      | _ => trivial
    obtain ⟨rfl, -⟩ := hh.perform haction
    cases hid : e.playerIds[i]? with
    | none =>
      have hidle : e.act i msg = .idle := by
        simp [act, actingPlayer, hid]
      simpa [orders, hm, hid, hidle, GameEngine.perform] using hstill
    | some id =>
      have hp : e.gameParams = p := hw.params
      have hlt : id.toNat < p.playersCount.toNat := hp ▸ hg.registered.range i id hid
      obtain ⟨j, rfl⟩ := Robot.exists_playerId hlt
      have horders : orders p ⟨⟨e, .client i⟩, env, out, s'⟩ = [(j, c)] := by
        simp [orders, hm, hid, hc]
      rw [horders]
      exact h.ordered hg hi hw.budget_lt hid hc

theorem sent (h : Following p n heard ⟨e, .bottom⟩) (hg : Gameplay e) (hp : e.gameParams = p)
    (ht : Tallied (⟨e, .bottom⟩ : Server (StdSet Position)))
    (hsend : e.sendTurn = .ok (e', out)) : Following p n heard ⟨e', .broadcast⟩ := by
  obtain rfl := sendTurn_drawn hsend
  constructor
  · exact h.turns
  · have hold := h.keeps
    rw [gone_of_unsent Point.sent_bottom] at hold
    rw [gone_of_sent Point.sent_broadcast]
    simp only [reached, Point.sent_broadcast, if_true, Game.Rules.play_concat]
    exact hold.respawned (hp ▸ hg.destroy) fun id score => ht.score_lt hg
  · exact h.once
  · exact h.served

theorem closed (h : Following p n heard ⟨e, .broadcast⟩) :
    Following p n heard ⟨e.settled, .top⟩ := by
  constructor
  · exact h.turns
  · have hold := h.keeps
    rw [gone_of_sent Point.sent_broadcast] at hold
    rw [gone_of_sent Point.sent_top]
    exact { hold with }
  · exact h.once
  · exact h.served

theorem start {player : Player} {sent : List Sending} (hl : Lobby e)
    (hn : (e.joined i player).players.size = e.gameParams.playersCount.toNat)
    (hg : (e.joined i player).startGameplay = .ok (e', sent)) (hp : e.gameParams = p)
    (hr : e.random = randomAfter p n) (ht : Tallied (⟨e, .client i⟩ : Server (StdSet Position))) :
    Following p n ([], []) ⟨e', nextClient i⟩ := by
  obtain ⟨robots, blocks, hb⟩ := hl.begun hg
  constructor
  · simp [(hl.startGameplay hn hg).2.1]
  · rw [gone_of_unsent sent_nextClient, hb.destroy]
    simp only [reached, sent_nextClient, Nat.zero_ne_one, if_false]
    have hstart : p.rules.explode (p.rules.start n : Game.State p.Robot p.Field) =
        p.rules.start n := Game.Rules.explode_of_no_bombs (fun _ => rfl) rfl
    have hkeeps : Keeps e' ∅ (p.rules.start n) :=
      Keeps.start hl hn hg hp hr (scores_joined (ht.lobby hl.started))
    rw [← hstart] at hkeeps
    exact hkeeps
  · simp
  · simp

/-- A step of a game leads on as the rules tell. -/
theorem stepped (h : s.engine.gameplayStarted = true → Following p n heard s) (hw : Wf p s)
    (ht : Tallied s)
    (hr : s.engine.gameplayStarted = false → s.engine.random = randomAfter p n)
    (hu : Understood s env) (hs : Stepped env s s' out)
    (hs' : s'.engine.gameplayStarted = true) :
    Following p n (listen p heard ⟨s, env, out, s'⟩) s' := by
  have hmove : ∀ {point' : Point} {handler : ServerTcpHandler},
      s.engine.gameplayStarted = true → s.point ≠ .top → s.handledMessage env = none →
      point'.sent = s.point.sent → s.point.served ≤ point'.served →
      Following p n (listen p heard ⟨s, env, out, ⟨s.engine.withHandler handler, point'⟩⟩)
        ⟨s.engine.withHandler handler, point'⟩ := by
    intro point' handler hstart hne hnone hp hle
    have hsilent : orders p ⟨s, env, out, ⟨s.engine.withHandler handler, point'⟩⟩ = [] :=
      orders_of_none hnone
    have hstill : Following p n heard ⟨s.engine.withHandler handler, point'⟩ :=
      (h hstart).still hp hle
    simpa [listen, hstart, hne, hsilent] using hstill
  have hnext : ∀ {i : Slot}, (Point.client i).served ≤ (nextClient i).served := by
    intro i
    rw [served_nextClient]
    exact Nat.sub_le ..
  cases hs with
  | lobby hstart => exact Bool.noConfusion (hstart.symm.trans hs')
  | @openTurn e e' hstart hb =>
    obtain ⟨hlt, he, hd⟩ := hw.closed rfl hstart
    obtain ⟨-, rfl⟩ := hw.opened hstart hb
    rw [← hw.params] at hlt
    have hstill : Following p n heard ⟨e.withHandler e.tcpHandler.resetRevents, .top⟩ :=
      (h hstart).still rfl le_rfl
    simpa [listen, hstart] using hstill.opened hlt he hd
  | quiet hp => exact hmove hs' Point.noConfusion rfl rfl (Nat.zero_le _)
  | polled hp => exact hmove hs' Point.noConfusion rfl rfl le_rfl
  | noClient hn => exact hmove hs' Point.noConfusion rfl rfl le_rfl
  | full hn hf => exact hmove hs' Point.noConfusion rfl rfl le_rfl
  | greet hn hf he =>
    subst he
    exact hmove hs' Point.noConfusion rfl rfl le_rfl
  | @noMessage e i hm =>
    have hnone : handledMessage ⟨e, .client i⟩ env = none := by
      simp [handledMessage, hm]
    exact hmove hs' Point.noConfusion hnone sent_nextClient hnext
  | @refused e i hm hrec =>
    have hnone : handledMessage ⟨e, .client i⟩ env = none := by
      simp [handledMessage, hrec]
    exact hmove hs' Point.noConfusion hnone sent_nextClient hnext
  | @handled e e' i msg sent hm hrec hh =>
    have hmsg : handledMessage ⟨e, .client i⟩ env = some (i, msg) :=
      handledMessage_eq_some_iff.mpr ⟨rfl, hm, hrec⟩
    have hphase : Lobby e ∨ Gameplay e := hw.phase
    rcases hphase with hl | hg
    · have hlisten : listen p heard ⟨⟨e, .client i⟩, env, out, ⟨e', nextClient i⟩⟩ = ([], []) := by
        simp [listen, hl.started]
      rw [hlisten]
      rcases hh.lobby hl with ⟨-, rfl, -⟩ | ⟨player, -, -, rfl, -⟩ | ⟨player, sent', -, hn, hg, -⟩
      · exact Bool.noConfusion (hl.started.symm.trans hs')
      · exact Bool.noConfusion (hl.started.symm.trans hs')
      · exact .start hl hn hg hw.params (hr hl.started) ht
    · have hlisten : listen p heard ⟨⟨e, .client i⟩, env, out, ⟨e', nextClient i⟩⟩ =
          (heard.1, heard.2 ++ orders p ⟨⟨e, .client i⟩, env, out, ⟨e', nextClient i⟩⟩) := by
        simp [listen, hg.started]
      rw [hlisten]
      exact (h hg.started).handled hw hg hmsg hu hh
  | rest hstart => exact Bool.noConfusion (hstart.symm.trans hs')
  | @send e e' sent hstart hsend =>
    have hlisten : listen p heard ⟨⟨e, .bottom⟩, env, out, ⟨e', .broadcast⟩⟩ = heard := by
      simp [listen, hstart, orders, handledMessage]
    rw [hlisten]
    exact (h hstart).sent (hw.gameplay hstart) hw.params ht hsend
  | @finish e =>
    have hstart : e.gameplayStarted = true := hw.playing rfl
    have hlisten : listen p heard
        ⟨⟨e, .broadcast⟩, env, e.finishTurn.2, ⟨e.finishTurn.1, .top⟩⟩ = heard := by
      simp [listen, hstart, orders, handledMessage]
    rw [hlisten]
    unfold finishTurn at hs' ⊢
    dsimp only at hs' ⊢
    split at hs'
    · cases hs'
    · rw [if_neg ‹_›]
      exact (h hstart).closed

theorem broadcast (h : Following p n heard s) (hp : s.point = .broadcast) :
    Keeps s.engine ∅ (p.rules.play n (heard.1 ++ [heard.2])) := by
  have hsent : s.point.sent = 1 := by rw [hp, Point.sent_broadcast]
  have hkeeps := h.keeps
  rw [gone_of_sent hsent, reached, if_pos hsent] at hkeeps
  exact hkeeps

end Following

section Runs

variable {tr tr' : List (Machine.Step (Server (StdSet Position)) Env Sending)}

theorem run_following (h : (machine (StdSet Position) p).Run tr s)
    (hu : ∀ t ∈ tr, Understood t.pre t.input) (hs : s.engine.gameplayStarted = true) :
    Following p (drawnBefore p (broadcasts (Machine.log tr))) (Server.heard p tr) s := by
  have hc := playersCount_pos h hs
  revert hs
  refine h.invariant_of (C := Understood) (I := fun tr s => s.engine.gameplayStarted = true →
    Following p (drawnBefore p (broadcasts (Machine.log tr))) (Server.heard p tr) s) hu
    (fun hs => Bool.noConfusion hs) ?_
  intro tr s env s' out hr hI hu hstep hs'
  have hstepped := step_stepped hstep
  obtain ⟨hw, hb⟩ := run_wf_below hc hr
  have hnone : drawnBefore p (broadcasts out) = 0 :=
    (hw.played hb.room hstepped).drawnBefore_eq hs'
  have hlog : drawnBefore p (broadcasts (Machine.log (tr ++ [⟨s, env, out, s'⟩]))) =
      drawnBefore p (broadcasts (Machine.log tr)) := by
    simp [drawnBefore_append, hnone]
  rw [hlog, heard_concat]
  exact .stepped hI hw (run_tallied hc hr) (run_drawn hc hr).random_of_lobby hu hstepped hs'

/--
Whenever a turn is broadcast, the engine keeps the board to which the rules of the game lead from
the positions drawn with the commands of the turns so far, at most one for each robot in a turn.
-/
theorem run_plays (h : (machine (StdSet Position) p).Run tr s)
    (hu : ∀ t ∈ tr, Understood t.pre t.input) (hp : s.point = .broadcast) :
    (turnsHeard p tr).length = s.engine.currentTurn.toNat + 1 ∧
    (∀ orders ∈ turnsHeard p tr, (orders.map Prod.fst).Nodup) ∧
    Keeps s.engine ∅ (p.rules.play (drawnBefore p (broadcasts (Machine.log tr)))
      (turnsHeard p tr)) := by
  have hfollow := run_following h hu (started_of_broadcast h hp)
  refine ⟨?_, hfollow.once, hfollow.broadcast hp⟩
  rw [turnsHeard, List.length_append, hfollow.turns, List.length_singleton]

/--
Where the same number of positions has been drawn for earlier games and the same commands have
been given, the game stands the same, whatever the connections, the slots and the passes of the
loop have been.
-/
theorem run_plays_eq (h : (machine (StdSet Position) p).Run tr s)
    (h' : (machine (StdSet Position) p).Run tr' s') (hu : ∀ t ∈ tr, Understood t.pre t.input)
    (hu' : ∀ t ∈ tr', Understood t.pre t.input) (hp : s.point = .broadcast)
    (hp' : s'.point = .broadcast)
    (hdrawn : drawnBefore p (broadcasts (Machine.log tr)) =
      drawnBefore p (broadcasts (Machine.log tr')))
    (hheard : turnsHeard p tr = turnsHeard p tr') :
    s.engine.playersPositions = s'.engine.playersPositions ∧
      s.engine.blocksPositions = s'.engine.blocksPositions ∧ s.engine.bombs = s'.engine.bombs ∧
      s.engine.nextBombId = s'.engine.nextBombId ∧ s.engine.scores = s'.engine.scores ∧
      s.engine.random = s'.engine.random ∧ s.engine.currentTurn = s'.engine.currentTurn := by
  have hs := started_of_broadcast h hp
  have hs' := started_of_broadcast h' hp'
  have hg := (run_wf (playersCount_pos h hs) h).gameplay hs
  have hg' := (run_wf (playersCount_pos h' hs') h').gameplay hs'
  have hfollow := run_following h hu hs
  have hfollow' := run_following h' hu' hs'
  have hkeeps : Keeps s.engine ∅ (p.rules.play _ (turnsHeard p tr)) := hfollow.broadcast hp
  have hkeeps' : Keeps s'.engine ∅ (p.rules.play _ (turnsHeard p tr')) := hfollow'.broadcast hp'
  rw [hdrawn, hheard] at hkeeps
  refine ⟨hkeeps.playersPositions_eq hkeeps' hg hg', hkeeps.blocksPositions_eq hkeeps',
    hkeeps.bombs_eq hkeeps', hkeeps.nextBombId_eq hkeeps', hkeeps.scores_eq hkeeps' hg hg',
    hkeeps.random.trans hkeeps'.random.symm, ?_⟩
  have hlen := congrArg List.length hheard
  simp only [turnsHeard, List.length_append, hfollow.turns, hfollow'.turns] at hlen
  exact UInt16.toNat_inj.mp (Nat.add_right_cancel hlen)

end Runs

end Following

instance : NeZero solo.sizeX.toNat := ⟨by decide⟩

instance : NeZero solo.sizeY.toNat := ⟨by decide⟩

def soloRobot : solo.Robot := ⟨0, by decide⟩

theorem run_plays_fuses : ∃ tr s, (machine (StdSet Position) solo).Run tr s ∧
    s.point = .broadcast ∧
    Keeps s.engine ∅ (solo.rules.play 0 [[], [(soloRobot, .bomb)], [(soloRobot, .bomb)], []]) := by
  have hcheck : (machine (StdSet Position) solo).check fuses (fun tr s =>
      s.point = .broadcast ∧ (∀ t ∈ tr, Understood t.pre t.input) ∧
      drawnBefore solo (broadcasts (Machine.log tr)) = 0 ∧
      turnsHeard solo tr = [[], [(soloRobot, .bomb)], [(soloRobot, .bomb)], []]) = true := by
    decide +kernel
  obtain ⟨tr, s, h, htest⟩ := Machine.run_of_check hcheck
  obtain ⟨hp, hu, hdrawn, hheard⟩ := of_decide_eq_true htest
  have hkeeps := (run_plays h hu hp).2.2
  rw [hdrawn, hheard] at hkeeps
  exact ⟨tr, s, h, hp, hkeeps⟩

def fusesBehind : List Env :=
  pass false (.ready [0] ⟨some 6, []⟩ none) ++ pass false (.ready [0] ⟨some 5, []⟩ none) ++
    pass true (.ready [2] ⟨none, []⟩ (some [0, 0])) ++
    (List.replicate 2 (pass true (.ready [2] ⟨none, []⟩ (some [1])))).flatten ++
    (pass true (.ready [] ⟨none, []⟩ none)).dropLast

theorem run_plays_eq_fuses : ∃ tr s tr' s', (machine (StdSet Position) solo).Run tr s ∧
    (machine (StdSet Position) solo).Run tr' s' ∧ s.engine.playerIds[(1 : Slot)]? = some 0 ∧
    s'.engine.playerIds[(1 : Slot)]? = none ∧ s.engine.bombs.size = 1 ∧
    s.engine.bombs = s'.engine.bombs := by
  have hcheck : (machine (StdSet Position) solo).check fuses (fun tr s =>
      s.point = .broadcast ∧ (∀ t ∈ tr, Understood t.pre t.input) ∧
      drawnBefore solo (broadcasts (Machine.log tr)) = 0 ∧
      turnsHeard solo tr = [[], [(soloRobot, .bomb)], [(soloRobot, .bomb)], []] ∧
      s.engine.playerIds[(1 : Slot)]? = some 0 ∧ s.engine.bombs.size = 1) = true := by
    decide +kernel
  have hcheck' : (machine (StdSet Position) solo).check fusesBehind (fun tr s =>
      s.point = .broadcast ∧ (∀ t ∈ tr, Understood t.pre t.input) ∧
      drawnBefore solo (broadcasts (Machine.log tr)) = 0 ∧
      turnsHeard solo tr = [[], [(soloRobot, .bomb)], [(soloRobot, .bomb)], []] ∧
      s.engine.playerIds[(1 : Slot)]? = none) = true := by
    decide +kernel
  obtain ⟨tr, s, h, htest⟩ := Machine.run_of_check hcheck
  obtain ⟨tr', s', h', htest'⟩ := Machine.run_of_check hcheck'
  obtain ⟨hp, hu, hdrawn, hheard, hid, hsize⟩ := of_decide_eq_true htest
  obtain ⟨hp', hu', hdrawn', hheard', hid'⟩ := of_decide_eq_true htest'
  have heq := run_plays_eq h h' hu hu' hp hp' (hdrawn.trans hdrawn'.symm)
    (hheard.trans hheard'.symm)
  exact ⟨tr, s, tr', s', h, h', hid, hid', hsize, heq.2.2.1⟩

end Server

end Bomberrobots
