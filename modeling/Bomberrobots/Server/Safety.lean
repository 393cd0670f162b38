import Bomberrobots.Server.Sessions

/-! # The safety of the server

The representation invariant of a running game, and the steps at which an exception
escapes from the main loop.
-/

namespace Bomberrobots

namespace Server

open GameEngine

variable {β : Type} [PositionSet β] {p : ServerParameters} {s : Server β} {env : Env}
  {tr : List (Machine.Step (Server β) Env Sending)}

/-- In a running game the state of the engine is consistent in every state between two calls. -/
theorem run_gameplay (h : (machine β p).Run tr s) (hs : s.engine.gameplayStarted = true) :
    s.engine.gameParams = p ∧ Gameplay s.engine := by
  have hw := run_wf (playersCount_pos h hs) h
  exact ⟨hw.params, hw.gameplay hs⟩

/-- A board of nine fields for one player, with bombs that explode in the third turn. -/
def solo : ServerParameters where
  bombTimer := 2
  playersCount := 1
  explosionRadius := 1
  initialBlocks := 0
  gameLength := 3
  serverName := []
  seed := 0
  sizeX := 3
  sizeY := 3

def soloJoin : List Env :=
  pass false (.ready [0] ⟨some 5, []⟩ none) ++ pass true (.ready [1] ⟨none, []⟩ (some [0, 0]))

theorem run_gameplay_solo : ∃ tr s, (machine (StdSet Position) solo).Run tr s ∧
    s.engine.gameplayStarted = true ∧ s.engine.gameParams = solo ∧ Gameplay s.engine := by
  have hcheck : (machine (StdSet Position) solo).check soloJoin
      (fun _ s => s.engine.gameplayStarted) = true := by decide +kernel
  obtain ⟨tr, s, h, hs⟩ := Machine.run_of_check hcheck
  exact ⟨tr, s, h, hs, run_gameplay h hs⟩

/-- A player who has joined sends an action while the game has not started. -/
def LobbyAction (s : Server β) (env : Env) : Prop :=
  s.engine.gameplayStarted = false ∧
    ∃ received ∈ s.handledMessage env, received.2.isJoin = false ∧
      received.1 ∈ s.engine.playerIds

theorem Wf.step_outOfRange_iff (hw : Wf p s) :
    step s env = .error .outOfRange ↔ LobbyAction s env := by
  constructor
  · intro h
    rcases step_error h with ⟨ht, hs, hb⟩ | ⟨i, msg, hp, hm, hr, hh⟩ | ⟨-, hs, ht⟩
    · have hg := hw.gameplay hs
      have hlt := (hw.closed ht hs).1
      rw [← hw.params] at hlt
      exact absurd (beginTurn_error hb (hg.nextTurn hlt)) (by decide)
    · have hi : i ≠ 0 := fun hi => hw.client (hi ▸ hp)
      have haddr := hw.addressed i hi (isSome_fd_of_isMessageFrom hm)
      have hlen : s.engine.currentTurn.toNat ≤ s.engine.turns.length := by
        rcases hw.phase with hl | hg
        · simp [hl.turn]
        · exact hg.currentTurn_lt.le
      cases hj : msg.isJoin with
      | true =>
        cases msg with
        | join name => exact absurd (handleJoin_error hh haddr hlen) (by decide)
        | _ => cases hj
      | false =>
        obtain ⟨id, ha, hn⟩ := handleAction_error hh hj
        rcases hw.phase with hl | hg
        · refine ⟨hl.started, (i, msg), handledMessage_eq_some_iff.mpr ⟨hp, hm, hr⟩, hj, ?_⟩
          rw [Std.ExtTreeMap.mem_iff_isSome_getElem?, (actingPlayer_eq_some.mp ha).1]
          rfl
        · obtain ⟨hpos, hlog⟩ := hg.not_acting ha
          rcases hn with hn | hn
          · exact absurd hpos hn
          · omega
    · have hg := hw.gameplay hs
      have hscores : ∀ id ∈ s.engine.currentPlayersToDestroy, id ∈ s.engine.scores :=
        fun id hid => (hg.registered.scores id).mpr (hg.destroy id hid)
      exact absurd (sendTurn_error ht hg.currentTurn_lt hscores) (by decide)
  · rintro ⟨hs, ⟨i, msg⟩, hm, hj, hi⟩
    obtain ⟨hp, hm, hr⟩ := handledMessage_eq_some_iff.mp hm
    have hl := hw.lobby hs
    obtain ⟨id, hid⟩ := Std.ExtTreeMap.mem_iff_exists_getElem?.mp hi
    have ha : s.engine.actingPlayer i = some id :=
      actingPlayer_eq_some.mpr ⟨hid, by simp [hl.destroy]⟩
    have hn : id ∉ s.engine.playersPositions := by simp [hl.positions]
    obtain ⟨e, point⟩ := s
    obtain rfl : point = .client i := hp
    exact step_error_of_handleClientMessage hm hr (handleAction_outOfRange hj ha hn)

/--
The server dies of an uncaught `std::out_of_range` exactly when a player who has joined
sends an action before the game starts.
-/
theorem exec_outOfRange_iff {inputs : List Env} (hc : 0 < p.playersCount) :
    (machine β p).exec inputs = .error .outOfRange ↔
      ∃ before env after tr s, inputs = before ++ env :: after ∧
        (machine β p).exec before = .ok (tr, s) ∧ LobbyAction s env := by
  rw [Machine.exec_eq_error_iff]
  constructor
  · rintro ⟨before, env, after, tr, s, hi, hb, hs⟩
    exact ⟨before, env, after, tr, s, hi, hb,
      (run_wf hc (Machine.exec_run hb)).step_outOfRange_iff.mp hs⟩
  · rintro ⟨before, env, after, tr, s, hi, hb, ha⟩
    exact ⟨before, env, after, tr, s, hi, hb,
      (run_wf hc (Machine.exec_run hb)).step_outOfRange_iff.mpr ha⟩

def duo : ServerParameters := { solo with playersCount := 2 }

def hasty : List Env :=
  pass false (.ready [0] ⟨some 5, []⟩ none) ++
    pass false (.ready [1] ⟨none, []⟩ (some [0, 0])) ++
    pass false (.ready [1] ⟨none, []⟩ (some [1]))

theorem exec_outOfRange_iff_hasty : ∃ before env after tr s, hasty = before ++ env :: after ∧
    (machine (StdSet Position) duo).exec before = .ok (tr, s) ∧ LobbyAction s env := by
  have hfail : (machine (StdSet Position) duo).failure hasty = some .outOfRange := by
    decide +kernel
  exact (exec_outOfRange_iff (by decide)).mp (Machine.exec_of_failure hfail)

/-- Clients can crash the server. -/
theorem exists_exec_outOfRange : ¬ ∀ p : ServerParameters, 0 < p.playersCount → 0 < p.sizeX →
    0 < p.sizeY → ∀ inputs, (machine (StdSet Position) p).exec inputs ≠ .error .outOfRange := by
  intro h
  have hfail : (machine (StdSet Position) duo).failure hasty = some .outOfRange := by
    decide +kernel
  exact h duo (by decide) (by decide) (by decide) hasty (Machine.exec_of_failure hfail)

end Server

end Bomberrobots
