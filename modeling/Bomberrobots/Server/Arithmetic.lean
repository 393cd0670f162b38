import Bomberrobots.Server.Joins
import Bomberrobots.Server.Lifecycle

/-! # Division by zero and timers that run below zero

The parameters reach the remainders of the seeding and the timers of the bombs as they come
from the command line. A side of length zero takes the server down at the start of the first
game, and a bomb that is placed with no turns to burn is counted down to 65535.
-/

namespace Bomberrobots

namespace GameEngine

variable {β : Type} {e e' : GameEngine β}

def Void (e : GameEngine β) : Prop := e.gameParams.sizeX = 0 ∨ e.gameParams.sizeY = 0

theorem not_void_of_checkPosition {pos : Position} (h : e.checkPosition pos = true) :
    ¬ e.Void := by
  obtain ⟨hx, hy⟩ := checkPosition_iff.mp h
  rw [UInt16.lt_iff_toNat_lt] at hx hy
  rintro (hs | hs)
  · simp [hs] at hx
  · simp [hs] at hy

theorem size_players_joined {i : Slot} {player : Player} :
    (e.joined i player).players.size ≠ 0 := by
  rw [Ne, ← Std.ExtTreeMap.eq_empty_iff_size_eq_zero]
  simp [GameEngine.joined]

variable [PositionSet β]

/-- The loop of `begin_turn` counts a bomb down: it returns from all bombs before it. -/
def CountsDown (e : GameEngine β) (entry : BombId × Bomb) : Prop :=
  ∃ done t, done ++ [entry] <+: e.bombs.toList ∧ done.foldlM tickBomb e.turned = .ok t

theorem CountsDown.mem {entry : BombId × Bomb} (h : e.CountsDown entry) :
    e.bombs[entry.1]? = some entry.2 := by
  obtain ⟨done, t, hp, -⟩ := h
  exact Std.ExtTreeMap.mem_toList_iff_getElem?_eq_some.mp (hp.subset (by simp))

theorem exists_countsDown {id : BombId} (h : id ∈ e.bombs) : ∃ entry, e.CountsDown entry := by
  obtain ⟨bomb, hb⟩ := Std.ExtTreeMap.mem_iff_exists_getElem?.mp h
  have hm := Std.ExtTreeMap.mem_toList_iff_getElem?_eq_some.mpr hb
  cases hl : e.bombs.toList with
  | nil => simp [hl] at hm
  | cons entry entries => exact ⟨entry, [], e.turned, by simp [hl], rfl⟩

theorem not_void_of_startGameplay {sent : List Sending} (hp : e.players.size ≠ 0)
    (hg : e.startGameplay = .ok (e', sent)) : ¬ e.Void := by
  obtain ⟨robots, blocks, random, hk, -, hr, -, -, -⟩ := startGameplay_ok hg
  cases robots with
  | nil =>
    have hsize : e.players.keys.length = e.players.size := Std.ExtTreeMap.length_keys
    rw [← hk] at hsize
    exact absurd hsize.symm hp
  | cons robot robots => exact not_void_of_checkPosition (hr robot List.mem_cons_self)

theorem startGameplay_of_void (hp : e.players.size ≠ 0) (hv : e.Void)
    (hlen : e.currentTurn.toNat ≤ e.turns.length) :
    e.startGameplay = .error .divisionByZero := by
  cases hg : e.startGameplay with
  | ok r => exact absurd hv (not_void_of_startGameplay hp hg)
  | error f => rw [(startGameplay_error hg hlen).1]

end GameEngine

namespace Server

open GameEngine

variable {β : Type} [PositionSet β] {p : ServerParameters} {s s' : Server β} {env : Env}
  {out : List Sending}

/-- A step takes no remainder by zero and counts no timer down that is zero already. -/
structure SafeArithmetic (s : Server β) (env : Env) : Prop where
  remainder : step s env ≠ .error .divisionByZero
  countdown : s.point = .top → s.engine.gameplayStarted = true →
    ∀ entry, s.engine.CountsDown entry → entry.2.timer ≠ 0

/-- The last player joins a game on a board without fields. -/
def StartsVoid (s : Server β) (env : Env) : Prop :=
  s.engine.Void ∧ ∃ i player, s.AcceptsJoin env i player ∧ (s.engine.joined i player).callsStart

/-- A turn is opened with a bomb on the board, in a game whose bombs have no turns to burn. -/
def OpensFuseless (s : Server β) : Prop :=
  s.point = .top ∧ s.engine.gameplayStarted = true ∧ s.engine.gameParams.bombTimer = 0 ∧
    ∃ id, id ∈ s.engine.bombs

structure Steady (s : Server β) : Prop where
  board : s.engine.gameplayStarted = true → ¬ s.engine.Void
  robots : s.engine.gameplayStarted = false → s.engine.playersPositions = ∅
  unburnt : s.engine.gameParams.bombTimer = 0 → ∀ (id : BombId) (bomb : Bomb),
    s.engine.bombs[id]? = some bomb → bomb.timer = 0

namespace Steady

theorem init : Steady (init p : Server β) where
  board hs := by cases hs
  robots _ := rfl
  unburnt _ _ _ hb := by simp [Server.init, GameEngine.new] at hb

theorem handled {e e' : GameEngine β} {i : Slot} {point point' : Point} {u : Position}
    {msg : ClientMessage} {sent : List Sending} (h : Steady ⟨e, point⟩)
    (hh : Handled e i u msg e' sent) : Steady ⟨e', point'⟩ := by
  cases hh with
  | late hs => exact { h with }
  | join hs ha hn => exact { h with }
  | start hs ha hn hg =>
    have hv := not_void_of_startGameplay size_players_joined hg
    obtain ⟨robots, blocks, random, -, -, -, -, -, rfl⟩ := startGameplay_ok hg
    exact ⟨fun _ => hv, fun hs => Bool.noConfusion hs, h.unburnt⟩
  | idle hm ha => exact { h with }
  | @bomb id pos ha hp =>
    refine ⟨h.board, h.robots, fun hT id' bomb hb => ?_⟩
    simp only [GameEngine.bombPlaced, Std.ExtTreeMap.getElem?_insertIfNew] at hb
    split at hb
    · obtain rfl := Option.some.inj hb
      exact hT
    · exact h.unburnt hT id' bomb hb
  | block ha hp => exact { h with }
  | stay ha hp hc => exact { h with }
  | move ha hp hc =>
    refine ⟨h.board, fun hs => ?_, h.unburnt⟩
    have hempty : e.playersPositions = ∅ := h.robots hs
    simp [hempty] at hp

theorem stepped (h : Steady s) (hfuse : ¬ OpensFuseless s) (hs : Stepped env s s' out) :
    Steady s' := by
  cases hs with
  | @openTurn e e' hs hb =>
    obtain ⟨-, t, rfl, rfl⟩ := beginTurn_ticked hb
    refine ⟨h.board, h.robots, fun hT id bomb hbomb => ?_⟩
    simp only [ticked, turned, Std.ExtTreeMap.assign_toList_map fun _ bomb => tickedBomb bomb,
      Std.ExtTreeMap.getElem?_filter', Std.ExtTreeMap.getElem?_map] at hbomb
    obtain ⟨hbomb, -⟩ := Option.filter_eq_some_iff.mp hbomb
    obtain ⟨old, hold, rfl⟩ := Option.map_eq_some_iff.mp hbomb
    have hmem : id ∈ e.bombs := Std.ExtTreeMap.mem_iff_exists_getElem?.mpr ⟨old, hold⟩
    exact absurd ⟨rfl, hs, hT, id, hmem⟩ hfuse
  | greet hn hf he =>
    subst he
    exact { h with }
  | handled hm hr hh => exact h.handled hh
  | send hs ht =>
    obtain ⟨robots, random, turn, -, -, -, rfl, -, -⟩ := sendTurn_ok ht
    exact ⟨h.board, fun hs' => Bool.noConfusion (hs.symm.trans hs'), h.unburnt⟩
  | finish =>
    unfold finishTurn
    dsimp only
    split
    · refine ⟨fun hs => Bool.noConfusion hs, fun _ => rfl, fun _ id bomb hb => ?_⟩
      simp [endGameplay] at hb
    · exact { h with }
  | _ => exact { h with }

end Steady

section Runs

variable {tr : List (Machine.Step (Server β) Env Sending)}

theorem startsVoid_of_handleJoin {i : Slot} {name : Bytes} (h : (machine β p).Run tr s)
    (hm : s.handledMessage env = some (i, .join name))
    (he : s.engine.handleJoin i name = .error .divisionByZero) : StartsVoid s env := by
  have hs : s.engine.gameplayStarted = false := by
    cases hs : s.engine.gameplayStarted with
    | false => rfl
    | true => simp [handleJoin, hs] at he
  cases ha : s.engine.tcpHandler.getAddress i with
  | error f =>
    have hf : f = .outOfRange := by
      unfold ServerTcpHandler.getAddress at ha
      split at ha
      · cases ha
      · exact (Except.error.inj ha).symm
    simp only [handleJoin, hs, Bool.false_eq_true, if_false, ha, hf] at he
    cases he
  | ok address =>
    rw [@handleJoin_eq β _ s.engine i ⟨name, address⟩ hs ha, afterJoin] at he
    split at he
    · rename_i hcalls
      have hc := playersCount_pos_of_callsStart h hs hcalls
      have hturn : s.engine.currentTurn = 0 := ((run_wf hc h).lobby hs).turn
      have hlen : (s.engine.joined i ⟨name, address⟩).currentTurn.toNat ≤
          (s.engine.joined i ⟨name, address⟩).turns.length := by
        simp [GameEngine.joined, hturn]
      rcases Except.bind_eq_error_iff.mp he with he | ⟨r, -, he⟩
      · exact ⟨(startGameplay_error he hlen).2, i, ⟨name, address⟩, ⟨hs, hm, ha⟩, hcalls⟩
      · exact absurd he Except.pure_ne_error
    · cases he

theorem StartsVoid.step_eq (hv : StartsVoid s env) (h : (machine β p).Run tr s) :
    step s env = .error .divisionByZero := by
  obtain ⟨hvoid, i, player, ⟨hs, hm, ha⟩, hcalls⟩ := hv
  have hc := playersCount_pos_of_callsStart h hs hcalls
  have hturn : s.engine.currentTurn = 0 := ((run_wf hc h).lobby hs).turn
  obtain ⟨hp, hmsg, hr⟩ := handledMessage_eq_some_iff.mp hm
  obtain ⟨e, point⟩ := s
  obtain rfl : point = .client i := hp
  apply step_error_of_handleClientMessage hmsg hr
  have hstart : (e.joined i player).startGameplay = .error .divisionByZero :=
    startGameplay_of_void size_players_joined hvoid (by
      have hturn' : e.currentTurn = 0 := hturn
      simp [GameEngine.joined, hturn'])
  apply (handleJoin_eq hs ha).trans
  rw [afterJoin, if_pos hcalls, hstart]
  rfl

theorem Steady.startsVoid (hI : Steady s) (h : (machine β p).Run tr s)
    (he : step s env = .error .divisionByZero) : StartsVoid s env := by
  rcases step_error he with ⟨ht, hs, hb⟩ | ⟨i, msg, hp, hm, hr, hh⟩ | ⟨-, hs, ht⟩
  · have hw := run_wf (playersCount_pos h hs) h
    have hlt := (hw.closed ht hs).1
    rw [← hw.params] at hlt
    exact absurd (beginTurn_error hb ((hw.gameplay hs).nextTurn hlt)) (by decide)
  · cases hj : msg.isJoin with
    | true =>
      cases msg with
      | join name =>
        exact startsVoid_of_handleJoin h (handledMessage_eq_some_iff.mpr ⟨hp, hm, hr⟩) hh
      | _ => cases hj
    | false =>
      obtain ⟨id, ha, hn⟩ := handleAction_error hh hj
      cases hs : s.engine.gameplayStarted with
      | false =>
        have hnone : id ∉ s.engine.playersPositions := by simp [hI.robots hs]
        exact absurd (hh.symm.trans (handleAction_outOfRange hj ha hnone)) (by simp)
      | true =>
        obtain ⟨hpos, hlog⟩ := ((run_wf (playersCount_pos h hs) h).gameplay hs).not_acting ha
        rcases hn with hn | hn
        · exact absurd hpos hn
        · omega
  · have hg := (run_wf (playersCount_pos h hs) h).gameplay hs
    have hscores : ∀ id ∈ s.engine.currentPlayersToDestroy, id ∈ s.engine.scores :=
      fun id hid => (hg.registered.scores id).mpr (hg.destroy id hid)
    exact absurd (sendTurn_error_sizes ht hg.currentTurn_lt hscores).2 (hI.board hs)

theorem Steady.safeArithmetic_iff (hI : Steady s) (h : (machine β p).Run tr s) :
    SafeArithmetic s env ↔ ¬ StartsVoid s env ∧ ¬ OpensFuseless s := by
  constructor
  · rintro ⟨hdiv, hcount⟩
    refine ⟨fun hv => hdiv (hv.step_eq h), ?_⟩
    rintro ⟨hp, hs, hT, id, hid⟩
    obtain ⟨entry, hentry⟩ := exists_countsDown hid
    exact hcount hp hs entry hentry (hI.unburnt hT _ _ hentry.mem)
  · rintro ⟨hvoid, hfuse⟩
    refine ⟨fun he => hvoid (hI.startsVoid h he), fun hp hs entry hentry hzero => ?_⟩
    have hT : s.engine.gameParams.bombTimer ≠ 0 := fun hT =>
      hfuse ⟨hp, hs, hT, entry.1, Std.ExtTreeMap.mem_iff_exists_getElem?.mpr ⟨_, hentry.mem⟩⟩
    have hw := run_wf (playersCount_pos h hs) h
    rw [hw.params] at hT
    have hpos : 0 < p.bombTimer := UInt16.pos_iff_ne_zero.mpr hT
    have hlive := ((run_lifecycle hpos h hs).live _ _ hentry.mem).1
    simp [hzero] at hlive

/--
No remainder by zero is taken and no timer is counted down below zero, exactly as long as no
game starts on a board with a side of length zero and no turn is opened with a bomb on the
board while the timer of the bombs is zero.
-/
theorem always_safeArithmetic_iff {inputs : List Env} :
    (machine β p).Always inputs SafeArithmetic ↔
      (machine β p).Always inputs fun s env => ¬ StartsVoid s env ∧ ¬ OpensFuseless s := by
  apply Machine.always_congr (I := Steady) Steady.init
  · intro tr s env s' out _ hI hB hs
    exact hI.stepped hB.2 (step_stepped hs)
  · intro tr s env h hI
    exact hI.safeArithmetic_iff h

end Runs

def plain : Options where
  bombTimer := 2
  playersCountU16 := 1
  turnDuration := 100
  explosionRadius := 1
  initialBlocks := 0
  gameLength := 3
  serverName := []
  port := 2022
  seed := 0
  sizeX := 3
  sizeY := 3
  help := false

def fuseless : List Env := soloJoin ++ pass true (.ready [1] ⟨none, []⟩ (some [1]))

/-- Each of the two parameters does harm where the other one does none. -/
theorem exists_not_safeArithmetic :
    (¬ ∀ options parsed, parseParameters (some options) = .ok parsed → 0 < options.bombTimer →
      ∀ inputs, (machine (StdSet Position) parsed.toServerParameters).Always inputs
        SafeArithmetic) ∧
    ¬ ∀ options parsed, parseParameters (some options) = .ok parsed → 0 < options.sizeX →
      0 < options.sizeY → ∀ inputs, (machine (StdSet Position) parsed.toServerParameters).Always
        inputs SafeArithmetic := by
  constructor
  · intro h
    have hfail : (machine (StdSet Position) { solo with sizeX := 0 }).failure soloJoin =
        some .divisionByZero := by decide +kernel
    obtain ⟨before, env, after, tr, s, hi, hb, hs⟩ :=
      Machine.exec_eq_error_iff.mp (Machine.exec_of_failure hfail)
    have hsafe := h { plain with sizeX := 0 } _ rfl (by decide) soloJoin
    exact (hsafe before env after tr s hi hb).remainder hs
  · intro h
    have hcheck : (machine (StdSet Position) { solo with bombTimer := 0 }).check fuseless
        (fun _ s => s.point = .top ∧ s.engine.gameplayStarted ∧
          s.engine.bombs.toList.head?.map (fun entry => entry.2.timer) = some 0) = true := by
      decide +kernel
    obtain ⟨tr, s, hb, htest⟩ := Machine.exec_of_check hcheck
    obtain ⟨hp, hs, hhead⟩ := of_decide_eq_true htest
    obtain ⟨entry, hentry, htimer⟩ := Option.map_eq_some_iff.mp hhead
    obtain ⟨entries, hlist⟩ := List.head?_eq_some_iff.mp hentry
    have hsafe := h { plain with bombTimer := 0 } _ rfl (by decide) (by decide)
      (fuseless ++ [.ready [] ⟨none, []⟩ none])
    have hcount := (hsafe fuseless _ [] tr s rfl hb).countdown hp hs entry
    exact hcount ⟨[], s.engine.turned, by simp [hlist], rfl⟩ htimer

end Server

end Bomberrobots
