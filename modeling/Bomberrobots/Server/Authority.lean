import Bomberrobots.Server.Safety

/-! # Who steers a robot

A robot obeys the slot that `player_ids` has for it. Closing a connection does not
release the slot from `player_ids`, so the next connection in it inherits the robot.
-/

namespace Bomberrobots

namespace GameEngine

variable {β : Type} {e e' : GameEngine β} {i : Slot} {u : Position} {msg : ClientMessage}
  {sent : List Sending}

/-- What a client without a robot must leave alone. -/
structure Untouched (e e' : GameEngine β) : Prop where
  players : e'.players = e.players
  positions : e'.playersPositions = e.playersPositions
  blocks : e'.blocksPositions = e.blocksPositions
  bombs : e'.bombs = e.bombs
  scores : e'.scores = e.scores
  nextBomb : e'.nextBombId = e.nextBombId
  events : e'.turns.map TurnInfo.events = e.turns.map TurnInfo.events

theorem Untouched.refl : Untouched e e := ⟨rfl, rfl, rfl, rfl, rfl, rfl, rfl⟩

theorem not_untouched {event : Event} (hg : Gameplay e)
    (ht : e'.turns = logEvents e.turns e.currentTurn.toNat [event]) : ¬ Untouched e e' := by
  intro h
  have hall : allEvents e'.turns = allEvents e.turns := by
    rw [allEvents, allEvents, List.flatMap_def, List.flatMap_def, h.events]
  rw [ht, allEvents_logEvents hg.length.symm] at hall
  simpa using congrArg List.length hall

variable [PositionSet β]

/-- The slot has a robot that is not destroyed, and the message is a legal action of it. -/
def Steers (e : GameEngine β) (i : Slot) (u : Position) (msg : ClientMessage) : Prop :=
  ∃ id, e.actingPlayer i = some id ∧
    match msg with
    | .join _ => False
    | .placeBomb => True
    | .placeBlock => True
    | .move d => ∃ pos, e.playersPositions[id]? = some pos ∧
        e.checkPositionToMove (newPosition pos u d) = true

theorem Handled.untouched_iff (h : Handled e i u msg e' sent) (hg : Gameplay e) :
    Untouched e e' ↔ ¬ Steers e i u msg := by
  have hs : e.gameplayStarted ≠ false := by simp [hg.started]
  cases h with
  | late hs' => exact iff_of_true .refl fun ⟨_, _, hj⟩ => hj
  | join hs' ha hn => exact absurd hs' hs
  | start hs' ha hn hg' => exact absurd hs' hs
  | idle hm ha =>
    refine iff_of_true .refl ?_
    rintro ⟨id, hid, -⟩
    cases ha.symm.trans hid
  | bomb ha hp => exact iff_of_false (not_untouched hg rfl) (not_not_intro ⟨_, ha, trivial⟩)
  | block ha hp => exact iff_of_false (not_untouched hg rfl) (not_not_intro ⟨_, ha, trivial⟩)
  | stay ha hp hc =>
    refine iff_of_true .refl ?_
    rintro ⟨id, hid, pos, hpos, hlegal⟩
    obtain rfl := Option.some.inj (ha.symm.trans hid)
    obtain rfl := Option.some.inj (hp.symm.trans hpos)
    exact Bool.noConfusion (hc.symm.trans hlegal)
  | move ha hp hc =>
    exact iff_of_false (not_untouched hg rfl) (not_not_intro ⟨_, ha, _, hp, hc⟩)

end GameEngine

namespace Server

open GameEngine

variable {β : Type} {s s' : Server β} {env : Env} {out : List Sending} {i : Slot}
  {tr : List (Machine.Step (Server β) Env Sending)}

def endsGame (t : Machine.Step (Server β) Env Sending) : Bool :=
  t.pre.engine.gameplayStarted && !t.post.engine.gameplayStarted

def joinsGame (i : Slot) (t : Machine.Step (Server β) Env Sending) : Bool :=
  !t.pre.engine.gameplayStarted &&
    (t.pre.handledMessage t.input).any fun received => received.1 = i && received.2.isJoin

/-- Whether the connection that holds a slot now has had a Join accepted for the current game. -/
def hasJoined (i : Slot) (tr : List (Machine.Step (Server β) Env Sending)) : Bool :=
  tr.foldl (fun joined t =>
    if t.pre.acceptedSlot = some i || endsGame t then false else joined || joinsGame i t) false

/-- A step of a running game that receives bytes from a connection without an accepted Join. -/
structure Stranger (before : List (Machine.Step (Server β) Env Sending))
    (t : Machine.Step (Server β) Env Sending) (i : Slot) : Prop where
  started : t.pre.engine.gameplayStarted = true
  point : t.pre.point = .client i
  received : t.pre.engine.tcpHandler.isMessageFrom i = true
  unjoined : hasJoined i before = false

variable [PositionSet β] {p : ServerParameters}

theorem Stepped.untouched_iff (h : Stepped env s s' out) (hg : Gameplay s.engine)
    (hp : s.point = .client i) (hm : s.engine.tcpHandler.isMessageFrom i = true) :
    Untouched s.engine s'.engine ↔
      ∀ msg ∈ receivedMessage env.received, ¬ Steers s.engine i env.uninitialised msg := by
  cases h with
  | noMessage hn =>
    obtain rfl := Point.client.inj hp
    exact Bool.noConfusion (hm.symm.trans hn)
  | refused hn hr =>
    rw [hr]
    exact iff_of_true ⟨rfl, rfl, rfl, rfl, rfl, rfl, rfl⟩ (by simp)
  | handled hn hr hh =>
    obtain rfl := Point.client.inj hp
    rw [hh.untouched_iff hg, hr]
    simp
  | _ => cases hp

/--
Clients that have not joined leave the game alone exactly as long as none of them sends
an action from a slot whose robot was joined by an earlier connection.
-/
theorem strangers_untouched_iff (h : (machine β p).Run tr s) :
    (∀ before t after i, tr = before ++ t :: after → Stranger before t i →
      Untouched t.pre.engine t.post.engine) ↔
    ∀ before t after i, tr = before ++ t :: after → Stranger before t i →
      ∀ msg ∈ receivedMessage t.input.received,
        ¬ Steers t.pre.engine i t.input.uninitialised msg := by
  have hstep : ∀ before t after i, tr = before ++ t :: after → Stranger before t i →
      (Untouched t.pre.engine t.post.engine ↔ ∀ msg ∈ receivedMessage t.input.received,
        ¬ Steers t.pre.engine i t.input.uninitialised msg) := by
    rintro before t after i rfl ht
    obtain ⟨hrun, hs, -⟩ := h.at_step
    have hg := (run_wf (playersCount_pos hrun ht.started) hrun).gameplay ht.started
    exact (step_stepped hs).untouched_iff hg ht.point ht.received
  constructor
  · intro hall before t after i he ht
    exact (hstep before t after i he ht).mp (hall before t after i he ht)
  · intro hall before t after i he ht
    exact (hstep before t after i he ht).mpr (hall before t after i he ht)

/-- The player leaves, and a client that takes the free slot places a bomb. -/
def heir : List Env :=
  soloJoin ++ pass true (.ready [1] ⟨none, []⟩ (some [])) ++
    pass true (.ready [0] ⟨some 6, []⟩ none) ++ pass true (.ready [1] ⟨none, []⟩ (some [1]))

theorem exists_stranger : ∃ before t after s,
    (machine (StdSet Position) solo).Run (before ++ t :: after) s ∧ Stranger before t 1 ∧
    receivedMessage t.input.received = some .placeBomb ∧
    t.pre.engine.actingPlayer 1 = some 0 ∧
    t.post.engine.nextBombId ≠ t.pre.engine.nextBombId := by
  have hcheck : (machine (StdSet Position) solo).check heir (fun tr _ =>
      match tr.drop 122 with
      | [] => false
      | t :: _ => t.pre.engine.gameplayStarted = true ∧ t.pre.point = .client 1 ∧
          t.pre.engine.tcpHandler.isMessageFrom 1 = true ∧ hasJoined 1 (tr.take 122) = false ∧
          receivedMessage t.input.received = some .placeBomb ∧
          t.pre.engine.actingPlayer 1 = some 0 ∧
          t.post.engine.nextBombId ≠ t.pre.engine.nextBombId) = true := by
    decide +kernel
  obtain ⟨tr, s, h, htest⟩ := Machine.run_of_check hcheck
  rw [← List.take_append_drop 122 tr] at h
  split at htest
  · cases htest
  · rename_i t after hdrop
    rw [hdrop] at h
    obtain ⟨hstart, hpoint, hfrom, hjoined, hmsg, hacting, hbomb⟩ := of_decide_eq_true htest
    exact ⟨_, t, after, s, h, ⟨hstart, hpoint, hfrom, hjoined⟩, hmsg, hacting, hbomb⟩

theorem strangers_untouched_iff_heir : ∃ tr s, (machine (StdSet Position) solo).Run tr s ∧
    ¬ ∀ before t after i, tr = before ++ t :: after → Stranger before t i →
      Untouched t.pre.engine t.post.engine := by
  obtain ⟨before, t, after, s, h, hstranger, hmsg, hacting, -⟩ := exists_stranger
  refine ⟨_, s, h, ?_⟩
  rw [strangers_untouched_iff h]
  intro hall
  exact hall before t after 1 rfl hstranger .placeBomb hmsg ⟨0, hacting, trivial⟩

/-- A client that has not joined can place a bomb. -/
theorem exists_stranger_touches :
    ¬ ∀ p tr s, (machine (StdSet Position) p).Run tr s → ∀ before t after i,
      tr = before ++ t :: after → Stranger before t i →
        Untouched t.pre.engine t.post.engine := by
  intro hall
  obtain ⟨before, t, after, s, h, hstranger, -, -, hbomb⟩ := exists_stranger
  exact hbomb (hall solo _ s h before t after 1 rfl hstranger).nextBomb

theorem Stepped.playerIds_of_endsGame (h : Stepped env s s' out)
    (hs : s.engine.gameplayStarted = true) (hs' : s'.engine.gameplayStarted = false) :
    s'.engine.playerIds = ∅ := by
  cases h with
  | openTurn _ hb =>
    obtain ⟨-, t, rfl, rfl⟩ := beginTurn_ticked hb
    exact Bool.noConfusion (hs.symm.trans hs')
  | greet hn hf he =>
    subst he
    exact Bool.noConfusion (hs.symm.trans hs')
  | handled hm hr hh =>
    cases hh with
    | start hl ha hn hg => exact Bool.noConfusion (hs.symm.trans hl)
    | _ => exact Bool.noConfusion (hs.symm.trans hs')
  | send _ ht =>
    obtain ⟨robots, random, turn, -, -, -, rfl, -, -⟩ := sendTurn_ok ht
    exact Bool.noConfusion (hs.symm.trans hs')
  | finish =>
    simp only [finishTurn] at hs' ⊢
    split
    · rfl
    · rename_i hlast
      rw [if_neg hlast] at hs'
      exact Bool.noConfusion (hs.symm.trans hs')
  | _ => exact Bool.noConfusion (hs.symm.trans hs')

theorem Stepped.mem_playerIds (h : Stepped env s s' out) (hi : i ∈ s'.engine.playerIds) :
    i ∈ s.engine.playerIds ∨ joinsGame i ⟨s, env, out, s'⟩ = true := by
  cases h with
  | openTurn _ hb =>
    obtain ⟨-, t, rfl, rfl⟩ := beginTurn_ticked hb
    exact .inl hi
  | greet hn hf he =>
    subst he
    exact .inl hi
  | @handled e e' k msg sent hm hr hh =>
    have hjoined : i ∈ e.playerIds.insert k e.nextPlayerId →
        msg.isJoin = true → e.gameplayStarted = false →
        i ∈ e.playerIds ∨ joinsGame i ⟨⟨e, .client k⟩, env, out, ⟨e', nextClient k⟩⟩ = true := by
      intro hi hj hs
      rcases Std.ExtTreeMap.mem_insert.mp hi with hik | hi
      · obtain rfl := Std.LawfulEqCmp.compare_eq_iff_eq.mp hik
        right
        simp [joinsGame, handledMessage, hm, hr, hj, hs]
      · exact .inl hi
    cases hh with
    | join hs ha hn => exact hjoined hi rfl hs
    | start hs ha hn hg =>
      obtain ⟨robots, blocks, random, -, -, -, -, -, rfl⟩ := startGameplay_ok hg
      exact hjoined hi rfl hs
    | _ => exact .inl hi
  | send _ ht =>
    obtain ⟨robots, random, turn, -, -, -, rfl, -, -⟩ := sendTurn_ok ht
    exact .inl hi
  | finish =>
    simp only [finishTurn] at hi
    split at hi
    · simp [endGameplay] at hi
    · exact .inl hi
  | _ => exact .inl hi

end Server

end Bomberrobots
