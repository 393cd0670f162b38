import Bomberrobots.Library.Lists
import Bomberrobots.Server.Safety

/-! # The broadcast protocol

The messages for all clients come in rounds, one for each game: the accepted players,
the start, the turns, the end. A turn that has been broadcast is closed.
-/

namespace Bomberrobots

/-- What a message says about the course of a game. -/
inductive Shape
  | hello
  | accepted (id : ℕ)
  | started
  | turn (k : ℕ)
  | ended
  deriving DecidableEq

def ServerMessage.shape : ServerMessage → Shape
  | .hello .. => .hello
  | .acceptedPlayer id _ => .accepted id.toNat
  | .gameStarted _ => .started
  | .turn info => .turn info.turn.toNat
  | .gameEnded _ => .ended

theorem ServerMessage.shape_eq_ended {msg : ServerMessage} (h : msg.shape = .ended) :
    ∃ scores, msg = .gameEnded scores := by
  cases msg with
  | gameEnded scores => exact ⟨scores, rfl⟩
  | _ => cases h

/-- The broadcasts of a running game of `c` players after `k` turns. -/
def course (c k : ℕ) : List Shape :=
  (List.range c).map .accepted ++ .started :: (List.range k).map .turn

/-- The broadcasts of one game of `c` players with the last turn `L`. -/
def round (c L : ℕ) : List Shape := course c (L + 1) ++ [.ended]

theorem ended_not_mem_course {c k : ℕ} : .ended ∉ course c k := by
  simp [course]

theorem count_ended_round {c L : ℕ} : (round c L).count .ended = 1 := by
  rw [round, List.count_append, List.count_eq_zero.mpr ended_not_mem_course]
  rfl

namespace Server

open GameEngine

variable {β : Type} {s s' : Server β}

/-- How many turns of the running game have been broadcast. -/
def turnsSent (s : Server β) : ℕ := s.engine.currentTurn.toNat + s.point.sent

/-- The broadcasts of the round that the server is in. -/
def progress (s : Server β) : List Shape :=
  if s.engine.gameplayStarted then course s.engine.gameParams.playersCount.toNat s.turnsSent
  else (List.range s.engine.nextPlayerId.toNat).map .accepted

theorem ended_not_mem_progress : .ended ∉ s.progress := by
  unfold progress
  split
  · exact ended_not_mem_course
  · simp

variable [PositionSet β] {p : ServerParameters} {env : Env}

theorem Played.progress {msgs : List ServerMessage} (h : Played env s s' msgs) :
    s.progress ++ msgs.map ServerMessage.shape = s'.progress ∨
    s.progress ++ msgs.map ServerMessage.shape =
      round s.engine.gameParams.playersCount.toNat s.engine.gameParams.gameLength.toNat ∧
      s'.progress = [] := by
  cases h with
  | @still e point point' handler hp =>
    left
    cases hs : e.gameplayStarted with
    | false => simp [Server.progress, withHandler, hs]
    | true => simp [Server.progress, withHandler, turnsSent, hs, hp hs]
  | @joined e i player hl hlt hn =>
    left
    have hs := hl.started
    have hnext : (e.joined i player).nextPlayerId.toNat = _ := toNat_joined hlt
    simp only [Server.progress, hnext]
    simp [GameEngine.joined, hs, List.range_succ, ServerMessage.shape]
  | started hl hn hg =>
    left
    have hs := hl.started
    have ht := hl.turn
    rw [hl.size_joined] at hn
    obtain ⟨robots, blocks, random, -, -, -, -, -, rfl⟩ := startGameplay_ok hg
    simp [Server.progress, course, turnsSent, GameEngine.joined, hs, ht, ← hn, List.range_succ,
      ServerMessage.shape]
  | @acted e e' i msg hg hm hr hh =>
    left
    obtain ⟨events, hlog⟩ := hh.logged hg
    simp [Server.progress, course, turnsSent, hlog.started, hlog.params, hlog.turn, hg.started]
  | @opened e handler hg hlt he hd =>
    left
    have hn := hg.nextTurn hlt
    rw [hg.length] at hn
    simp [Server.progress, course, turnsSent, withHandler, GameEngine.opened, hg.started, hn]
  | sent hg hr hc ht =>
    left
    have hturn := (hg.respawned hr).numbered _ _ ht
    simp [Server.progress, course, turnsSent, GameEngine.respawned, seeded, hg.started,
      ServerMessage.shape, hturn, List.range_succ]
  | @closed e hg hlt =>
    left
    simp [Server.progress, course, turnsSent, settled, hg.started]
  | ended hg hlast =>
    right
    simp [Server.progress, course, turnsSent, hg.started, endGameplay, round, hlast,
      ServerMessage.shape]

/-- The broadcasts of a run are whole rounds, one for each finished game, and the current round. -/
theorem run_progress {tr : List (Machine.Step (Server β) Env Sending)} (hc : 0 < p.playersCount)
    (h : (machine β p).Run tr s) :
    ∃ n, (broadcasts (Machine.log tr)).map ServerMessage.shape =
      (List.replicate n (round p.playersCount.toNat p.gameLength.toNat)).flatten ++
        s.progress := by
  refine run_played (I := fun msgs s => ∃ n, msgs.map ServerMessage.shape =
    (List.replicate n (round p.playersCount.toNat p.gameLength.toNat)).flatten ++ s.progress)
    hc h ⟨0, rfl⟩ ?_
  rintro env msgs s s' new hw ⟨n, hn⟩ hs
  rw [List.map_append, hn, List.append_assoc]
  rcases hs.progress with hp | ⟨hp, hp'⟩
  · exact ⟨n, by rw [hp]⟩
  · refine ⟨n + 1, ?_⟩
    rw [hp, hp', hw.params, List.append_nil, List.replicate_succ', List.flatten_concat]

theorem turnsSent_le (hw : Wf p s) (hg : Gameplay s.engine) :
    s.turnsSent ≤ p.gameLength.toNat + 1 := by
  have hle := UInt16.le_iff_toNat_le.mp hg.bounded
  rw [hw.params] at hle
  have hpoint : s.point.sent ≤ 1 := by
    unfold Point.sent
    split <;> omega
  unfold turnsSent
  omega

theorem Wf.isPrefix_round (hw : Wf p s) (hb : Below p s) :
    s.progress <+: round p.playersCount.toNat p.gameLength.toNat := by
  have hp := hw.params
  unfold Server.progress round course
  rcases hw.phase with hl | hg
  · have hlt := hb hl.started
    rw [if_neg (by simp [hl.started]), List.append_assoc]
    exact ((List.isPrefix_range hlt.le).map _).trans (List.prefix_append ..)
  · have hsent := turnsSent_le hw hg
    rw [if_pos hg.started, hp, List.append_assoc, List.prefix_append_right_inj, List.cons_append,
      List.cons_prefix_cons]
    exact ⟨rfl, ((List.isPrefix_range hsent).map _).trans (List.prefix_append ..)⟩

def Closed (s : Server β) (info : TurnInfo) : Prop :=
  s.engine.gameplayStarted = true ∧ info.turn.toNat < s.turnsSent ∧
    s.engine.turns[info.turn.toNat]? = some info

theorem Played.closed_of_closed {msgs : List ServerMessage} {info : TurnInfo}
    (h : Played env s s' msgs) (hc : Closed s info) :
    Closed s' info ∨ ∃ scores, .gameEnded scores ∈ msgs := by
  obtain ⟨hs, hk, hi⟩ := hc
  cases h with
  | still hp =>
    refine .inl ⟨hs, ?_, hi⟩
    simpa [turnsSent, withHandler, hp hs] using hk
  | joined hl hlt hn => exact absurd (hl.started.symm.trans hs) Bool.false_ne_true
  | started hl hn hg => exact absurd (hl.started.symm.trans hs) Bool.false_ne_true
  | acted hg hm hr hh =>
    left
    have hne : _ ≠ info.turn.toNat := (Nat.ne_of_lt hk).symm
    obtain ⟨events, hlog⟩ := hh.logged hg
    refine ⟨hlog.started.trans hs, ?_, ?_⟩
    · simpa only [turnsSent, sent_nextClient, Point.sent_client, hlog.turn] using hk
    · rw [hlog.turns]
      exact (getElem?_logEvents_of_ne hne).trans hi
  | @opened e handler hg hlt he hd =>
    left
    have hn := hg.nextTurn hlt
    have hlen : info.turn.toNat < e.turns.length := by
      rw [hg.length]
      exact hk
    refine ⟨hs, ?_, ?_⟩
    · simpa [turnsSent, GameEngine.opened, withHandler, hn] using hlen
    · simpa [GameEngine.opened, withHandler, List.getElem?_append_left hlen] using hi
  | sent hg hr hc ht =>
    left
    have hne : _ ≠ info.turn.toNat := (Nat.ne_of_lt hk).symm
    exact ⟨hs, Nat.lt_succ_of_lt hk, (getElem?_logEvents_of_ne hne).trans hi⟩
  | closed hg hlt => exact .inl ⟨hs, hk, hi⟩
  | ended hg hlast => exact .inr ⟨_, List.mem_singleton_self _⟩

theorem Played.closed_of_mem {msgs : List ServerMessage} {info : TurnInfo}
    (h : Played env s s' msgs) (hm : .turn info ∈ msgs) : Closed s' info := by
  cases h with
  | sent hg hr hc ht =>
    obtain rfl := ServerMessage.turn.inj (List.mem_singleton.mp hm)
    have hturn := (hg.respawned hr).numbered _ _ ht
    refine ⟨hg.started, ?_, ?_⟩
    · rw [hturn]
      exact Nat.lt_succ_self _
    · rw [hturn]
      exact ht
  | _ => simp at hm

theorem Played.closed_or_broadcast {msgs : List ServerMessage} {info : TurnInfo}
    (h : Played env s s' msgs) (hc : Closed s' info) :
    Closed s info ∨ s'.point = .broadcast ∧ s'.engine.currentTurn = info.turn := by
  obtain ⟨hs, hk, hi⟩ := hc
  cases h with
  | still hp =>
    refine .inl ⟨hs, ?_, hi⟩
    simpa [turnsSent, withHandler, hp hs] using hk
  | joined hl hlt hn => exact absurd (hl.started.symm.trans hs) Bool.false_ne_true
  | started hl hn hg =>
    simp [turnsSent, (hl.startGameplay hn hg).2.1] at hk
  | @acted e e' i msg hg hm hr hh =>
    left
    obtain ⟨events, hlog⟩ := hh.logged hg
    have hk' : info.turn.toNat < e.currentTurn.toNat := by
      simpa only [turnsSent, sent_nextClient, hlog.turn, Nat.add_zero] using hk
    refine ⟨hg.started, hk', ?_⟩
    rw [← hi, hlog.turns]
    exact (getElem?_logEvents_of_ne hk'.ne').symm
  | @opened e handler hg hlt he hd =>
    left
    have hn : (e.currentTurn + 1).toNat = e.turns.length := hg.nextTurn hlt
    have hk' : info.turn.toNat < e.turns.length := by
      simpa [turnsSent, GameEngine.opened, withHandler, hn] using hk
    refine ⟨hs, ?_, ?_⟩
    · rwa [hg.length] at hk'
    · simpa [GameEngine.opened, withHandler, List.getElem?_append_left hk'] using hi
  | @sent e robots random turn hg hr hc ht =>
    rcases Nat.lt_succ_iff_lt_or_eq.mp hk with hlt | heq
    · exact .inl ⟨hs, hlt, (getElem?_logEvents_of_ne hlt.ne').symm.trans hi⟩
    · exact .inr ⟨rfl, (UInt16.toNat_inj.mp heq).symm⟩
  | closed hg hlt => exact .inl ⟨hs, hk, hi⟩
  | ended hg hlast => exact Bool.noConfusion hs

theorem run_closed {tr : List (Machine.Step (Server β) Env Sending)} (hc : 0 < p.playersCount)
    (h : (machine β p).Run tr s) {before after : List ServerMessage} {info : TurnInfo}
    (hb : broadcasts (Machine.log tr) = before ++ .turn info :: after)
    (hlast : ∀ scores, .gameEnded scores ∉ after) : Closed s info := by
  refine run_played (I := fun msgs s => ∀ before after, msgs = before ++ .turn info :: after →
    (∀ scores, .gameEnded scores ∉ after) → Closed s info) hc h (by simp) ?_ _ _ hb hlast
  intro env msgs s s' new hw hI hs before after hb hlast
  rcases List.append_eq_append_cons hb with ⟨mid, hmsgs, rfl⟩ | ⟨mid, -, rfl⟩
  · have hcl := hI before mid hmsgs fun scores hm => hlast scores (List.mem_append_left _ hm)
    rcases hs.closed_of_closed hcl with hcl | ⟨scores, hm⟩
    · exact hcl
    · exact absurd (List.mem_append_right _ hm) (hlast scores)
  · exact hs.closed_of_mem (by simp)

theorem run_exists_broadcast {tr : List (Machine.Step (Server β) Env Sending)}
    (hc : 0 < p.playersCount) (h : (machine β p).Run tr s) {info : TurnInfo} (hi : Closed s info) :
    ∃ tr' tr'' s', tr = tr' ++ tr'' ∧ (machine β p).Run tr' s' ∧ s'.point = .broadcast ∧
      s'.engine.currentTurn = info.turn ∧ Closed s' info := by
  refine h.invariant (I := fun tr s => Closed s info → ∃ tr' tr'' s', tr = tr' ++ tr'' ∧
    (machine β p).Run tr' s' ∧ s'.point = .broadcast ∧ s'.engine.currentTurn = info.turn ∧
    Closed s' info) (fun hi => Bool.noConfusion hi.1) ?_ hi
  intro tr s env s' out hr hI hs hi
  obtain ⟨hw, hb⟩ := run_wf_below hc hr
  rcases (hw.played hb.room (step_stepped hs)).closed_or_broadcast hi with hold | ⟨hp, hk⟩
  · obtain ⟨tr', tr'', s'', rfl, hr', hp, hk, hi'⟩ := hI hold
    exact ⟨tr', tr'' ++ _, s'', List.append_assoc .., hr', hp, hk, hi'⟩
  · exact ⟨_, [], s', (List.append_nil _).symm, .snoc hr hs, hp, hk, hi⟩

/--
The broadcasts of a run are an initial part of repeated rounds, and a turn that has been
broadcast keeps its bytes until its game ends.
-/
theorem run_broadcasts {tr : List (Machine.Step (Server β) Env Sending)} (hc : 0 < p.playersCount)
    (h : (machine β p).Run tr s) :
    (∃ n, (broadcasts (Machine.log tr)).map ServerMessage.shape <+:
      (List.replicate n (round p.playersCount.toNat p.gameLength.toNat)).flatten) ∧
    ∀ before info after, broadcasts (Machine.log tr) = before ++ .turn info :: after →
      (∀ scores, .gameEnded scores ∉ after) → ∃ info',
        s.engine.turns[info.turn.toNat]? = some info' ∧ info'.toBytes = info.toBytes := by
  constructor
  · obtain ⟨n, hn⟩ := run_progress hc h
    refine ⟨n + 1, ?_⟩
    rw [hn, List.replicate_succ', List.flatten_concat, List.prefix_append_right_inj]
    obtain ⟨hw, hb⟩ := run_wf_below hc h
    exact hw.isPrefix_round hb
  · intro before info after hb hlast
    obtain ⟨-, -, hi⟩ := run_closed hc h hb hlast
    exact ⟨info, hi, rfl⟩

theorem run_broadcasts_solo : ∃ tr s, (machine (StdSet Position) solo).Run tr s ∧
    (broadcasts (Machine.log tr)).map ServerMessage.shape =
      [.accepted 0, .started, .turn 0, .turn 1, .turn 2, .turn 3, .ended] ∧
    (∃ n, (broadcasts (Machine.log tr)).map ServerMessage.shape <+:
      (List.replicate n (round 1 3)).flatten) ∧
    ∀ before info after, broadcasts (Machine.log tr) = before ++ .turn info :: after →
      (∀ scores, .gameEnded scores ∉ after) → ∃ info',
        s.engine.turns[info.turn.toNat]? = some info' ∧ info'.toBytes = info.toBytes := by
  have hcheck : (machine (StdSet Position) solo).check
      (soloJoin ++ (List.replicate 3 (pass true (.ready [] ⟨none, []⟩ none))).flatten)
      (fun tr _ => (broadcasts (Machine.log tr)).map ServerMessage.shape =
        [.accepted 0, .started, .turn 0, .turn 1, .turn 2, .turn 3, .ended]) = true := by
    decide +kernel
  obtain ⟨tr, s, h, hshape⟩ := Machine.run_of_check hcheck
  exact ⟨tr, s, h, of_decide_eq_true hshape, run_broadcasts (by decide) h⟩

end Server

end Bomberrobots
