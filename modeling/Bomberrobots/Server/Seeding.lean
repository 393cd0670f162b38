import Bomberrobots.Library.Except
import Bomberrobots.Library.Tree
import Bomberrobots.Server.TurnLog

/-! # What seeding does

Seeding logs one event for every robot or block it places, on fields of the board,
and changes nothing else but the random generator.
-/

namespace Bomberrobots

namespace Random

variable {random random' : Random} {size x : UInt16}

theorem coordinate_ok (h : random.coordinate size = .ok (x, random')) : x < size := by
  unfold coordinate at h
  split at h
  · cases h
  · rename_i hs
    obtain ⟨rfl, -⟩ := Prod.mk.inj (Except.ok.inj h)
    have hpos : 0 < size.toNat := by
      rcases Nat.eq_zero_or_pos size.toNat with h0 | h0
      · exact absurd (UInt16.toNat_inj.mp h0) hs
      · exact h0
    have hlt := Nat.mod_lt random.next.1.toNat hpos
    rw [UInt16.lt_iff_toNat_lt, UInt32.toNat_toUInt16, UInt32.toNat_mod, UInt16.toNat_toUInt32]
    exact (Nat.mod_le ..).trans_lt hlt

theorem coordinate_error {f : Fault} (h : random.coordinate size = .error f) :
    f = .divisionByZero ∧ size = 0 := by
  unfold coordinate at h
  split at h
  · exact ⟨(Except.error.inj h).symm, ‹_›⟩
  · cases h

end Random

namespace GameEngine

variable {β : Type} {e e' : GameEngine β} {f : Fault}

theorem addEvent_ok_iff {k : UInt16} {event : Event} :
    e.addEvent k event = .ok e' ↔
      k.toNat < e.turns.length ∧ e' = { e with turns := logEvents e.turns k.toNat [event] } := by
  unfold addEvent
  split
  · simp only [Except.ok.injEq, true_and, *]
    exact eq_comm
  · simp [*]

theorem addEvent_error {k : UInt16} {event : Event} (h : e.addEvent k event = .error f) :
    e.turns.length ≤ k.toNat := by
  unfold addEvent at h
  split at h
  · cases h
  · omega

theorem checkPosition_iff {pos : Position} :
    e.checkPosition pos = true ↔ pos.x < e.gameParams.sizeX ∧ pos.y < e.gameParams.sizeY := by
  simp [checkPosition]

theorem seedPosition_ok {pos : Position} (h : e.seedPosition = .ok (pos, e')) :
    ∃ random, e.checkPosition pos = true ∧ e' = { e with random := random } := by
  obtain ⟨⟨x, r⟩, hx, h⟩ := Except.bind_eq_ok_iff.mp h
  obtain ⟨⟨y, r'⟩, hy, h⟩ := Except.bind_eq_ok_iff.mp h
  obtain ⟨rfl, rfl⟩ := Prod.mk.inj (Except.pure_eq_ok.mp h)
  exact ⟨r', checkPosition_iff.mpr ⟨Random.coordinate_ok hx, Random.coordinate_ok hy⟩, rfl⟩

theorem seedPosition_error (h : e.seedPosition = .error f) :
    f = .divisionByZero ∧ (e.gameParams.sizeX = 0 ∨ e.gameParams.sizeY = 0) := by
  rcases Except.bind_eq_error_iff.mp h with h | ⟨⟨x, r⟩, -, h⟩
  · exact (Random.coordinate_error h).imp_right .inl
  · rcases Except.bind_eq_error_iff.mp h with h | ⟨⟨y, r'⟩, -, h⟩
    · exact (Random.coordinate_error h).imp_right .inr
    · exact absurd h Except.pure_ne_error

theorem seedPlayer_ok {id : PlayerId} (h : e.seedPlayer id = .ok e') :
    ∃ pos random, e.checkPosition pos = true ∧ e.currentTurn.toNat < e.turns.length ∧
      e' = { e with turns := logEvents e.turns e.currentTurn.toNat [.playerMoved id pos]
                    playersPositions := e.playersPositions.insert id pos
                    random := random } := by
  obtain ⟨⟨pos, e₁⟩, h₁, h⟩ := Except.bind_eq_ok_iff.mp h
  obtain ⟨e₂, h₂, h⟩ := Except.bind_eq_ok_iff.mp h
  obtain ⟨random, hpos, rfl⟩ := seedPosition_ok h₁
  obtain ⟨hlen, rfl⟩ := addEvent_ok_iff.mp h₂
  obtain rfl := Except.pure_eq_ok.mp h
  exact ⟨pos, random, hpos, hlen, rfl⟩

theorem seedPlayer_error {id : PlayerId} (h : e.seedPlayer id = .error f)
    (hlen : e.currentTurn.toNat < e.turns.length) :
    f = .divisionByZero ∧ (e.gameParams.sizeX = 0 ∨ e.gameParams.sizeY = 0) := by
  rcases Except.bind_eq_error_iff.mp h with h | ⟨⟨pos, e₁⟩, h₁, h⟩
  · exact seedPosition_error h
  · obtain ⟨random, -, rfl⟩ := seedPosition_ok h₁
    rcases Except.bind_eq_error_iff.mp h with h | ⟨e₂, -, h⟩
    · have := addEvent_error h
      simp only at this
      omega
    · exact absurd h Except.pure_ne_error

def movedEvent (robot : PlayerId × Position) : Event := .playerMoved robot.1 robot.2

/-- The engine after robots have been seeded in the current turn. -/
def seeded (e : GameEngine β) (robots : List (PlayerId × Position)) (random : Random) :
    GameEngine β :=
  { e with turns := logEvents e.turns e.currentTurn.toNat (robots.map movedEvent)
           playersPositions := e.playersPositions.assign robots
           random := random }

theorem seeded_nil : e.seeded [] e.random = e := by
  simp [seeded]

theorem seedPlayer_seeded {id : PlayerId} {robots : List (PlayerId × Position)} {random : Random}
    (h : (e.seeded robots random).seedPlayer id = .ok e') :
    ∃ pos random, e.checkPosition pos = true ∧ e' = e.seeded (robots ++ [(id, pos)]) random := by
  obtain ⟨pos, random, hpos, -, rfl⟩ := seedPlayer_ok h
  refine ⟨pos, random, hpos, ?_⟩
  simp [seeded, logEvents_append, Std.ExtTreeMap.assign_append, movedEvent]

theorem seedPlayers_ok (h : e.seedPlayers = .ok e') :
    ∃ robots random, robots.map Prod.fst = e.players.keys ∧
      (∀ robot ∈ robots, e.checkPosition robot.2 = true) ∧ e' = e.seeded robots random := by
  refine Except.foldlM_ok (I := fun done t => ∃ robots random, robots.map Prod.fst = done ∧
    (∀ robot ∈ robots, e.checkPosition robot.2 = true) ∧ t = e.seeded robots random) _ h
    ⟨[], e.random, rfl, by simp, seeded_nil.symm⟩ ?_
  rintro done id _ t' - ⟨robots, random, rfl, hr, rfl⟩ ht
  obtain ⟨pos, random, hpos, rfl⟩ := seedPlayer_seeded ht
  refine ⟨robots ++ [(id, pos)], random, by simp, ?_, rfl⟩
  intro robot hm
  rcases List.mem_append.mp hm with hm | hm
  · exact hr robot hm
  · obtain rfl := List.mem_singleton.mp hm
    exact hpos

theorem seedPlayers_error (h : e.seedPlayers = .error f)
    (hlen : e.currentTurn.toNat < e.turns.length) :
    f = .divisionByZero ∧ (e.gameParams.sizeX = 0 ∨ e.gameParams.sizeY = 0) := by
  obtain ⟨-, id, _, -, ⟨robots, random, rfl⟩, ht⟩ := Except.foldlM_error (I := fun _ t =>
    ∃ robots random, t = e.seeded robots random) _ h ⟨[], e.random, seeded_nil.symm⟩ (by
      rintro done id _ t' - ⟨robots, random, rfl⟩ ht
      obtain ⟨pos, random, -, rfl⟩ := seedPlayer_seeded ht
      exact ⟨_, _, rfl⟩)
  have := seedPlayer_error ht (by simpa [seeded] using hlen)
  exact this

variable [PositionSet β]

def blocked (e : GameEngine β) (blocks : List Position) (random : Random) : GameEngine β :=
  { e with turns := logEvents e.turns 0 (blocks.map .blockPlaced)
           blocksPositions := blocks.foldl PositionSet.insert e.blocksPositions
           random := random }

theorem seedBlock_blocked {blocks : List Position} {random : Random}
    (h : (e.blocked blocks random).seedBlock = .ok e') :
    ∃ pos random, e.checkPosition pos = true ∧ e' = e.blocked (blocks ++ [pos]) random := by
  obtain ⟨⟨pos, e₁⟩, h₁, h⟩ := Except.bind_eq_ok_iff.mp h
  obtain ⟨e₂, h₂, h⟩ := Except.bind_eq_ok_iff.mp h
  obtain ⟨random, hpos, rfl⟩ := seedPosition_ok h₁
  obtain ⟨-, rfl⟩ := addEvent_ok_iff.mp h₂
  obtain rfl := Except.pure_eq_ok.mp h
  refine ⟨pos, random, hpos, ?_⟩
  simp [blocked, logEvents_append]

theorem seedBlocks_ok (h : e.seedBlocks = .ok e') :
    ∃ blocks random, blocks.length = e.gameParams.initialBlocks.toNat ∧
      (∀ pos ∈ blocks, e.checkPosition pos = true) ∧ e' = e.blocked blocks random := by
  have := Except.foldlM_ok (I := fun done t => ∃ blocks random, blocks.length = done.length ∧
    (∀ pos ∈ blocks, e.checkPosition pos = true) ∧ t = e.blocked blocks random) _ h
    ⟨[], e.random, rfl, by simp, by simp [blocked]⟩ (by
      rintro done _ _ t' - ⟨blocks, random, hl, hb, rfl⟩ ht
      obtain ⟨pos, random, hpos, rfl⟩ := seedBlock_blocked ht
      refine ⟨blocks ++ [pos], random, by simp [hl], ?_, rfl⟩
      intro p hm
      rcases List.mem_append.mp hm with hm | hm
      · exact hb p hm
      · obtain rfl := List.mem_singleton.mp hm
        exact hpos)
  simpa using this

theorem seedBlocks_error (h : e.seedBlocks = .error f) (hlen : 0 < e.turns.length) :
    f = .divisionByZero ∧ (e.gameParams.sizeX = 0 ∨ e.gameParams.sizeY = 0) := by
  obtain ⟨-, _, _, -, ⟨blocks, random, rfl⟩, ht⟩ := Except.foldlM_error (I := fun _ t =>
    ∃ blocks random, t = e.blocked blocks random) _ h ⟨[], e.random, by simp [blocked]⟩ (by
      rintro done _ _ t' - ⟨blocks, random, rfl⟩ ht
      obtain ⟨pos, random, -, rfl⟩ := seedBlock_blocked ht
      exact ⟨_, _, rfl⟩)
  rcases Except.bind_eq_error_iff.mp ht with ht | ⟨⟨pos, e₁⟩, h₁, ht⟩
  · have := seedPosition_error ht
    exact this
  · obtain ⟨random, -, rfl⟩ := seedPosition_ok h₁
    rcases Except.bind_eq_error_iff.mp ht with ht | ⟨e₂, -, ht⟩
    · have := addEvent_error ht
      simp only [blocked, length_logEvents, UInt16.toNat_zero] at this
      omega
    · exact absurd ht Except.pure_ne_error

/--
A game starts with turn 0 holding one move for every player and the initial blocks,
with the robots and blocks placed accordingly.
-/
theorem startGameplay_ok {sent : List Sending} (h : e.startGameplay = .ok (e', sent)) :
    ∃ (robots : List (PlayerId × Position)) (blocks : List Position) (random : Random),
      robots.map Prod.fst = e.players.keys ∧
      blocks.length = e.gameParams.initialBlocks.toNat ∧
      (∀ robot ∈ robots, e.checkPosition robot.2 = true) ∧
      (∀ pos ∈ blocks, e.checkPosition pos = true) ∧
      sent = e.tcpHandler.sendMessageToAll (.gameStarted e.players) ∧
      e' = { e with
        gameplayStarted := true
        turns := logEvents (logEvents (e.turns ++ [TurnInfo.new 0]) e.currentTurn.toNat
          (robots.map movedEvent)) 0 (blocks.map .blockPlaced)
        playersPositions := e.playersPositions.assign robots
        blocksPositions := blocks.foldl PositionSet.insert e.blocksPositions
        random := random } := by
  obtain ⟨e₁, h₁, h⟩ := Except.bind_eq_ok_iff.mp h
  obtain ⟨e₂, h₂, h⟩ := Except.bind_eq_ok_iff.mp h
  obtain ⟨robots, random, hk, hr, rfl⟩ := seedPlayers_ok h₁
  obtain ⟨blocks, random', hl, hb, rfl⟩ := seedBlocks_ok h₂
  obtain ⟨rfl, rfl⟩ := Prod.mk.inj (Except.pure_eq_ok.mp h)
  exact ⟨robots, blocks, random', hk, hl, hr, hb, rfl, rfl⟩

theorem startGameplay_error (h : e.startGameplay = .error f)
    (hlen : e.currentTurn.toNat ≤ e.turns.length) :
    f = .divisionByZero ∧ (e.gameParams.sizeX = 0 ∨ e.gameParams.sizeY = 0) := by
  rcases Except.bind_eq_error_iff.mp h with h | ⟨e₁, h₁, h⟩
  · have := seedPlayers_error h (by simp; omega)
    exact this
  · obtain ⟨robots, random, -, -, rfl⟩ := seedPlayers_ok h₁
    rcases Except.bind_eq_error_iff.mp h with h | ⟨e₂, -, h⟩
    · have := seedBlocks_error h (by simp [seeded])
      exact this
    · exact absurd h Except.pure_ne_error

end GameEngine

end Bomberrobots
