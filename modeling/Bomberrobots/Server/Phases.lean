import Bomberrobots.Server.Actions

/-! # The two phases of the engine

In the lobby everything that belongs to a game is empty. In a game the maps over the
players agree on their keys, and the turn log, the bombs and the counters fit together.
-/

namespace Bomberrobots

def Event.IsActionOf (id : PlayerId) : Event → Prop
  | .bombPlaced .. => True
  | .bombExploded .. => False
  | .playerMoved id' _ => id' = id
  | .blockPlaced _ => True

theorem Event.countP_isBombPlaced_eq_zero {α : Type} {l : List α} {f : α → Event}
    (h : ∀ a, (f a).isBombPlaced = false) : (l.map f).countP Event.isBombPlaced = 0 := by
  rw [List.countP_eq_zero]
  intro event hm
  obtain ⟨a, -, rfl⟩ := List.mem_map.mp hm
  simp [h a]

namespace GameEngine

variable {β : Type} {e e' : GameEngine β} {n : ℕ} {i : Slot}

/-- The players are those with ids below `n`, each has a score, and no two slots share one. -/
structure Registered (e : GameEngine β) (n : ℕ) : Prop where
  players : ∀ id : PlayerId, id ∈ e.players ↔ id.toNat < n
  scores : ∀ id : PlayerId, id ∈ e.scores ↔ id.toNat < n
  size : e.players.size = n
  range : ∀ (i : Slot) (id : PlayerId), e.playerIds[i]? = some id → id.toNat < n
  injective : ∀ (i j : Slot) (id : PlayerId), e.playerIds[i]? = some id →
    e.playerIds[j]? = some id → i = j

/-- The representation invariant of a running game. -/
structure Gameplay (e : GameEngine β) : Prop where
  started : e.gameplayStarted = true
  registered : Registered e e.gameParams.playersCount.toNat
  positions : ∀ id : PlayerId, id ∈ e.playersPositions ↔ id.toNat < e.gameParams.playersCount.toNat
  destroy : ∀ id : PlayerId, id ∈ e.currentPlayersToDestroy →
    id.toNat < e.gameParams.playersCount.toNat
  length : e.turns.length = e.currentTurn.toNat + 1
  numbered : Numbered e.turns
  bounded : e.currentTurn ≤ e.gameParams.gameLength
  bombs : ∀ id : BombId, id ∈ e.bombs → id < e.nextBombId
  counted : bombsPlaced e.turns = e.nextBombId.toNat

theorem Registered.of_eq (h : Registered e n) (hp : e'.players = e.players)
    (hs : ∀ id, id ∈ e'.scores ↔ id ∈ e.scores) (hi : e'.playerIds = e.playerIds) :
    Registered e' n where
  players := by
    rw [hp]
    exact h.players
  scores id := (hs id).trans (h.scores id)
  size := by
    rw [hp]
    exact h.size
  range := by
    rw [hi]
    exact h.range
  injective := by
    rw [hi]
    exact h.injective

theorem registered_empty (hp : e.players = ∅) (hs : e.scores = ∅) (hi : e.playerIds = ∅) :
    Registered e 0 := by
  constructor <;> simp [hp, hs, hi]

theorem toNat_joined {player : Player} (hlt : e.nextPlayerId.toNat < 255) :
    (e.joined i player).nextPlayerId.toNat = e.nextPlayerId.toNat + 1 := by
  simp only [GameEngine.joined, UInt8.toNat_add]
  exact Nat.mod_eq_of_lt (by simp; omega)

theorem Registered.nextPlayerId_not_mem (h : Registered e e.nextPlayerId.toNat) :
    e.nextPlayerId ∉ e.players := fun hm => absurd ((h.players _).mp hm) (lt_irrefl _)

theorem Registered.joined {player : Player} (h : Registered e e.nextPlayerId.toNat) :
    Registered (e.joined i player) (e.nextPlayerId.toNat + 1) := by
  have hkey : ∀ id, e.nextPlayerId = id ∨ id.toNat < e.nextPlayerId.toNat ↔
      id.toNat < e.nextPlayerId.toNat + 1 := by
    intro id
    rw [← UInt8.toNat_inj]
    omega
  constructor
  · intro id
    simp [GameEngine.joined, h.players, hkey]
  · intro id
    simp [GameEngine.joined, h.scores, hkey]
  · simp [GameEngine.joined, Std.ExtTreeMap.size_insertIfNew, h.nextPlayerId_not_mem, h.size]
  · intro j id hj
    simp only [GameEngine.joined, Std.ExtTreeMap.getElem?_insert] at hj
    split at hj
    · obtain rfl := Option.some.inj hj
      omega
    · have := h.range j id hj
      omega
  · intro j k id hj hk
    simp only [GameEngine.joined, Std.ExtTreeMap.getElem?_insert,
      Std.LawfulEqCmp.compare_eq_iff_eq] at hj hk
    split at hj <;> split at hk
    · rename_i hij hik
      exact hij.symm.trans hik
    · obtain rfl := Option.some.inj hj
      exact absurd (h.range k _ hk) (lt_irrefl _)
    · obtain rfl := Option.some.inj hk
      exact absurd (h.range j _ hj) (lt_irrefl _)
    · exact h.injective j k id hj hk

theorem allEvents_opened [PositionSet β] : allEvents e.opened.turns =
    allEvents e.turns ++ (dueBombs e.bombs.toList).map e.explodedEvent := allEvents_concat

theorem bombsPlaced_opened [PositionSet β] :
    bombsPlaced e.opened.turns = bombsPlaced e.turns := by
  rw [bombsPlaced, allEvents_opened, List.countP_append,
    Event.countP_isBombPlaced_eq_zero fun _ => rfl, Nat.add_zero, bombsPlaced]

namespace Gameplay

theorem withHandler {handler : ServerTcpHandler} (h : Gameplay e) :
    Gameplay { e with tcpHandler := handler } where
  started := h.started
  registered := h.registered.of_eq rfl (fun _ => Iff.rfl) rfl
  positions := h.positions
  destroy := h.destroy
  length := h.length
  numbered := h.numbered
  bounded := h.bounded
  bombs := h.bombs
  counted := h.counted

theorem position_lt {id : PlayerId} {pos : Position} (h : Gameplay e)
    (hp : e.playersPositions[id]? = some pos) : id.toNat < e.gameParams.playersCount.toNat :=
  (h.positions id).mp (Std.ExtTreeMap.mem_iff_exists_getElem?.mpr ⟨_, hp⟩)

theorem currentTurn_lt (h : Gameplay e) : e.currentTurn.toNat < e.turns.length := by
  rw [h.length]
  exact Nat.lt_succ_self _

theorem nextBombId_not_mem (h : Gameplay e) : e.nextBombId ∉ e.bombs := fun hm =>
  absurd (h.bombs _ hm) (UInt32.lt_irrefl _)

theorem allEvents_respawned {robots : List (PlayerId × Position)} {random : Random}
    (h : Gameplay e) : allEvents (e.respawned robots random).turns =
      allEvents e.turns ++ robots.map movedEvent := allEvents_logEvents h.length.symm

theorem not_acting {id : PlayerId} (h : Gameplay e) (ha : e.actingPlayer i = some id) :
    id ∈ e.playersPositions ∧ e.currentTurn.toNat < e.turns.length := by
  have hid := h.registered.range i id (actingPlayer_eq_some.mp ha).1
  exact ⟨(h.positions id).mpr hid, h.currentTurn_lt⟩

theorem bombPlaced {pos : Position} (h : Gameplay e) (hn : e.nextBombId.toNat + 1 < 2 ^ 32) :
    Gameplay (e.bombPlaced pos) := by
  have hs : (e.nextBombId + 1).toNat = e.nextBombId.toNat + 1 := by
    rw [UInt32.toNat_add, Nat.mod_eq_of_lt (by simpa using hn)]
    rfl
  refine { h with
    registered := h.registered.of_eq rfl (fun _ => Iff.rfl) rfl
    length := ?_
    numbered := h.numbered.logEvents
    bombs := ?_
    counted := ?_ }
  · simp [GameEngine.bombPlaced, h.length]
  · intro id hid
    simp only [GameEngine.bombPlaced, Std.ExtTreeMap.mem_insertIfNew,
      Std.LawfulEqCmp.compare_eq_iff_eq] at hid ⊢
    rw [UInt32.lt_iff_toNat_lt, hs]
    rcases hid with rfl | hid
    · omega
    · have := UInt32.lt_iff_toNat_lt.mp (h.bombs id hid)
      omega
  · simp only [GameEngine.bombPlaced]
    rw [bombsPlaced_logEvents h.length.symm, h.counted, hs]
    rfl

theorem moved {id : PlayerId} {pos : Position} (h : Gameplay e)
    (hid : id.toNat < e.gameParams.playersCount.toNat) : Gameplay (e.moved id pos) := by
  refine { h with
    registered := h.registered.of_eq rfl (fun _ => Iff.rfl) rfl
    positions := ?_
    length := ?_
    numbered := h.numbered.logEvents
    counted := ?_ }
  · intro k
    simp only [GameEngine.moved, Std.ExtTreeMap.mem_insert, Std.LawfulEqCmp.compare_eq_iff_eq,
      h.positions]
    constructor
    · rintro (rfl | hk)
      · exact hid
      · exact hk
    · exact .inr
  · simp [GameEngine.moved, h.length]
  · simp only [GameEngine.moved]
    rw [bombsPlaced_logEvents h.length.symm, h.counted]
    rfl

theorem respawned {robots : List (PlayerId × Position)} {random : Random} (h : Gameplay e)
    (hr : robots.map Prod.fst = e.currentPlayersToDestroy.toList) :
    Gameplay (e.respawned robots random) := by
  refine { h with
    registered := h.registered.of_eq rfl (fun id => ?_) rfl
    positions := ?_
    length := ?_
    numbered := h.numbered.logEvents
    counted := ?_ }
  · simp [GameEngine.respawned, hitScores]
  · intro id
    simp only [GameEngine.respawned, seeded, Std.ExtTreeMap.mem_assign, h.positions, hr,
      Std.ExtTreeSet.mem_toList]
    constructor
    · rintro (hid | hid)
      · exact hid
      · exact h.destroy id hid
    · exact .inl
  · simp [GameEngine.respawned, seeded, h.length]
  · simp only [GameEngine.respawned, seeded]
    rw [bombsPlaced_logEvents h.length.symm, h.counted,
      Event.countP_isBombPlaced_eq_zero fun _ => rfl]
    rfl

theorem nextTurn (h : Gameplay e) (hlt : e.currentTurn < e.gameParams.gameLength) :
    (e.currentTurn + 1).toNat = e.turns.length := by
  have hlt' := UInt16.lt_iff_toNat_lt.mp hlt
  have hmax := e.gameParams.gameLength.toNat_lt
  rw [UInt16.toNat_add, h.length, Nat.mod_eq_of_lt (by simp; omega)]
  rfl

theorem cleared (h : Gameplay e) :
    Gameplay { e with currentBlocksToErase := [], currentPlayersToDestroy := ∅ } :=
  { h with
    registered := h.registered.of_eq rfl (fun _ => Iff.rfl) rfl
    destroy := by simp }

variable [PositionSet β]

theorem blockPlaced {pos : Position} (h : Gameplay e) : Gameplay (e.blockPlaced pos) := by
  refine { h with
    registered := h.registered.of_eq rfl (fun _ => Iff.rfl) rfl
    length := ?_
    numbered := h.numbered.logEvents
    counted := ?_ }
  · simp [GameEngine.blockPlaced, h.length]
  · simp only [GameEngine.blockPlaced]
    rw [bombsPlaced_logEvents h.length.symm, h.counted]
    rfl

theorem dueRobots_lt {id : PlayerId} {bombs : List (BombId × Bomb)} (h : Gameplay e)
    (hid : id ∈ e.dueRobots bombs) : id.toNat < e.gameParams.playersCount.toNat := by
  obtain ⟨entry, -, hid⟩ := List.mem_flatMap.mp hid
  obtain ⟨pos, -, hid⟩ := List.mem_flatMap.mp hid
  exact h.position_lt (mem_robotsAt.mp hid)

theorem opened (h : Gameplay e) (hlt : e.currentTurn < e.gameParams.gameLength) :
    Gameplay e.opened := by
  have hn := h.nextTurn hlt
  refine { h with
    registered := h.registered.of_eq rfl (fun _ => Iff.rfl) rfl
    destroy := ?_
    length := ?_
    numbered := h.numbered.concat hn
    bounded := ?_
    bombs := ?_
    counted := ?_ }
  · intro id hid
    rcases (Std.ExtTreeSet.mem_foldl_insert _).mp hid with hid | hid
    · exact h.destroy id hid
    · exact h.dueRobots_lt hid
  · simp [GameEngine.opened, hn]
  · rw [UInt16.le_iff_toNat_le]
    have := UInt16.lt_iff_toNat_lt.mp hlt
    have := h.length
    simp only [GameEngine.opened]
    omega
  · intro id hid
    refine h.bombs id ?_
    have hid' := Std.ExtTreeMap.mem_of_mem_filter hid
    simpa using hid'
  · exact bombsPlaced_opened.trans h.counted

end Gameplay

variable [PositionSet β]

/-- The state between two games. -/
structure Lobby (e : GameEngine β) : Prop where
  started : e.gameplayStarted = false
  registered : Registered e e.nextPlayerId.toNat
  positions : e.playersPositions = ∅
  blocks : e.blocksPositions = PositionSet.empty
  turn : e.currentTurn = 0
  erase : e.currentBlocksToErase = []
  destroy : e.currentPlayersToDestroy = ∅
  turns : e.turns = []
  bombs : e.bombs = ∅
  nextBomb : e.nextBombId = 0

namespace Lobby

theorem new {p : ServerParameters} : Lobby (GameEngine.new p : GameEngine β) where
  started := rfl
  registered := registered_empty rfl rfl rfl
  positions := rfl
  blocks := rfl
  turn := rfl
  erase := rfl
  destroy := rfl
  turns := rfl
  bombs := rfl
  nextBomb := rfl

theorem withHandler {handler : ServerTcpHandler} (h : Lobby e) :
    Lobby { e with tcpHandler := handler } :=
  { h with registered := h.registered.of_eq rfl (fun _ => Iff.rfl) rfl }

theorem size_joined {player : Player} (h : Lobby e) :
    (e.joined i player).players.size = e.nextPlayerId.toNat + 1 :=
  (h.registered.joined).size

theorem joined {player : Player} (h : Lobby e) (hlt : e.nextPlayerId.toNat < 255) :
    Lobby (e.joined i player) := by
  refine { h with registered := ?_ }
  rw [toNat_joined hlt]
  exact h.registered.joined

/-- The join of the last player starts a game. -/
theorem startGameplay {player : Player} {sent : List Sending} (h : Lobby e)
    (hn : (e.joined i player).players.size = e.gameParams.playersCount.toNat)
    (hg : (e.joined i player).startGameplay = .ok (e', sent)) :
    Gameplay e' ∧ e'.currentTurn = 0 ∧ e'.nextBombId = 0 := by
  have hr : Registered (e.joined i player) (e.nextPlayerId.toNat + 1) := h.registered.joined
  rw [← hr.size, hn] at hr
  obtain ⟨robots, blocks, random, hk, -, -, -, -, rfl⟩ := startGameplay_ok hg
  have hturn : (e.joined i player).currentTurn.toNat = 0 := by simp [GameEngine.joined, h.turn]
  have hturns : (e.joined i player).turns = [] := h.turns
  refine ⟨⟨rfl, hr.of_eq rfl (fun _ => Iff.rfl) rfl, ?_, ?_, ?_, ?_, ?_, ?_, ?_⟩, h.turn,
    h.nextBomb⟩
  · intro id
    simp only [Std.ExtTreeMap.mem_assign, hk, Std.ExtTreeMap.mem_keys, hr.players]
    simp [GameEngine.joined, h.positions]
  · simp [GameEngine.joined, h.destroy]
  · simp [hturns, hturn]
  · refine Numbered.logEvents (Numbered.logEvents ?_)
    rw [hturns, List.nil_append, ← List.nil_append [TurnInfo.new 0]]
    exact Numbered.concat (by simp [Numbered]) rfl
  · simp only [GameEngine.joined, h.turn]
    exact UInt16.le_iff_toNat_le.mpr (Nat.zero_le _)
  · simp [GameEngine.joined, h.bombs]
  · simp only [hturns, hturn]
    rw [bombsPlaced_logEvents (by simp), bombsPlaced_logEvents (by simp),
      Event.countP_isBombPlaced_eq_zero fun _ => rfl,
      Event.countP_isBombPlaced_eq_zero fun _ => rfl]
    simp [GameEngine.joined, h.nextBomb, bombsPlaced, TurnInfo.new, allEvents]

end Lobby

/-- How a game begins: with the robots and the blocks that its first turn logs. -/
structure Begun (e e' : GameEngine β) (robots : List (PlayerId × Position))
    (blocks : List Position) : Prop where
  keys : robots.map Prod.fst = e.players.keys
  players : e'.players = e.players
  scores : e'.scores = e.scores
  positions : e'.playersPositions = Std.ExtTreeMap.assign ∅ robots
  board : e'.blocksPositions = blocks.foldl PositionSet.insert PositionSet.empty
  bombs : e'.bombs = ∅
  destroy : e'.currentPlayersToDestroy = ∅
  events : allEvents e'.turns = robots.map movedEvent ++ blocks.map .blockPlaced

theorem robotsDestroyed_movedEvent {robots : List (PlayerId × Position)} :
    ∀ event ∈ robots.map movedEvent, event.robotsDestroyed = [] := by
  intro event he
  obtain ⟨robot, -, rfl⟩ := List.mem_map.mp he
  rfl

theorem Begun.robotsDestroyed {robots : List (PlayerId × Position)} {blocks : List Position}
    (h : Begun e e' robots blocks) : ∀ event ∈ allEvents e'.turns, event.robotsDestroyed = [] := by
  intro event he
  rw [h.events] at he
  rcases List.mem_append.mp he with he | he
  · exact robotsDestroyed_movedEvent event he
  · obtain ⟨pos, -, rfl⟩ := List.mem_map.mp he
    rfl

theorem Lobby.begun {player : Player} {sent : List Sending} (h : Lobby e)
    (hg : (e.joined i player).startGameplay = .ok (e', sent)) :
    ∃ robots blocks, Begun (e.joined i player) e' robots blocks := by
  obtain ⟨robots, blocks, random, hk, -, -, -, -, rfl⟩ := startGameplay_ok hg
  have hturn : (e.joined i player).currentTurn.toNat = 0 := by simp [GameEngine.joined, h.turn]
  have hturns : (e.joined i player).turns = [] := h.turns
  refine ⟨robots, blocks, hk, rfl, rfl, ?_, ?_, h.bombs, h.destroy, ?_⟩
  · simp [GameEngine.joined, h.positions]
  · simp [GameEngine.joined, h.blocks]
  · simp only [hturn, hturns, List.nil_append]
    rw [allEvents_logEvents (by simp), allEvents_logEvents (by simp)]
    simp [TurnInfo.new]

theorem lobby_endGameplay (he : e.currentBlocksToErase = []) (hd : e.currentPlayersToDestroy = ∅) :
    Lobby e.endGameplay.1 where
  started := rfl
  registered := registered_empty rfl rfl rfl
  positions := rfl
  blocks := rfl
  turn := rfl
  erase := he
  destroy := hd
  turns := rfl
  bombs := rfl
  nextBomb := rfl

variable {u : Position} {msg : ClientMessage} {sent : List Sending}

theorem Handled.frame (h : Handled e i u msg e' sent) :
    e'.tcpHandler = e.tcpHandler ∧ e'.gameParams = e.gameParams := by
  cases h with
  | start hs ha hn hg =>
    obtain ⟨robots, blocks, random, -, -, -, -, -, rfl⟩ := startGameplay_ok hg
    exact ⟨rfl, rfl⟩
  | _ => exact ⟨rfl, rfl⟩

theorem Handled.lobby (h : Handled e i u msg e' sent) (hl : Lobby e) :
    (msg.isJoin = false ∧ e' = e ∧ sent = []) ∨
    (∃ player, msg = .join player.name ∧
      (e.joined i player).players.size ≠ e.gameParams.playersCount.toNat ∧
      e' = e.joined i player ∧
      sent = e.tcpHandler.sendMessageToAll (.acceptedPlayer e.nextPlayerId player)) ∨
    ∃ player sent', msg = .join player.name ∧
      (e.joined i player).players.size = e.gameParams.playersCount.toNat ∧
      (e.joined i player).startGameplay = .ok (e', sent') ∧
      sent = e.tcpHandler.sendMessageToAll (.acceptedPlayer e.nextPlayerId player) ++ sent' := by
  have hnone : ∀ {id : PlayerId} {pos : Position}, e.playersPositions[id]? ≠ some pos := by
    simp [hl.positions]
  cases h with
  | late hs => exact absurd (hl.started.symm.trans hs) Bool.false_ne_true
  | idle hm ha => exact .inl ⟨hm, rfl, rfl⟩
  | @join name address hs ha hn => exact .inr (.inl ⟨⟨name, address⟩, rfl, hn, rfl, rfl⟩)
  | @start name address _ _ hs ha hn hg =>
    exact .inr (.inr ⟨⟨name, address⟩, _, rfl, hn, hg, rfl⟩)
  | bomb ha hp => exact absurd hp hnone
  | block ha hp => exact absurd hp hnone
  | stay ha hp hc => exact absurd hp hnone
  | move ha hp hc => exact absurd hp hnone

theorem Handled.gameplay (h : Handled e i u msg e' sent) (hg : Gameplay e) :
    sent = [] ∧ (e' = e ∨ ∃ id pos, e.actingPlayer i = some id ∧
      e.playersPositions[id]? = some pos ∧
      (e' = e.bombPlaced pos ∨ e' = e.blockPlaced pos ∨
        ∃ pos', e.checkPositionToMove pos' = true ∧ e' = e.moved id pos')) := by
  have hs' : e.gameplayStarted ≠ false := by simp [hg.started]
  cases h with
  | late hs => exact ⟨rfl, .inl rfl⟩
  | join hs ha hn => exact absurd hs hs'
  | start hs ha hn hg => exact absurd hs hs'
  | idle hm ha => exact ⟨rfl, .inl rfl⟩
  | bomb ha hp => exact ⟨rfl, .inr ⟨_, _, ha, hp, .inl rfl⟩⟩
  | block ha hp => exact ⟨rfl, .inr ⟨_, _, ha, hp, .inr (.inl rfl)⟩⟩
  | stay ha hp hc => exact ⟨rfl, .inl rfl⟩
  | move ha hp hc => exact ⟨rfl, .inr ⟨_, _, ha, hp, .inr (.inr ⟨_, hc, rfl⟩)⟩⟩

/-- What a message leaves as it is in a game, and the events that it logs. -/
structure Logged (e e' : GameEngine β) (events : List Event) : Prop where
  turns : e'.turns = logEvents e.turns e.currentTurn.toNat events
  robotsDestroyed : ∀ event ∈ events, event.robotsDestroyed = []
  started : e'.gameplayStarted = e.gameplayStarted
  params : e'.gameParams = e.gameParams
  turn : e'.currentTurn = e.currentTurn
  players : e'.players = e.players
  playerIds : e'.playerIds = e.playerIds
  scores : e'.scores = e.scores
  destroy : e'.currentPlayersToDestroy = e.currentPlayersToDestroy

/-- In a game a message changes nothing or logs one action of the player it comes from. -/
theorem Handled.action (h : Handled e i u msg e' sent) (hg : Gameplay e) :
    e' = e ∨ ∃ id event, e.actingPlayer i = some id ∧ event.IsActionOf id ∧
      Logged e e' [event] := by
  obtain ⟨-, he | ⟨id, pos, ha, -, rfl | rfl | ⟨pos', -, rfl⟩⟩⟩ := h.gameplay hg
  · exact .inl he
  · exact .inr ⟨id, .bombPlaced e.nextBombId pos, ha, trivial, rfl,
      by simp [Event.robotsDestroyed], rfl, rfl, rfl, rfl, rfl, rfl, rfl⟩
  · exact .inr ⟨id, .blockPlaced pos, ha, trivial, rfl,
      by simp [Event.robotsDestroyed], rfl, rfl, rfl, rfl, rfl, rfl, rfl⟩
  · exact .inr ⟨id, .playerMoved id pos', ha, rfl, rfl,
      by simp [Event.robotsDestroyed], rfl, rfl, rfl, rfl, rfl, rfl, rfl⟩

theorem Handled.logged (h : Handled e i u msg e' sent) (hg : Gameplay e) :
    ∃ events, Logged e e' events := by
  rcases h.action hg with rfl | ⟨id, event, -, -, hlog⟩
  · exact ⟨[], logEvents_nil.symm, by simp, rfl, rfl, rfl, rfl, rfl, rfl, rfl⟩
  · exact ⟨[event], hlog⟩

/-- A game survives a message, which places at most one bomb in it. -/
theorem Gameplay.handled (hg : Gameplay e) (h : Handled e i u msg e' sent)
    (hn : e.nextBombId.toNat + 1 < 2 ^ 32) :
    Gameplay e' ∧ e'.currentTurn = e.currentTurn ∧
      e'.nextBombId.toNat ≤ e.nextBombId.toNat + 1 := by
  obtain ⟨-, rfl | ⟨id, pos, ha, hp, rfl | rfl | ⟨pos', hc, rfl⟩⟩⟩ := h.gameplay hg
  · exact ⟨hg, rfl, Nat.le_succ _⟩
  · refine ⟨hg.bombPlaced hn, rfl, ?_⟩
    simp only [GameEngine.bombPlaced, UInt32.toNat_add]
    exact Nat.mod_le ..
  · exact ⟨hg.blockPlaced, rfl, Nat.le_succ _⟩
  · exact ⟨hg.moved (hg.position_lt hp), rfl, Nat.le_succ _⟩

end GameEngine

end Bomberrobots
