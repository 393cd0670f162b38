import Bomberrobots.Server.Receive
import Bomberrobots.Server.Rounds

/-! # What handling a client message does

A handled message is ignored, joins a player, starts the game with it, or carries out
one action of a robot. `Handled` lists the cases with the guards they passed.
-/

namespace Bomberrobots

def ClientMessage.isJoin : ClientMessage → Bool
  | .join _ => true
  | _ => false

namespace GameEngine

variable {β : Type} {e e' : GameEngine β} {i : Slot} {u : Position} {sent : List Sending}
  {msg : ClientMessage} {f : Fault}

theorem actingPlayer_eq_some {id : PlayerId} :
    e.actingPlayer i = some id ↔ e.playerIds[i]? = some id ∧ id ∉ e.currentPlayersToDestroy := by
  unfold actingPlayer
  cases hi : e.playerIds[i]? with
  | none => simp
  | some id' =>
    by_cases hd : id' ∈ e.currentPlayersToDestroy
    · simp only [Std.ExtTreeSet.contains_iff_mem, hd, if_true]
      constructor
      · rintro ⟨⟩
      · rintro ⟨hid, hn⟩
        exact absurd (Option.some.inj hid ▸ hd) hn
    · simp only [Std.ExtTreeSet.contains_iff_mem, hd, if_false]
      constructor
      · intro hid
        exact ⟨hid, Option.some.inj hid ▸ hd⟩
      · exact And.left

theorem positionAt_ok_iff {id : PlayerId} {pos : Position} :
    e.positionAt id = .ok pos ↔ e.playersPositions[id]? = some pos := by
  unfold positionAt
  cases e.playersPositions[id]? <;> simp

theorem positionAt_error {id : PlayerId} (h : e.positionAt id = .error f) :
    f = .outOfRange ∧ id ∉ e.playersPositions := by
  unfold positionAt at h
  cases hp : e.playersPositions[id]? with
  | some pos => simp [hp] at h
  | none =>
    simp only [hp, Except.error.injEq] at h
    exact ⟨h.symm, by simp [Std.ExtTreeMap.mem_iff_isSome_getElem?, hp]⟩

theorem positionAt_bind_error {id : PlayerId} {g : Position → Except Fault (GameEngine β)}
    (h : e.positionAt id >>= g = .error f)
    (hg : ∀ pos, g pos = .error f → e.turns.length ≤ e.currentTurn.toNat) :
    id ∉ e.playersPositions ∨ e.turns.length ≤ e.currentTurn.toNat := by
  rcases Except.bind_eq_error_iff.mp h with h | ⟨pos, -, h⟩
  · exact .inl (positionAt_error h).2
  · exact .inr (hg pos h)

theorem handlePlaceBomb_error (h : e.handlePlaceBomb i = .error f) :
    ∃ id, e.actingPlayer i = some id ∧
      (id ∉ e.playersPositions ∨ e.turns.length ≤ e.currentTurn.toNat) := by
  unfold handlePlaceBomb at h
  split at h
  · cases h
  · refine ⟨_, ‹_›, positionAt_bind_error h fun pos h => ?_⟩
    have := addEvent_error h
    exact this

/-- The engine after a player has joined, before the number of players is compared. -/
def joined (e : GameEngine β) (i : Slot) (player : Player) : GameEngine β :=
  { e with
    nextPlayerId := e.nextPlayerId + 1
    playerIds := e.playerIds.insert i e.nextPlayerId
    players := e.players.insertIfNew e.nextPlayerId player
    scores := e.scores.insertIfNew e.nextPlayerId 0 }

def bombPlaced (e : GameEngine β) (pos : Position) : GameEngine β :=
  { e with
    nextBombId := e.nextBombId + 1
    bombs := e.bombs.insertIfNew e.nextBombId ⟨pos, e.gameParams.bombTimer⟩
    turns := logEvents e.turns e.currentTurn.toNat [.bombPlaced e.nextBombId pos] }

def moved (e : GameEngine β) (id : PlayerId) (pos : Position) : GameEngine β :=
  { e with
    playersPositions := e.playersPositions.insert id pos
    turns := logEvents e.turns e.currentTurn.toNat [.playerMoved id pos] }

variable [PositionSet β]

def blockPlaced (e : GameEngine β) (pos : Position) : GameEngine β :=
  { e with
    blocksPositions := PositionSet.insert e.blocksPositions pos
    turns := logEvents e.turns e.currentTurn.toNat [.blockPlaced pos] }

/-- The outcomes of the message handlers. -/
inductive Handled (e : GameEngine β) (i : Slot) (u : Position) :
    ClientMessage → GameEngine β → List Sending → Prop
  | late {name : Bytes} (hs : e.gameplayStarted = true) : Handled e i u (.join name) e []
  | join {name address : Bytes} (hs : e.gameplayStarted = false)
      (ha : e.tcpHandler.addresses[i.val]? = some address)
      (hn : (e.joined i ⟨name, address⟩).players.size ≠ e.gameParams.playersCount.toNat) :
      Handled e i u (.join name) (e.joined i ⟨name, address⟩)
        (e.tcpHandler.sendMessageToAll (.acceptedPlayer e.nextPlayerId ⟨name, address⟩))
  | start {name address : Bytes} {e' : GameEngine β} {sent : List Sending}
      (hs : e.gameplayStarted = false) (ha : e.tcpHandler.addresses[i.val]? = some address)
      (hn : (e.joined i ⟨name, address⟩).players.size = e.gameParams.playersCount.toNat)
      (hg : (e.joined i ⟨name, address⟩).startGameplay = .ok (e', sent)) :
      Handled e i u (.join name) e'
        (e.tcpHandler.sendMessageToAll (.acceptedPlayer e.nextPlayerId ⟨name, address⟩) ++ sent)
  | idle {msg : ClientMessage} (hm : msg.isJoin = false) (ha : e.actingPlayer i = none) :
      Handled e i u msg e []
  | bomb {id : PlayerId} {pos : Position} (ha : e.actingPlayer i = some id)
      (hp : e.playersPositions[id]? = some pos) : Handled e i u .placeBomb (e.bombPlaced pos) []
  | block {id : PlayerId} {pos : Position} (ha : e.actingPlayer i = some id)
      (hp : e.playersPositions[id]? = some pos) : Handled e i u .placeBlock (e.blockPlaced pos) []
  | stay {id : PlayerId} {pos : Position} {d : Direction} (ha : e.actingPlayer i = some id)
      (hp : e.playersPositions[id]? = some pos)
      (hc : e.checkPositionToMove (newPosition pos u d) = false) : Handled e i u (.move d) e []
  | move {id : PlayerId} {pos : Position} {d : Direction} (ha : e.actingPlayer i = some id)
      (hp : e.playersPositions[id]? = some pos)
      (hc : e.checkPositionToMove (newPosition pos u d) = true) :
      Handled e i u (.move d) (e.moved id (newPosition pos u d)) []

theorem handleJoin_ok {name : Bytes} (h : e.handleJoin i name = .ok (e', sent)) :
    Handled e i u (.join name) e' sent := by
  unfold handleJoin at h
  split at h
  · obtain ⟨rfl, rfl⟩ := Prod.mk.inj (Except.ok.inj h)
    exact .late ‹_›
  · rename_i hs
    rw [Bool.not_eq_true] at hs
    obtain ⟨address, ha, h⟩ := Except.bind_eq_ok_iff.mp h
    replace ha : e.tcpHandler.addresses[i.val]? = some address := by
      unfold ServerTcpHandler.getAddress at ha
      split at ha
      · rename_i hx
        rw [hx, Except.ok.inj ha]
      · cases ha
    dsimp only at h
    split at h
    · rename_i hn
      obtain ⟨⟨e₁, sent₁⟩, hg, h⟩ := Except.bind_eq_ok_iff.mp h
      obtain ⟨rfl, rfl⟩ := Prod.mk.inj (Except.pure_eq_ok.mp h)
      exact .start hs ha hn hg
    · rename_i hn
      obtain ⟨rfl, rfl⟩ := Prod.mk.inj (Except.pure_eq_ok.mp h)
      exact .join hs ha hn

theorem handlePlaceBomb_ok (h : e.handlePlaceBomb i = .ok e') : Handled e i u .placeBomb e' [] := by
  unfold handlePlaceBomb at h
  split at h
  · obtain rfl := Except.ok.inj h
    exact .idle rfl ‹_›
  · obtain ⟨pos, hp, h⟩ := Except.bind_eq_ok_iff.mp h
    obtain ⟨-, rfl⟩ := addEvent_ok_iff.mp h
    exact .bomb ‹_› (positionAt_ok_iff.mp hp)

theorem handlePlaceBlock_ok (h : e.handlePlaceBlock i = .ok e') :
    Handled e i u .placeBlock e' [] := by
  unfold handlePlaceBlock at h
  split at h
  · obtain rfl := Except.ok.inj h
    exact .idle rfl ‹_›
  · obtain ⟨pos, hp, h⟩ := Except.bind_eq_ok_iff.mp h
    obtain ⟨-, rfl⟩ := addEvent_ok_iff.mp h
    exact .block ‹_› (positionAt_ok_iff.mp hp)

theorem handleMove_ok {d : Direction} (h : e.handleMove i d u = .ok e') :
    Handled e i u (.move d) e' [] := by
  unfold handleMove at h
  split at h
  · obtain rfl := Except.ok.inj h
    exact .idle rfl ‹_›
  · obtain ⟨pos, hp, h⟩ := Except.bind_eq_ok_iff.mp h
    dsimp only at h
    split at h
    · rename_i hc
      obtain rfl := Except.pure_eq_ok.mp h
      exact .stay ‹_› (positionAt_ok_iff.mp hp) (by simpa using hc)
    · rename_i hc
      obtain ⟨-, rfl⟩ := addEvent_ok_iff.mp h
      exact .move ‹_› (positionAt_ok_iff.mp hp) (by simpa using hc)

theorem handleClientMessage_ok (h : e.handleClientMessage i u msg = .ok (e', sent)) :
    Handled e i u msg e' sent := by
  cases msg with
  | join name => exact handleJoin_ok h
  | placeBomb =>
    obtain ⟨e₁, h₁, h⟩ := Except.bind_eq_ok_iff.mp h
    obtain ⟨rfl, rfl⟩ := Prod.mk.inj (Except.pure_eq_ok.mp h)
    exact handlePlaceBomb_ok h₁
  | placeBlock =>
    obtain ⟨e₁, h₁, h⟩ := Except.bind_eq_ok_iff.mp h
    obtain ⟨rfl, rfl⟩ := Prod.mk.inj (Except.pure_eq_ok.mp h)
    exact handlePlaceBlock_ok h₁
  | move d =>
    obtain ⟨e₁, h₁, h⟩ := Except.bind_eq_ok_iff.mp h
    obtain ⟨rfl, rfl⟩ := Prod.mk.inj (Except.pure_eq_ok.mp h)
    exact handleMove_ok h₁

theorem handleJoin_error {name : Bytes} (h : e.handleJoin i name = .error f)
    (ha : i.val ∈ e.tcpHandler.addresses) (hlen : e.currentTurn.toNat ≤ e.turns.length) :
    f = .divisionByZero := by
  unfold handleJoin at h
  split at h
  · cases h
  · rcases Except.bind_eq_error_iff.mp h with h | ⟨address, -, h⟩
    · obtain ⟨address, haddr⟩ := Std.ExtTreeMap.mem_iff_exists_getElem?.mp ha
      simp [ServerTcpHandler.getAddress, haddr] at h
    · dsimp only at h
      split at h
      · rcases Except.bind_eq_error_iff.mp h with h | ⟨⟨e₁, sent₁⟩, -, h⟩
        · exact (startGameplay_error h hlen).1
        · exact absurd h Except.pure_ne_error
      · exact absurd h Except.pure_ne_error

theorem handlePlaceBlock_error (h : e.handlePlaceBlock i = .error f) :
    ∃ id, e.actingPlayer i = some id ∧
      (id ∉ e.playersPositions ∨ e.turns.length ≤ e.currentTurn.toNat) := by
  unfold handlePlaceBlock at h
  split at h
  · cases h
  · refine ⟨_, ‹_›, positionAt_bind_error h fun pos h => ?_⟩
    have := addEvent_error h
    exact this

theorem handleMove_error {d : Direction} (h : e.handleMove i d u = .error f) :
    ∃ id, e.actingPlayer i = some id ∧
      (id ∉ e.playersPositions ∨ e.turns.length ≤ e.currentTurn.toNat) := by
  unfold handleMove at h
  split at h
  · cases h
  · refine ⟨_, ‹_›, positionAt_bind_error h fun pos h => ?_⟩
    dsimp only at h
    split at h
    · exact absurd h Except.pure_ne_error
    · have := addEvent_error h
      exact this

theorem handleAction_error (h : e.handleClientMessage i u msg = .error f)
    (hm : msg.isJoin = false) :
    ∃ id, e.actingPlayer i = some id ∧
      (id ∉ e.playersPositions ∨ e.turns.length ≤ e.currentTurn.toNat) := by
  cases msg with
  | join name => cases hm
  | placeBomb =>
    rcases Except.bind_eq_error_iff.mp h with h | ⟨e₁, -, h⟩
    · exact handlePlaceBomb_error h
    · exact absurd h Except.pure_ne_error
  | placeBlock =>
    rcases Except.bind_eq_error_iff.mp h with h | ⟨e₁, -, h⟩
    · exact handlePlaceBlock_error h
    · exact absurd h Except.pure_ne_error
  | move d =>
    rcases Except.bind_eq_error_iff.mp h with h | ⟨e₁, -, h⟩
    · exact handleMove_error h
    · exact absurd h Except.pure_ne_error

/-- An action of a player without a robot escapes with the exception of `at`. -/
theorem handleAction_outOfRange {id : PlayerId} (hm : msg.isJoin = false)
    (ha : e.actingPlayer i = some id) (hp : id ∉ e.playersPositions) :
    e.handleClientMessage i u msg = .error .outOfRange := by
  have hat : ∀ e' : GameEngine β, e'.playersPositions = e.playersPositions →
      e'.positionAt id = .error .outOfRange := by
    intro e' he
    simp [positionAt, he, Std.ExtTreeMap.getElem?_eq_none hp]
  cases msg with
  | join name => cases hm
  | placeBomb =>
    simp only [handleClientMessage, handlePlaceBomb, ha]
    rw [hat { e with nextBombId := e.nextBombId + 1 } rfl]
    rfl
  | placeBlock =>
    simp only [handleClientMessage, handlePlaceBlock, ha]
    rw [hat e rfl]
    rfl
  | move d =>
    simp only [handleClientMessage, handleMove, ha]
    rw [hat e rfl]
    rfl

end GameEngine

end Bomberrobots
