import Bomberrobots.Client.Receive
import Bomberrobots.Server.Rounds

/-! # What a client makes of a game

Where every destroyed robot has a score, reading never fails, and a client that reads a
whole game ends up with the effects of all its events, one after another.
-/

namespace Bomberrobots

@[simp] theorem mem_readPlayerIdList {ids : List PlayerId} {id : PlayerId} :
    id ∈ readPlayerIdList ids ↔ id ∈ ids := by
  rw [readPlayerIdList, Std.ExtTreeSet.mem_foldl_insert]
  simp

def ServerMessage.robotsDestroyed : ServerMessage → List PlayerId
  | .turn info => info.events.flatMap Event.robotsDestroyed
  | _ => []

namespace GameInfo

open GameEngine

variable {γ : Type} {g : GameInfo γ}

theorem foldlM_destroyPlayer {ids : List PlayerId} (hnd : ids.Nodup)
    (hs : ∀ id ∈ ids, id ∈ g.scores) :
    ids.foldlM destroyPlayer g = .ok { g with
      playerPositions := ids.foldl (fun positions id => positions.erase id) g.playerPositions
      scores := hitScores g.scores ids } := by
  induction ids generalizing g with
  | nil =>
    rw [hitScores_nil]
    rfl
  | cons id ids ih =>
    rw [List.nodup_cons] at hnd
    obtain ⟨score, hscore⟩ := Std.ExtTreeMap.mem_iff_exists_getElem?.mp (hs id List.mem_cons_self)
    have hhit : g.scores.insert id (score + 1) = hitScores g.scores [id] := by
      have hfirst : (hitScores g.scores []).insert id (score + 1) = hitScores g.scores [id] :=
        hitScores_concat hscore
      rwa [hitScores_nil] at hfirst
    have hstep : destroyPlayer g id = .ok { g with
        playerPositions := g.playerPositions.erase id
        scores := hitScores g.scores [id] } := by
      simp only [destroyPlayer, hscore, hhit]
    have hdis : [id].Disjoint ids := by
      rw [List.singleton_disjoint]
      exact hnd.1
    rw [List.foldlM_cons, hstep]
    refine (ih hnd.2 fun k hk => ?_).trans ?_
    · exact mem_hitScores.mpr (hs k (List.mem_cons_of_mem _ hk))
    · simp only [hitScores_append hdis, List.singleton_append, List.foldl_cons]

theorem mem_scores_of_foldlM_destroyPlayer {ids : List PlayerId} {g' : GameInfo γ}
    (h : ids.foldlM destroyPlayer g = .ok g') : ∀ id ∈ ids, id ∈ g.scores := by
  induction ids generalizing g with
  | nil => simp
  | cons id ids ih =>
    rw [List.foldlM_cons] at h
    obtain ⟨m, hm, h⟩ := Except.bind_eq_ok_iff.mp h
    unfold destroyPlayer at hm
    split at hm
    · rename_i score hscore
      obtain rfl := Except.ok.inj hm
      have hid : id ∈ g.scores := by
        rw [Std.ExtTreeMap.mem_iff_isSome_getElem?, hscore]
        rfl
      rw [List.forall_mem_cons]
      refine ⟨hid, fun id' hid' => ?_⟩
      have hmem : id' ∈ g.scores.insert id (score + 1) := ih h id' hid'
      rcases Std.ExtTreeMap.mem_insert.mp hmem with heq | hmem
      · rwa [← Std.LawfulEqOrd.eq_of_compare heq]
      · exact hmem
    · cases hm

theorem foldl_erase_readPlayerIdList {ids : List PlayerId} {m : StdMap PlayerId Position} :
    (readPlayerIdList ids).toList.foldl (fun m id => m.erase id) m =
      ids.foldl (fun m id => m.erase id) m := by
  ext id : 1
  simp only [Std.ExtTreeMap.getElem?_foldl_erase, Std.ExtTreeSet.mem_toList, mem_readPlayerIdList]

theorem getElem?_addScores {entries : List (PlayerId × Player)} {scores : StdMap PlayerId Score}
    {id : PlayerId} :
    (entries.foldl (fun scores player =>
        if scores.contains player.1 then scores else scores.insertIfNew player.1 0) scores)[id]? =
      scores[id]?.or (if id ∈ entries.map Prod.fst then some 0 else none) := by
  induction entries generalizing scores with
  | nil => simp
  | cons entry entries ih =>
    rw [List.foldl_cons, ih]
    by_cases hid : id = entry.1
    · subst hid
      have hself : entry.1 ∈ (entry :: entries).map Prod.fst := by simp
      rw [if_pos hself]
      by_cases he : entry.1 ∈ scores
      · simp [he]
      · have hnew : (scores.insertIfNew entry.1 0)[entry.1]? = some 0 := by
          rw [Std.ExtTreeMap.getElem?_insertIfNew, if_pos ⟨Std.ReflCmp.compare_self, he⟩]
        rw [if_neg (by simpa using he), hnew, Std.ExtTreeMap.getElem?_eq_none he]
        rfl
    · have hmem : id ∈ (entry :: entries).map Prod.fst ↔ id ∈ entries.map Prod.fst := by simp [hid]
      have hne : entry.1 ≠ id := Ne.symm hid
      simp only [hmem]
      by_cases he : entry.1 ∈ scores
      · simp [he]
      · simp [he, hne, Std.ExtTreeMap.getElem?_insertIfNew]

variable [PositionSet γ]

theorem foldl_removeBlock {positions : List Position} :
    positions.foldl removeBlock g =
      { g with blocks := positions.foldl PositionSet.erase g.blocks } := by
  induction positions generalizing g with
  | nil => rfl
  | cons position positions ih => exact ih

def seen (g : GameInfo γ) : Event → GameInfo γ
  | .bombPlaced id position => g.addBomb id position
  | .bombExploded id robotsDestroyed blocksDestroyed =>
    { g with
      playerPositions := robotsDestroyed.foldl (fun m id => m.erase id) g.playerPositions
      blocks := (PositionSet.toList (readPositionList blocksDestroyed : γ)).foldl
        PositionSet.erase g.blocks
      bombs := g.bombs.erase id
      scores := hitScores g.scores robotsDestroyed }
  | .playerMoved id position => g.changePlayerPosition id position
  | .blockPlaced position => g.addBlock position

theorem readEvent_ok {event : Event} (hs : ∀ id ∈ event.robotsDestroyed, id ∈ g.scores) :
    g.readEvent event = .ok (g.seen event) := by
  cases event with
  | bombExploded id robotsDestroyed blocksDestroyed =>
    have hloop : (readPlayerIdList robotsDestroyed).toList.foldlM destroyPlayer
        (g.removeBomb id) = .ok _ :=
      foldlM_destroyPlayer Std.ExtTreeSet.nodup_toList fun id hid =>
        hs id (mem_readPlayerIdList.mp (Std.ExtTreeSet.mem_toList.mp hid))
    have hscores : hitScores (g.removeBomb id).scores (readPlayerIdList robotsDestroyed).toList =
        hitScores g.scores robotsDestroyed := hitScores_congr (by simp)
    simp only [readEvent, readBombExploded]
    rw [hloop, foldl_erase_readPlayerIdList, hscores]
    change Except.ok (List.foldl _ _ _) = _
    rw [foldl_removeBlock]
    rfl
  | _ => rfl

theorem mem_scores_seen {event : Event} {id : PlayerId} :
    id ∈ (g.seen event).scores ↔ id ∈ g.scores := by
  cases event with
  | bombExploded => exact mem_hitScores
  | _ => exact Iff.rfl

theorem mem_scores_foldl_seen {events : List Event} {id : PlayerId} :
    id ∈ (events.foldl seen g).scores ↔ id ∈ g.scores := by
  induction events generalizing g with
  | nil => rfl
  | cons event events ih => exact ih.trans mem_scores_seen

theorem foldlM_readEvent {events : List Event}
    (hs : ∀ event ∈ events, ∀ id ∈ event.robotsDestroyed, id ∈ g.scores) :
    events.foldlM readEvent g = .ok (events.foldl seen g) := by
  induction events generalizing g with
  | nil => rfl
  | cons event events ih =>
    rw [List.foldlM_cons, readEvent_ok (hs event List.mem_cons_self)]
    apply ih
    intro event' he id hid
    exact mem_scores_seen.mpr (hs event' (List.mem_cons_of_mem _ he) id hid)

theorem seen_newTurn {event : Event} {turn : UInt16} :
    (g.newTurn turn).seen event = (g.seen event).newTurn turn := by
  cases event <;> rfl

theorem foldl_seen_newTurn {events : List Event} {turn : UInt16} :
    events.foldl seen (g.newTurn turn) = (events.foldl seen g).newTurn turn := by
  induction events generalizing g with
  | nil => rfl
  | cons event events ih =>
    rw [List.foldl_cons, seen_newTurn]
    exact ih

theorem foldl_seen_turn {events : List Event} {turn : Option UInt16} :
    events.foldl seen { g with turn := turn } = { events.foldl seen g with turn := turn } := by
  induction events generalizing g with
  | nil => rfl
  | cons event events ih =>
    rw [List.foldl_cons, List.foldl_cons, ← ih]
    cases event <;> rfl

theorem explosions_foldl_seen {events : List Event} :
    (events.foldl seen g).explosions = g.explosions := by
  induction events generalizing g with
  | nil => rfl
  | cons event events ih =>
    rw [List.foldl_cons, ih]
    cases event <;> rfl

theorem foldlM_readTurn {turns : List TurnInfo} (hx : g.explosions = PositionSet.empty)
    (hs : ∀ event ∈ allEvents turns, ∀ id ∈ event.robotsDestroyed, id ∈ g.scores) :
    ∃ turn, turns.foldlM readTurn g = .ok { (allEvents turns).foldl seen g with turn := turn } := by
  induction turns generalizing g with
  | nil => exact ⟨g.turn, rfl⟩
  | cons info turns ih =>
    rw [allEvents_cons] at hs
    have hread : g.readTurn info = .ok ((info.events.foldl seen g).newTurn info.turn) := by
      rw [← foldl_seen_newTurn]
      exact foldlM_readEvent fun event he => hs event (List.mem_append_left _ he)
    have hkeys : ∀ event ∈ allEvents turns, ∀ id ∈ event.robotsDestroyed,
        id ∈ ((info.events.foldl seen g).newTurn info.turn).scores := by
      intro event he id hid
      exact mem_scores_foldl_seen.mpr (hs event (List.mem_append_right _ he) id hid)
    obtain ⟨turn, hturns⟩ := ih rfl hkeys
    refine ⟨turn, ?_⟩
    rw [List.foldlM_cons, hread]
    refine hturns.trans ?_
    have hempty : ((allEvents turns).foldl seen (info.events.foldl seen g)).explosions =
        PositionSet.empty := by
      rw [explosions_foldl_seen, explosions_foldl_seen, hx]
    rw [foldl_seen_newTurn, allEvents_cons, List.foldl_append, newTurn, ← hempty]

theorem scores_new {serverName : Bytes} {sizeX sizeY gameLength bombTimer : UInt16}
    {players : StdMap PlayerId Player} :
    (new serverName sizeX sizeY gameLength players bombTimer ∅ : GameInfo γ).scores =
      players.map fun _ _ => 0 := by
  ext id : 1
  have hdrop : dropScores players ∅ = ∅ := rfl
  simp only [new, hdrop, addScores, getElem?_addScores, Std.ExtTreeMap.map_fst_toList_eq_keys,
    Std.ExtTreeMap.mem_keys, Std.ExtTreeMap.getElem?_map]
  cases hid : players[id]? with
  | none => simp [Std.ExtTreeMap.mem_iff_isSome_getElem?, hid]
  | some player => simp [Std.ExtTreeMap.mem_iff_isSome_getElem?, hid]

end GameInfo

namespace Client

open GameEngine GameInfo

variable {γ : Type} [PositionSet γ] {c : Client γ} {turns : List TurnInfo}

theorem handleServerMessage_ok {msg : ServerMessage}
    (hscores : ∀ id ∈ msg.robotsDestroyed, id ∈ c.gameInfo.scores) :
    ∃ c', c.handleServerMessage msg = .ok c' ∧ ((∀ players, msg ≠ .gameStarted players) →
      ∀ id, id ∈ c'.gameInfo.scores ↔ id ∈ c.gameInfo.scores) := by
  cases msg with
  | turn info =>
    obtain ⟨g', hg', hkeys⟩ : ∃ g', c.gameInfo.readTurn info = .ok g' ∧
        ∀ id, id ∈ g'.scores ↔ id ∈ c.gameInfo.scores := by
      refine ⟨_, foldlM_readEvent fun event he id hid => ?_, fun id => mem_scores_foldl_seen⟩
      exact hscores id (List.mem_flatMap.mpr ⟨event, he, hid⟩)
    refine ⟨{ c with gameInfo := g' }, ?_, fun _ => hkeys⟩
    rw [handleServerMessage, hg']
    rfl
  | gameStarted players => exact ⟨_, rfl, fun hn => absurd rfl (hn players)⟩
  | _ => exact ⟨_, rfl, fun _ _ => Iff.rfl⟩

theorem handleServerMessages_turns : c.handleServerMessages (turns.map .turn) =
    (turns.foldlM readTurn c.gameInfo).map fun gameInfo => { c with gameInfo := gameInfo } := by
  induction turns generalizing c with
  | nil => rfl
  | cons info turns ih =>
    rw [List.map_cons, handleServerMessages, List.foldlM_cons, List.foldlM_cons,
      handleServerMessage]
    cases hread : c.gameInfo.readTurn info with
    | error f => rfl
    | ok gameInfo => exact ih

/-- A client that reads a game has seen the events of its turns. -/
theorem handleServerMessages_game (players : StdMap PlayerId Player)
    (hs : ∀ event ∈ allEvents turns, ∀ id ∈ event.robotsDestroyed, id ∈ c.lobbyInfo.players) :
    ∃ turn, c.handleServerMessages (.gameStarted players :: turns.map .turn) =
      .ok { c with
        gameInfo := { (allEvents turns).foldl seen c.readGameStarted with turn := turn }
        isLobbyStatus := false } := by
  have hkeys : ∀ event ∈ allEvents turns, ∀ id ∈ event.robotsDestroyed,
      id ∈ c.readGameStarted.scores := by
    intro event he id hid
    rw [readGameStarted, scores, scores_new, Std.ExtTreeMap.mem_map]
    exact hs event he id hid
  obtain ⟨turn, hturns⟩ := foldlM_readTurn rfl hkeys
  refine ⟨turn, ?_⟩
  rw [handleServerMessages, List.foldlM_cons]
  refine handleServerMessages_turns.trans ?_
  rw [hturns]
  rfl

end Client

end Bomberrobots
