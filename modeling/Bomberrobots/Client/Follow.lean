import Bomberrobots.Client.Reading
import Bomberrobots.Server.Protocol
import Bomberrobots.Server.Replay

/-! # Following a game

From the start of a game on, the server has broadcast its first turns, one after
another. A client that applies them has seen the events that the server has logged.
-/

namespace Bomberrobots

namespace Server

open GameEngine

variable {β : Type} {s s' : Server β} {msgs new : List ServerMessage}

/-- What has been broadcast of the running game: its start and the turns that are closed. -/
def GameSent (s : Server β) (msgs : List ServerMessage) : Prop :=
  s.engine.gameplayStarted = true → ∀ before players after,
    msgs = before ++ .gameStarted players :: after →
    (∀ players', .gameStarted players' ∉ after) →
    players = s.engine.players ∧ after = (s.engine.turns.take s.turnsSent).map .turn

theorem GameSent.keep (h : GameSent s msgs)
    (hs : s'.engine.gameplayStarted = true → s.engine.gameplayStarted = true)
    (hnew : ∀ players, .gameStarted players ∉ new) (hp : s'.engine.players = s.engine.players)
    (ht : (s'.engine.turns.take s'.turnsSent).map ServerMessage.turn =
      (s.engine.turns.take s.turnsSent).map .turn ++ new) : GameSent s' (msgs ++ new) := by
  intro hs' before players after hb hlast
  rcases List.append_eq_append_cons hb with ⟨mid, hmsgs, rfl⟩ | ⟨mid, -, rfl⟩
  · obtain ⟨rfl, rfl⟩ := h (hs hs') before players mid hmsgs fun players' hm =>
      hlast players' (List.mem_append_left _ hm)
    exact ⟨hp.symm, ht.symm⟩
  · exact absurd (List.mem_append_right _ List.mem_cons_self) (hnew players)

variable [PositionSet β] {p : ServerParameters} {env : Env}

theorem Played.gameSent (h : Played env s s' new) (hI : GameSent s msgs) :
    GameSent s' (msgs ++ new) := by
  cases h with
  | @still e point point' handler hp =>
    intro hs
    have hsent : turnsSent (⟨e.withHandler handler, point'⟩ : Server β) =
        turnsSent ⟨e, point⟩ := by
      simp only [turnsSent, hp hs]
      rfl
    rw [List.append_nil]
    intro before players after hb hlast
    rw [hsent]
    exact hI hs before players after hb hlast
  | joined hl hlt hn => exact fun hs => Bool.noConfusion (hl.started.symm.trans hs)
  | @started e e' i player sent hl hn hg =>
    intro hs before players after hb hlast
    have hturn : e'.currentTurn.toNat = 0 := by
      rw [(hl.startGameplay hn hg).2.1]
      rfl
    have hplayers : e'.players = (e.joined i player).players := by
      obtain ⟨robots, blocks, random, -, -, -, -, -, rfl⟩ := startGameplay_ok hg
      rfl
    simp only [turnsSent, sent_nextClient, hturn, hplayers]
    rcases List.append_eq_append_cons hb with ⟨mid, -, rfl⟩ | ⟨mid, -, hnew⟩
    · exact absurd (List.mem_append_right _ (by simp)) (hlast (e.joined i player).players)
    · rcases mid with _ | ⟨msg, _ | ⟨msg', mid⟩⟩
      · simp at hnew
      · obtain ⟨-, hstart, rfl⟩ : _ ∧ _ = _ ∧ [] = after := by simpa using hnew
        exact ⟨hstart.symm, rfl⟩
      · simp at hnew
  | @acted e e' i msg hg hm hr hh =>
    obtain ⟨events, hlog⟩ := hh.logged hg
    refine hI.keep hlog.started.symm.trans (by simp) hlog.players ?_
    simp [turnsSent, hlog.turn, hlog.turns, take_logEvents]
  | @opened e handler hg hlt he hd =>
    refine hI.keep (fun hs => hs) (by simp) rfl ?_
    have hn : (e.currentTurn + 1).toNat = e.turns.length := hg.nextTurn hlt
    simp only [turnsSent, GameEngine.opened, withHandler, hn, Point.sent_top, Point.sent_poll,
      List.append_nil, Nat.add_zero, ← hg.length]
    rw [List.take_left, List.take_length]
  | @sent e robots random turn hg hr hc hturn =>
    refine hI.keep (fun hs => hs) (by simp) rfl ?_
    have hsame : (e.respawned robots random).currentTurn = e.currentTurn := rfl
    simp only [turnsSent, hsame, Point.sent_bottom, Point.sent_broadcast, Nat.add_zero]
    rw [List.take_add_one, hturn, GameEngine.respawned, seeded, take_logEvents]
    simp
  | @closed e hg hlt => exact hI.keep (fun hs => hs) (by simp) rfl (by simp [turnsSent, settled])
  | ended hg hlast => exact fun hs => Bool.noConfusion hs

/-- Every robot that an explosion destroys belongs to a player of the game. -/
def Destroyable (s : Server β) : Prop :=
  s.engine.gameplayStarted = true → ∀ event ∈ allEvents s.engine.turns,
    ∀ id ∈ event.robotsDestroyed, id ∈ s.engine.players

theorem mem_robotsDestroyed_logEvents {turns : List TurnInfo} {k : ℕ} {events : List Event}
    (h : k + 1 = turns.length) (hnone : ∀ event ∈ events, event.robotsDestroyed = []) :
    ∀ event ∈ allEvents (logEvents turns k events), ∀ id ∈ event.robotsDestroyed,
      event ∈ allEvents turns := by
  intro event he id hid
  rw [allEvents_logEvents h] at he
  rcases List.mem_append.mp he with he | he
  · exact he
  · simp [hnone event he] at hid

theorem Played.destroyable (h : Played env s s' new) (hI : Destroyable s) : Destroyable s' := by
  cases h with
  | still hp => exact hI
  | joined hl hlt hn => exact fun hs => Bool.noConfusion (hl.started.symm.trans hs)
  | @started e e' i player sent hl hn hg =>
    intro hs event he id hid
    obtain ⟨robots, blocks, hb⟩ := hl.begun hg
    simp [hb.robotsDestroyed event he] at hid
  | @acted e e' i msg hg hm hr hh =>
    intro hs event he id hid
    obtain ⟨events, hlog⟩ := hh.logged hg
    rw [hlog.turns] at he
    rw [hlog.players]
    exact hI hg.started event (mem_robotsDestroyed_logEvents hg.length.symm hlog.robotsDestroyed
      event he id hid) id hid
  | @opened e handler hg hlt he hd =>
    intro hs event he id hid
    rw [allEvents_opened] at he
    rcases List.mem_append.mp he with he | he
    · exact hI hg.started event he id hid
    · obtain ⟨entry, hentry, rfl⟩ := List.mem_map.mp he
      have hdue : id ∈ e.dueRobots e.bombs.toList := List.mem_flatMap.mpr ⟨entry, hentry, hid⟩
      exact (hg.registered.players id).mpr (hg.dueRobots_lt hdue)
  | @sent e robots random turn hg hr hc hturn =>
    intro hs event he id hid
    exact hI hg.started event (mem_robotsDestroyed_logEvents hg.length.symm
      robotsDestroyed_movedEvent event he id hid) id hid
  | closed hg hlt => exact hI
  | ended hg hlast => exact fun hs => Bool.noConfusion hs

variable {γ : Type} [PositionSet γ] {c : Client γ} {tr : List (Machine.Step (Server β) Env Sending)}

/--
A client that knew the players of the game in the lobby reads all its broadcasts, and has
then seen the logged events.
-/
theorem run_follow (h : (machine β p).Run tr s) (hp : s.point = .broadcast)
    {before after : List ServerMessage} {players : StdMap PlayerId Player}
    (hb : broadcasts (Machine.log tr) = before ++ .gameStarted players :: after)
    (hlast : ∀ players', .gameStarted players' ∉ after) (hfull : c.lobbyInfo.players = players) :
    players = s.engine.players ∧ ∃ c' turn,
      c.handleServerMessages (.gameStarted players :: after) = .ok c' ∧
        c'.gameInfo = { (allEvents s.engine.turns).foldl GameInfo.seen c.readGameStarted with
          turn := turn } := by
  have hs := started_of_broadcast h hp
  have hc := playersCount_pos h hs
  have hg := (run_wf hc h).gameplay hs
  have hsent := run_played (I := fun msgs s => GameSent s msgs) hc h
    (fun hs => Bool.noConfusion hs) fun _ _ _ _ _ _ hI hs => hs.gameSent hI
  have hdestroy := run_played (I := fun _ s => Destroyable s) hc h
    (fun hs => Bool.noConfusion hs) fun _ _ _ _ _ _ hI hs => hs.destroyable hI
  obtain ⟨hplayers, rfl⟩ := hsent hs before players after hb hlast
  have hall : s.engine.turns.take s.turnsSent = s.engine.turns := by
    rw [turnsSent, hp, Point.sent_broadcast, ← hg.length, List.take_length]
  rw [hall]
  refine ⟨hplayers, ?_⟩
  have hplay : ∀ event ∈ allEvents s.engine.turns, ∀ id ∈ event.robotsDestroyed,
      id ∈ c.lobbyInfo.players := by
    rw [hfull, hplayers]
    exact hdestroy hs
  obtain ⟨turn, hread⟩ := Client.handleServerMessages_game players hplay
  exact ⟨_, turn, hread, rfl⟩

def nobody : Player := ⟨[], []⟩

def watcher : Client (StdSet Position) :=
  { Client.init with lobbyInfo := LobbyInfo.default.addPlayer 0 nobody }

def SoloGame (tr : List (Machine.Step (Server β) Env Sending)) (s : Server β) : Prop :=
  s.point = .broadcast ∧ watcher.lobbyInfo.players = s.engine.players ∧
    broadcasts (Machine.log tr) = [.acceptedPlayer 0 nobody] ++
      .gameStarted s.engine.players :: s.engine.turns.map .turn

instance : Decidable (SoloGame tr s) := instDecidableAnd

def blown : List Env :=
  soloJoin ++ pass true (.ready [1] ⟨none, []⟩ (some [1])) ++
    (List.replicate 2 (pass true (.ready [] ⟨none, []⟩ none))).flatten.dropLast

end Server

end Bomberrobots
