import Bomberrobots.Client.Follow

/-! # The players that a client knows

A client puts the list of players together in the lobby, from a greeting and from
broadcasts, and takes it over when a game starts. The list in the message that starts the
game is not looked at.
-/

namespace Bomberrobots

namespace Client

open GameInfo

variable {γ : Type} [PositionSet γ] {c c' : Client γ} {players : StdMap PlayerId Player}
  {msgs msgs' : List ServerMessage}

theorem handleServerMessages_append : c.handleServerMessages (msgs ++ msgs') =
    c.handleServerMessages msgs >>= fun c => c.handleServerMessages msgs' :=
  List.foldlM_append

theorem handleServerMessages_ok
    (hstart : ∀ msg ∈ msgs, ∀ players, msg ≠ .gameStarted players)
    (hscores : ∀ msg ∈ msgs, ∀ id ∈ msg.robotsDestroyed, id ∈ c.gameInfo.scores) :
    ∃ c', c.handleServerMessages msgs = .ok c' := by
  induction msgs generalizing c with
  | nil => exact ⟨c, rfl⟩
  | cons msg msgs ih =>
    obtain ⟨c', hc', hkeys⟩ := handleServerMessage_ok (hscores msg List.mem_cons_self)
    rw [handleServerMessages, List.foldlM_cons, hc']
    apply ih
    · exact fun msg hmsg => hstart msg (List.mem_cons_of_mem _ hmsg)
    · intro msg' hmsg id hid
      exact (hkeys (hstart msg List.mem_cons_self) id).mpr
        (hscores msg' (List.mem_cons_of_mem _ hmsg) id hid)

/-- The messages of a game never make the client fail, as long as only the players are destroyed. -/
def Reads (c : Client γ) (players : StdMap PlayerId Player) : Prop :=
  ∀ msgs : List ServerMessage, (∀ msg ∈ msgs, ∀ players', msg ≠ .gameStarted players') →
    (∀ msg ∈ msgs, ∀ id ∈ msg.robotsDestroyed, id ∈ players) →
    ∃ c', c.handleServerMessages msgs = .ok c'

/-- The client plays the game with these players. -/
structure PlaysWith (c : Client γ) (players : StdMap PlayerId Player) : Prop where
  map : c.gameInfo.players = players
  keys : ∀ id, id ∈ c.gameInfo.scores ↔ id ∈ players
  reads : c.Reads players

theorem mem_scores_readGameStarted {id : PlayerId} :
    id ∈ c.readGameStarted.scores ↔ id ∈ c.lobbyInfo.players := by
  rw [readGameStarted, scores, scores_new, Std.ExtTreeMap.mem_map]

/-- The client can be told about the robots that it knew in the lobby, and about no others. -/
theorem reads_iff (hc : c.handleServerMessage (.gameStarted players) = .ok c') :
    c'.Reads players ↔ ∀ id ∈ players, id ∈ c.lobbyInfo.players := by
  obtain rfl := Except.ok.inj hc
  constructor
  · intro h id hid
    have hmsg : id ∈ players → ∀ msg ∈ [ServerMessage.turn ⟨0, [.bombExploded 0 [id] []]⟩],
        ∀ id ∈ msg.robotsDestroyed, id ∈ players := by
      simp [ServerMessage.robotsDestroyed, Event.robotsDestroyed]
    obtain ⟨c', hread⟩ := h _ (by simp) (hmsg hid)
    obtain ⟨m, hm, -⟩ := Except.bind_eq_ok_iff.mp hread
    obtain ⟨g, hg, -⟩ := Except.bind_eq_ok_iff.mp hm
    obtain ⟨g', hevent, -⟩ := Except.bind_eq_ok_iff.mp hg
    obtain ⟨g'', hrobots, -⟩ := Except.bind_eq_ok_iff.mp hevent
    have hdestroyed : id ∈ (readPlayerIdList [id]).toList := by simp
    exact mem_scores_readGameStarted.mp (mem_scores_of_foldlM_destroyPlayer hrobots id hdestroyed)
  · intro h msgs hstart hscores
    apply handleServerMessages_ok hstart
    intro msg hmsg id hid
    exact mem_scores_readGameStarted.mpr (h id (hscores msg hmsg id hid))

/--
A client plays with the players of the message exactly when these are the players of its
lobby.
-/
theorem playsWith_iff (c : Client γ) (players : StdMap PlayerId Player) :
    ∃ c', c.handleServerMessage (.gameStarted players) = .ok c' ∧
      (c'.PlaysWith players ↔ c.lobbyInfo.players = players) := by
  refine ⟨_, rfl, ?_⟩
  constructor
  · intro h
    exact h.map
  · intro h
    refine ⟨h, fun id => ?_, (reads_iff rfl).mpr fun id hid => ?_⟩
    · rw [← h]
      exact mem_scores_readGameStarted
    · rwa [h]

def observer : Client (StdSet Position) := ⟨.default, .new [] 1 3 3 3 1 2, true⟩

/-- The greeting during a game does not make the players known. -/
theorem exists_not_playsWith :
    ¬ ∀ (c : Client (StdSet Position)) (players : StdMap PlayerId Player),
      ∃ c', c.handleServerMessage (.gameStarted players) = .ok c' ∧ c'.PlaysWith players := by
  intro h
  obtain ⟨c', hc', hplays⟩ := h observer ((∅ : StdMap PlayerId Player).insert 0 Server.nobody)
  have hknown := (reads_iff hc').mp hplays.reads 0 Std.ExtTreeMap.mem_insert_self
  exact Std.ExtTreeMap.not_mem_empty hknown

end Client

namespace Server

open GameEngine

variable {β γ : Type} [PositionSet γ] {c c' : Client γ} {p : ServerParameters} {s s' s₀ : Server β}
  {env : Env} {new : List ServerMessage} {tr tr₀ : List (Machine.Step (Server β) Env Sending)}

/-- The client knows the players who wait in the lobby. -/
def SameLobby (s : Server β) (c : Client γ) : Prop :=
  s.engine.gameplayStarted = false →
    c.lobbyInfo.players = s.engine.players ∧ c.isLobbyStatus = true

theorem handleServerMessages_acceptedPlayer (entries : List (PlayerId × Player)) :
    ∃ lobbyInfo, c.handleServerMessages (entries.map fun player =>
        .acceptedPlayer player.1 player.2) = .ok { c with lobbyInfo := lobbyInfo } ∧
      lobbyInfo.players = entries.foldl (fun players player =>
        players.insertIfNew player.1 player.2) c.lobbyInfo.players := by
  induction entries generalizing c with
  | nil => exact ⟨c.lobbyInfo, rfl, rfl⟩
  | cons entry entries ih =>
    exact ih (c := { c with lobbyInfo := c.lobbyInfo.addPlayer entry.1 entry.2 })

theorem sameLobby_greeting (h : c.handleServerMessages s.engine.greeting = .ok c') :
    SameLobby s c' := by
  intro hs
  rw [greeting, hs] at h
  obtain ⟨m, hm, h⟩ := Except.bind_eq_ok_iff.mp h
  have hempty : m.lobbyInfo.players = ∅ ∧ m.isLobbyStatus = true := by
    obtain rfl := Except.ok.inj hm
    exact ⟨rfl, rfl⟩
  obtain ⟨lobbyInfo, hread, hplayers⟩ :=
    handleServerMessages_acceptedPlayer (c := m) s.engine.players.toList
  obtain rfl := Except.ok.inj (hread.symm.trans h)
  rw [hempty.1, Std.ExtTreeMap.foldl_insertIfNew_toList] at hplayers
  exact ⟨hplayers, hempty.2⟩

variable [PositionSet β]

theorem Played.sameLobby (h : Played env s s' new) (hI : SameLobby s c)
    (hc : c.handleServerMessages new = .ok c') : SameLobby s' c' := by
  cases h with
  | still hp =>
    obtain rfl := Except.ok.inj hc
    exact hI
  | joined hl hlt hn =>
    obtain rfl := Except.ok.inj hc
    intro hs
    obtain ⟨hplayers, hstatus⟩ := hI hl.started
    refine ⟨?_, hstatus⟩
    simp only [LobbyInfo.addPlayer, GameEngine.joined, hplayers]
  | started hl hn hg =>
    exact fun hs => Bool.noConfusion (hs.symm.trans (hl.startGameplay hn hg).1.started)
  | acted hg hm hr hh =>
    obtain ⟨events, hlog⟩ := hh.logged hg
    exact fun hs => Bool.noConfusion (hs.symm.trans (hlog.started.trans hg.started))
  | opened hg hlt he hd => exact fun hs => Bool.noConfusion (hs.symm.trans hg.started)
  | sent hg hr hc ht => exact fun hs => Bool.noConfusion (hs.symm.trans hg.started)
  | closed hg hlt => exact fun hs => Bool.noConfusion (hs.symm.trans hg.started)
  | ended hg hlast =>
    obtain rfl := Except.ok.inj hc
    exact fun _ => ⟨rfl, rfl⟩

/--
A client that has been greeted and has applied all broadcasts since then knows the players
in the lobby.
-/
theorem path_sameLobby (hc : 0 < p.playersCount) (h₀ : (machine β p).Run tr₀ s₀)
    (h : (machine β p).Path s₀ tr s)
    (hread : c.handleServerMessages (s₀.engine.greeting ++ broadcasts (Machine.log tr)) = .ok c') :
    SameLobby s c' := by
  rw [Client.handleServerMessages_append] at hread
  obtain ⟨m, hm, hread⟩ := Except.bind_eq_ok_iff.mp hread
  refine path_played_of (C := fun _ _ => True)
    (I := fun msgs s => ∀ c', m.handleServerMessages msgs = .ok c' → SameLobby s c')
    hc h₀ h (fun _ _ => trivial) ?_ ?_ _ hread
  · intro c' hc'
    obtain rfl := Except.ok.inj hc'
    exact sameLobby_greeting hm
  · intro env msgs s s' new hw hI _ hs c' hc'
    rw [Client.handleServerMessages_append] at hc'
    obtain ⟨c₁, hc₁, hc'⟩ := Except.bind_eq_ok_iff.mp hc'
    exact hs.sameLobby (hI c₁ hc₁) hc'

def between : List Env :=
  pass false (.ready [0] ⟨some 5, []⟩ none) ++ pass false (.ready [0] ⟨some 6, []⟩ none) ++
    pass false (.ready [1] ⟨none, []⟩ (some [0, 0])) ++
    pass true (.ready [2] ⟨none, []⟩ (some [0, 0])) ++ pass true (.ready [0] ⟨some 7, []⟩ none) ++
    (List.replicate 2 (pass true (.ready [] ⟨none, []⟩ none))).flatten ++
    pass false (.ready [2] ⟨none, []⟩ (some [0, 1, 65]))

theorem path_sameLobby_between : ∃ tr₀ s₀ tr s c', (machine (StdSet Position) duo).Run tr₀ s₀ ∧
    s₀.engine.gameplayStarted = true ∧ (machine (StdSet Position) duo).Path s₀ tr s ∧
    s.engine.players.size = 1 ∧ Client.observer.handleServerMessages
      (s₀.engine.greeting ++ broadcasts (Machine.log tr)) = .ok c' ∧ SameLobby s c' := by
  have hcheck : (machine (StdSet Position) duo).check between (fun tr s =>
      match tr.drop 120 with
      | [] => false
      | t :: rest => t.pre.engine.gameplayStarted && (s.engine.players.size = 1 &&
        match Client.observer.handleServerMessages
          (t.pre.engine.greeting ++ broadcasts (Machine.log (t :: rest))) with
        | .ok _ => true
        | .error _ => false)) = true := by
    decide +kernel
  obtain ⟨tr, s, h, htest⟩ := Machine.run_of_check hcheck
  rw [← List.take_append_drop 120 tr] at h
  split at htest
  · cases htest
  · rename_i t rest hdrop
    rw [hdrop] at h
    obtain ⟨s₀, h₀, hpath⟩ := h.split
    obtain ⟨rfl, -, -⟩ := hpath.cons_inv
    simp only [Bool.and_eq_true, decide_eq_true_eq] at htest
    obtain ⟨hstart, hsize, hok⟩ := htest
    split at hok
    · rename_i c' hread
      exact ⟨_, _, _, s, c', h₀, hstart, hpath, hsize, hread,
        path_sameLobby (by decide) h₀ hpath hread⟩
    · cases hok

end Server

end Bomberrobots
