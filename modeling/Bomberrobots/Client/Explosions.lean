import Bomberrobots.Client.Bombs
import Bomberrobots.Server.Bounds

/-! # The explosions a client shows

Every turn clears the explosions of the client, and nothing adds one. So the client shows what
the server has covered exactly in the turns without an explosion.
-/

namespace Bomberrobots

namespace GameEngine

variable {β : Type} {e e' : GameEngine β} {id : BombId} {events : List Event}

/-- The bomb explodes in the current turn. -/
def Explodes (e : GameEngine β) (id : BombId) : Prop :=
  ∃ robots blocks, InTurn e.turns e.currentTurn.toNat (.bombExploded id robots blocks)

theorem explodes_logged (hlt : e.currentTurn.toNat < e.turns.length)
    (ht : e'.turns = logEvents e.turns e.currentTurn.toNat events)
    (hk : e'.currentTurn = e.currentTurn) (hn : explodedIds events = []) :
    Explodes e' id ↔ Explodes e id := by
  unfold Explodes
  simp only [ht, hk, inTurn_logEvents hlt, true_and]
  constructor
  · rintro ⟨robots, blocks, h | h⟩
    · exact ⟨robots, blocks, h⟩
    · have hid := mem_explodedIds.mpr ⟨robots, blocks, h⟩
      simp [hn] at hid
  · rintro ⟨robots, blocks, h⟩
    exact ⟨robots, blocks, .inl h⟩

theorem not_explodes (h : explodedIds (allEvents e.turns) = []) : ¬ Explodes e id := by
  rintro ⟨robots, blocks, hx⟩
  have hid := mem_explodedIds.mpr ⟨robots, blocks, hx.mem⟩
  simp [h] at hid

variable [PositionSet β]

theorem explodes_opened (hg : Gameplay e) (hlt : e.currentTurn < e.gameParams.gameLength) :
    Explodes e.opened id ↔ id ∈ (dueBombs e.bombs.toList).map Prod.fst := by
  have hn : e.opened.currentTurn.toNat = e.turns.length := hg.nextTurn hlt
  rw [← Lifecycle.explodedIds_map (e := e), mem_explodedIds, Explodes, hn]
  simp only [GameEngine.opened, inTurn_concat, true_and]
  constructor
  · rintro ⟨robots, blocks, h | h⟩
    · exact absurd h.lt (lt_irrefl _)
    · exact ⟨robots, blocks, h⟩
  · rintro ⟨robots, blocks, h⟩
    exact ⟨robots, blocks, .inr h⟩

end GameEngine

namespace Server

open GameEngine

variable {β : Type} {p : ServerParameters} {s s' : Server β} {env : Env} {out : List Sending}
  {tr : List (Machine.Step (Server β) Env Sending)}

/-- The engine on which the last pass of the loop has called `begin_turn`, if it has. -/
def openedFrom (tr : List (Machine.Step (Server β) Env Sending)) : Option (GameEngine β) :=
  tr.foldl (fun opened t =>
    if t.pre.point = .top then
      if t.pre.engine.gameplayStarted then some t.pre.engine else none
    else opened) none

theorem openedFrom_concat {t : Machine.Step (Server β) Env Sending} :
    openedFrom (tr ++ [t]) =
      if t.pre.point = .top then
        if t.pre.engine.gameplayStarted then some t.pre.engine else none
      else openedFrom tr := by
  simp [openedFrom]

structure OpenedBy (tr : List (Machine.Step (Server β) Env Sending)) (s : Server β) : Prop where
  lobby : s.engine.gameplayStarted = false → s.point ≠ .top → openedFrom tr = none
  game : s.engine.gameplayStarted = true → s.point ≠ .top → ∀ id, Explodes s.engine id ↔
    ∃ e, openedFrom tr = some e ∧ id ∈ (dueBombs e.bombs.toList).map Prod.fst

namespace OpenedBy

theorem keep (h : OpenedBy tr s) (hp : s.point ≠ .top)
    (hs : s'.engine.gameplayStarted = s.engine.gameplayStarted)
    (hx : s.engine.gameplayStarted = true → ∀ id, Explodes s'.engine id ↔ Explodes s.engine id) :
    OpenedBy (tr ++ [⟨s, env, out, s'⟩]) s' := by
  have hsame : openedFrom (tr ++ [⟨s, env, out, s'⟩]) = openedFrom tr := by
    rw [openedFrom_concat, if_neg hp]
  constructor
  · intro hs' _
    exact hsame.trans (h.lobby (hs ▸ hs') hp)
  · intro hs' _ id
    rw [hsame, hx (hs ▸ hs')]
    exact h.game (hs ▸ hs') hp id

variable [PositionSet β]

theorem handled {e e' : GameEngine β} {i : Slot} {msg : ClientMessage}
    (h : OpenedBy tr ⟨e, .client i⟩) (hw : Wf p ⟨e, .client i⟩)
    (hh : Handled e i env.uninitialised msg e' out) :
    OpenedBy (tr ++ [⟨⟨e, .client i⟩, env, out, ⟨e', nextClient i⟩⟩]) ⟨e', nextClient i⟩ := by
  have hphase : Lobby e ∨ Gameplay e := hw.phase
  rcases hphase with hl | hg
  · rcases hh.lobby hl with ⟨-, rfl, rfl⟩ | ⟨player, -, -, rfl, rfl⟩ | ⟨player, sent, -, hn, hg, -⟩
    · exact h.keep nofun rfl fun _ _ => Iff.rfl
    · exact h.keep nofun rfl fun _ _ => Iff.rfl
    · obtain ⟨robots, blocks, hb⟩ := hl.begun hg
      have hnone : openedFrom tr = none := h.lobby hl.started nofun
      constructor
      · intro hs' _
        exact absurd (hs'.symm.trans (hl.startGameplay hn hg).1.started) nofun
      · intro _ _ id
        rw [openedFrom_concat, if_neg nofun, hnone]
        exact iff_of_false (not_explodes hb.bombless.2) nofun
  · have hlt := hg.currentTurn_lt
    obtain ⟨-, rfl | ⟨id, pos, -, -, rfl | rfl | ⟨pos', -, rfl⟩⟩⟩ := hh.gameplay hg
    · exact h.keep nofun rfl fun _ _ => Iff.rfl
    · exact h.keep nofun rfl fun _ _ => explodes_logged hlt rfl rfl rfl
    · exact h.keep nofun rfl fun _ _ => explodes_logged hlt rfl rfl rfl
    · exact h.keep nofun rfl fun _ _ => explodes_logged hlt rfl rfl rfl

theorem stepped (h : OpenedBy tr s) (hw : Wf p s) (hs : Stepped env s s' out) :
    OpenedBy (tr ++ [⟨s, env, out, s'⟩]) s' := by
  cases hs with
  | lobby hs =>
    constructor
    · intro _ _
      rw [openedFrom_concat]
      simp [hs]
    · exact fun hs' => Bool.noConfusion (hs.symm.trans hs')
  | @openTurn e e' hs hb =>
    obtain ⟨-, rfl⟩ := hw.opened hs hb
    have hlt := (hw.closed rfl hs).1
    rw [← hw.params] at hlt
    have hg : Gameplay (e.withHandler e.tcpHandler.resetRevents) := (hw.gameplay hs).withHandler
    constructor
    · exact fun hs' => Bool.noConfusion (hs.symm.trans hs')
    · intro _ _ id
      rw [explodes_opened hg hlt, openedFrom_concat]
      simp [hs, withHandler]
  | quiet hp => exact h.keep (by simp) rfl fun _ _ => Iff.rfl
  | polled hp => exact h.keep (by simp) rfl fun _ _ => Iff.rfl
  | noClient hn => exact h.keep (by simp) rfl fun _ _ => Iff.rfl
  | full hn hf => exact h.keep (by simp) rfl fun _ _ => Iff.rfl
  | greet hn hf he =>
    subst he
    exact h.keep (by simp) rfl fun _ _ => Iff.rfl
  | noMessage hm => exact h.keep (by simp) rfl fun _ _ => Iff.rfl
  | refused hm hr => exact h.keep (by simp) rfl fun _ _ => Iff.rfl
  | handled hm hr hh => exact h.handled hw hh
  | rest hs => exact ⟨fun _ hp => absurd rfl hp, fun _ hp => absurd rfl hp⟩
  | send hs ht =>
    obtain ⟨robots, random, turn, -, -, -, rfl, -, -⟩ := sendTurn_ok ht
    have hlt := (hw.gameplay hs).currentTurn_lt
    exact h.keep (by simp) rfl fun _ _ => explodes_logged hlt rfl rfl bombless_movedEvent.2
  | finish => exact ⟨fun _ hp => absurd rfl hp, fun _ hp => absurd rfl hp⟩

end OpenedBy

variable [PositionSet β]

theorem run_openedBy (hc : 0 < p.playersCount) (h : (machine β p).Run tr s) : OpenedBy tr s := by
  refine h.invariant (I := OpenedBy) ⟨fun _ hp => absurd rfl hp, fun _ hp => absurd rfl hp⟩ ?_
  intro tr s env s' out hr hI hs
  exact hI.stepped (run_wf hc hr) (step_stepped hs)

/-- An explosion of the current turn covers the field, on the board on which the turn was opened. -/
def Covers (tr : List (Machine.Step (Server β) Env Sending)) (s : Server β) (pos : Position) :
    Prop :=
  ∃ (e : GameEngine β) (id : BombId) (bomb : Bomb), openedFrom tr = some e ∧
    e.bombs[id]? = some bomb ∧ Explodes s.engine id ∧ e.InBlast bomb.position pos

theorem exists_covers {id : BombId} (hc : 0 < p.playersCount) (h : (machine β p).Run tr s)
    (hs : s.engine.gameplayStarted = true) (hp : s.point ≠ .top) (hx : Explodes s.engine id) :
    ∃ pos, Covers tr s pos := by
  obtain ⟨e, he, hid⟩ := ((run_openedBy hc h).game hs hp id).mp hx
  obtain ⟨bomb, hbomb, -⟩ := mem_map_fst_dueBombs.mp hid
  exact ⟨bomb.position, e, id, bomb, he, hbomb, hx, .inl rfl⟩

variable {γ : Type} [PositionSet γ] [PositionSet.Grounded γ] {c : Client γ}
  {before after : List ServerMessage} {players : StdMap PlayerId Player}

theorem run_no_explosions (h : (machine β p).Run tr s) (hp : s.point = .broadcast)
    (hb : broadcasts (Machine.log tr) = before ++ .gameStarted players :: after)
    (hlast : ∀ players', .gameStarted players' ∉ after) (hfull : c.lobbyInfo.players = players) :
    ∃ c', c.handleServerMessages (.gameStarted players :: after) = .ok c' ∧
      PositionSet.toList c'.gameInfo.explosions = [] := by
  obtain ⟨-, c', turn, hread, hgame⟩ := run_follow h hp hb hlast hfull
  refine ⟨c', hread, ?_⟩
  rw [hgame, GameInfo.explosions_foldl_seen]
  exact PositionSet.Grounded.toList_empty

/-- A client shows the explosions of a turn exactly if no bomb explodes in it. -/
theorem run_explosions_iff (h : (machine β p).Run tr s) (hp : s.point = .broadcast)
    (hb : broadcasts (Machine.log tr) = before ++ .gameStarted players :: after)
    (hlast : ∀ players', .gameStarted players' ∉ after) (hfull : c.lobbyInfo.players = players) :
    ∃ c', c.handleServerMessages (.gameStarted players :: after) = .ok c' ∧
      ((∀ pos, pos ∈ PositionSet.toList c'.gameInfo.explosions ↔ Covers tr s pos) ↔
        ∀ id, ¬ Explodes s.engine id) := by
  have hs := started_of_broadcast h hp
  obtain ⟨c', hread, hempty⟩ := run_no_explosions h hp hb hlast hfull
  refine ⟨c', hread, ?_⟩
  simp only [hempty, List.not_mem_nil, false_iff]
  constructor
  · intro hcover id hx
    obtain ⟨pos, hpos⟩ := exists_covers (playersCount_pos h hs) h hs (by simp [hp]) hx
    exact hcover pos hpos
  · rintro hnone pos ⟨e, id, bomb, -, -, hx, -⟩
    exact hnone id hx

theorem exists_explodes : ∃ tr s, (machine (StdSet Position) solo).Run tr s ∧ SoloGame tr s ∧
    Explodes s.engine 0 := by
  have hcheck : (machine (StdSet Position) solo).check blown (fun tr s =>
      decide (SoloGame tr s) && s.engine.turns[s.engine.currentTurn.toNat]?.any fun info =>
        0 ∈ explodedIds info.events) = true := by
    decide +kernel
  obtain ⟨tr, s, h, htest⟩ := Machine.run_of_check hcheck
  simp only [Bool.and_eq_true, decide_eq_true_eq, Option.any_eq_true, mem_explodedIds] at htest
  obtain ⟨hsolo, info, hinfo, robots, blocks, he⟩ := htest
  exact ⟨tr, s, h, hsolo, robots, blocks, info, hinfo, he⟩

theorem run_explosions_iff_blown : ∃ tr s c', (machine (StdSet Position) solo).Run tr s ∧
    watcher.handleServerMessages (.gameStarted s.engine.players :: s.engine.turns.map .turn) =
      .ok c' ∧
    ¬ ∀ pos, pos ∈ PositionSet.toList c'.gameInfo.explosions ↔ Covers tr s pos := by
  obtain ⟨tr, s, h, ⟨hp, hfull, hb⟩, hx⟩ := exists_explodes
  obtain ⟨c', hread, hiff⟩ := run_explosions_iff h hp hb (by simp) hfull
  exact ⟨tr, s, c', h, hread, fun hall => hiff.mp hall 0 hx⟩

/-- Clients do not show explosions. -/
theorem exists_explosions_ne : ¬ ∀ (p : ServerParameters)
    (tr : List (Machine.Step (Server (StdSet Position)) Env Sending)) (s : Server (StdSet Position))
    (c : Client (StdSet Position)) (before after : List ServerMessage)
    (players : StdMap PlayerId Player), (machine (StdSet Position) p).Run tr s →
    s.point = .broadcast → broadcasts (Machine.log tr) = before ++ .gameStarted players :: after →
    (∀ players', .gameStarted players' ∉ after) → c.lobbyInfo.players = players →
    ∃ c', c.handleServerMessages (.gameStarted players :: after) = .ok c' ∧
      ∀ pos, pos ∈ PositionSet.toList c'.gameInfo.explosions ↔ Covers tr s pos := by
  intro hall
  obtain ⟨tr, s, h, ⟨hp, hfull, hb⟩, hx⟩ := exists_explodes
  have hlast : ∀ players', .gameStarted players' ∉ s.engine.turns.map ServerMessage.turn := by
    simp
  obtain ⟨c', hread, hsame⟩ := hall solo tr s watcher _ _ _ h hp hb hlast hfull
  obtain ⟨c'', hread', hempty⟩ := run_no_explosions h hp hb hlast hfull
  obtain rfl := Except.ok.inj (hread.symm.trans hread')
  have hs := started_of_broadcast h hp
  obtain ⟨pos, hpos⟩ := exists_covers (by decide) h hs (by simp [hp]) hx
  have hshown := (hsame pos).mpr hpos
  simp [hempty] at hshown

end Server

end Bomberrobots
