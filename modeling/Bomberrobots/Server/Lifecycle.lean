import Bomberrobots.Server.Safety

/-! # The life of a bomb

A bomb counts down once in every turn after the one it was placed in, and leaves the board
in the turn in which it explodes. What the log says about a bomb follows from the turn in
which it was placed.
-/

namespace Bomberrobots

namespace GameEngine

variable {β : Type} {e e' : GameEngine β} {turns : List TurnInfo} {events : List Event}

def placedIds (events : List Event) : List BombId := events.filterMap Event.placedBomb

def explodedIds (events : List Event) : List BombId := events.filterMap Event.explodedBomb

theorem placedIds_append {events events' : List Event} :
    placedIds (events ++ events') = placedIds events ++ placedIds events' :=
  List.filterMap_append

theorem explodedIds_append {events events' : List Event} :
    explodedIds (events ++ events') = explodedIds events ++ explodedIds events' :=
  List.filterMap_append

/-- What the log of a game says about its bombs after `k` turns. -/
structure Lifecycle (e : GameEngine β) : Prop where
  /-- The bombs have been numbered in the order in which they were placed. -/
  placed : placedIds (allEvents e.turns) = (List.range (bombsPlaced e.turns)).map UInt32.ofNat
  /-- A bomb on the board counts down from the turn in which it was placed. -/
  live : ∀ id bomb, e.bombs[id]? = some bomb → 0 < bomb.timer.toNat ∧
    id ∉ explodedIds (allEvents e.turns) ∧
    ∃ t, InTurn e.turns t (.bombPlaced id bomb.position) ∧
      bomb.timer.toNat + e.currentTurn.toNat = t + e.gameParams.bombTimer.toNat
  /-- A bomb that is no longer on the board has exploded when its time was up. -/
  gone : ∀ t id pos, InTurn e.turns t (.bombPlaced id pos) → id ∉ e.bombs →
    t + e.gameParams.bombTimer.toNat ≤ e.currentTurn.toNat ∧
    (explodedIds (allEvents e.turns)).count id = 1 ∧
    ∃ robots blocks, InTurn e.turns (t + e.gameParams.bombTimer.toNat)
      (.bombExploded id robots blocks)
  /-- Only a bomb that was placed explodes. -/
  exploded : ∀ t id robots blocks, InTurn e.turns t (.bombExploded id robots blocks) →
    ∃ t' < t, ∃ pos, InTurn e.turns t' (.bombPlaced id pos)

theorem mem_placedIds {id : BombId} {pos : Position} (h : .bombPlaced id pos ∈ events) :
    id ∈ placedIds events :=
  List.mem_filterMap.mpr ⟨_, h, rfl⟩

theorem mem_explodedIds {id : BombId} :
    id ∈ explodedIds events ↔ ∃ robots blocks, .bombExploded id robots blocks ∈ events := by
  constructor
  · intro h
    obtain ⟨event, he, hid⟩ := List.mem_filterMap.mp h
    cases event with
    | bombExploded id' robots blocks =>
      obtain rfl := Option.some.inj hid
      exact ⟨robots, blocks, he⟩
    | _ => cases hid
  · rintro ⟨robots, blocks, he⟩
    exact List.mem_filterMap.mpr ⟨_, he, rfl⟩

/-- Events that have nothing to do with bombs. -/
def Bombless (events : List Event) : Prop := placedIds events = [] ∧ explodedIds events = []

theorem Bombless.not_placed (h : Bombless events) {id : BombId} {pos : Position} :
    .bombPlaced id pos ∉ events := by
  intro hm
  have := mem_placedIds hm
  simp [h.1] at this

theorem Bombless.not_exploded (h : Bombless events) {id : BombId} {robots : List PlayerId}
    {blocks : List Position} : .bombExploded id robots blocks ∉ events := by
  intro hm
  have := mem_explodedIds.mpr ⟨robots, blocks, hm⟩
  simp [h.2] at this

theorem Bombless.countP (h : Bombless events) : events.countP Event.isBombPlaced = 0 := by
  rw [List.countP_eq_zero]
  intro event he hb
  cases event with
  | bombPlaced id pos => exact h.not_placed he
  | _ => cases hb

theorem Bombless.append {events' : List Event} (h : Bombless events) (h' : Bombless events') :
    Bombless (events ++ events') := by
  constructor
  · rw [placedIds_append, h.1, h'.1]
    rfl
  · rw [explodedIds_append, h.2, h'.2]
    rfl

theorem bombless_map {α : Type} {l : List α} {f : α → Event} (hp : ∀ a, (f a).placedBomb = none)
    (hx : ∀ a, (f a).explodedBomb = none) : Bombless (l.map f) := by
  constructor
  · simp [placedIds, List.filterMap_map, hp]
  · simp [explodedIds, List.filterMap_map, hx]

theorem bombless_movedEvent {robots : List (PlayerId × Position)} :
    Bombless (robots.map movedEvent) := bombless_map (fun _ => rfl) fun _ => rfl

theorem Begun.bombless [PositionSet β] {robots : List (PlayerId × Position)}
    {blocks : List Position} (h : Begun e e' robots blocks) : Bombless (allEvents e'.turns) := by
  rw [h.events]
  exact bombless_movedEvent.append (bombless_map (fun _ => rfl) fun _ => rfl)

namespace Lifecycle

variable {t t' : ℕ} {id : BombId} {pos pos' : Position}

theorem nodup (h : Lifecycle e) (hg : Gameplay e) : (placedIds (allEvents e.turns)).Nodup := by
  rw [h.placed, hg.counted]
  refine List.Nodup.map_on ?_ List.nodup_range
  intro m hm n hn hmn
  have hmax := e.nextBombId.toNat_lt
  have hm' := UInt32.toNat_ofNat_of_lt' ((List.mem_range.mp hm).trans hmax)
  have hn' := UInt32.toNat_ofNat_of_lt' ((List.mem_range.mp hn).trans hmax)
  rw [← hm', ← hn', hmn]

theorem unique (h : Lifecycle e) (hg : Gameplay e) (hp : InTurn e.turns t (.bombPlaced id pos))
    (hp' : InTurn e.turns t' (.bombPlaced id pos')) : t = t' ∧ pos = pos' := by
  obtain ⟨ht, he⟩ := hp.unique (f := Event.placedBomb) hp' rfl rfl (h.nodup hg)
  exact ⟨ht, (Event.bombPlaced.inj he).2⟩

theorem ne_next (h : Lifecycle e) (hg : Gameplay e)
    (hp : InTurn e.turns t (.bombPlaced id pos)) : id ≠ e.nextBombId := by
  rintro rfl
  have hm := mem_placedIds hp.mem
  rw [h.placed, hg.counted] at hm
  obtain ⟨n, hn, he⟩ := List.mem_map.mp hm
  have hlt := List.mem_range.mp hn
  have hid : (UInt32.ofNat n).toNat = n :=
    UInt32.toNat_ofNat_of_lt' (hlt.trans e.nextBombId.toNat_lt)
  rw [he] at hid
  omega

theorem next_not_exploded (h : Lifecycle e) (hg : Gameplay e) :
    e.nextBombId ∉ explodedIds (allEvents e.turns) := by
  intro hx
  obtain ⟨robots, blocks, he⟩ := mem_explodedIds.mp hx
  obtain ⟨t, ht⟩ := mem_allEvents.mp he
  obtain ⟨t', -, pos, hp⟩ := h.exploded t _ robots blocks ht
  exact h.ne_next hg hp rfl

/-- How often a bomb has exploded depends on the turn in which it was placed. -/
theorem count_exploded (h : Lifecycle e) (hg : Gameplay e)
    (hp : InTurn e.turns t (.bombPlaced id pos)) :
    (explodedIds (allEvents e.turns)).count id =
      if t + e.gameParams.bombTimer.toNat ≤ e.currentTurn.toNat then 1 else 0 := by
  cases hb : e.bombs[id]? with
  | none =>
    have hn : id ∉ e.bombs := by simp [Std.ExtTreeMap.mem_iff_isSome_getElem?, hb]
    obtain ⟨hle, hcount, -⟩ := h.gone t id pos hp hn
    rw [hcount, if_pos hle]
  | some bomb =>
    obtain ⟨htimer, hx, t', hp', hsum⟩ := h.live id bomb hb
    obtain ⟨rfl, -⟩ := h.unique hg hp hp'
    rw [if_neg (by omega), List.count_eq_zero.mpr hx]

theorem logged (h : Lifecycle e) (hg : Gameplay e) (hn : Bombless events)
    (ht : e'.turns = logEvents e.turns e.currentTurn.toNat events) (hb : e'.bombs = e.bombs)
    (hk : e'.currentTurn = e.currentTurn) (hp : e'.gameParams = e.gameParams) : Lifecycle e' := by
  have hlen := hg.currentTurn_lt
  have hplaced : ∀ {t id pos}, InTurn e'.turns t (.bombPlaced id pos) ↔
      InTurn e.turns t (.bombPlaced id pos) := by
    simp [ht, inTurn_logEvents hlen, hn.not_placed]
  have hexploded : ∀ {t id robots blocks}, InTurn e'.turns t (.bombExploded id robots blocks) ↔
      InTurn e.turns t (.bombExploded id robots blocks) := by
    simp [ht, inTurn_logEvents hlen, hn.not_exploded]
  have hids : explodedIds (allEvents e'.turns) = explodedIds (allEvents e.turns) := by
    rw [ht, allEvents_logEvents hg.length.symm, explodedIds_append, hn.2, List.append_nil]
  constructor
  · have hcount : bombsPlaced e'.turns = bombsPlaced e.turns := by
      rw [ht, bombsPlaced_logEvents hg.length.symm, hn.countP, Nat.add_zero]
    rw [hcount, ht, allEvents_logEvents hg.length.symm, placedIds_append, hn.1, List.append_nil]
    exact h.placed
  · intro id bomb hbomb
    rw [hb] at hbomb
    simp only [hplaced, hids, hk, hp]
    exact h.live id bomb hbomb
  · intro t id pos hpos hid
    rw [hb] at hid
    simp only [hexploded, hids, hk, hp]
    exact h.gone t id pos (hplaced.mp hpos) hid
  · intro t id robots blocks hx
    simp only [hplaced]
    exact h.exploded t id robots blocks (hexploded.mp hx)

theorem bombPlaced (h : Lifecycle e) (hg : Gameplay e) (hT : 0 < e.gameParams.bombTimer) :
    Lifecycle (e.bombPlaced pos) := by
  have hlen := hg.currentTurn_lt
  have hplaced : ∀ {t id pos'}, InTurn (e.bombPlaced pos).turns t (.bombPlaced id pos') ↔
      InTurn e.turns t (.bombPlaced id pos') ∨
        t = e.currentTurn.toNat ∧ id = e.nextBombId ∧ pos' = pos := by
    simp [GameEngine.bombPlaced, inTurn_logEvents hlen]
  have hexploded : ∀ {t id robots blocks},
      InTurn (e.bombPlaced pos).turns t (.bombExploded id robots blocks) ↔
        InTurn e.turns t (.bombExploded id robots blocks) := by
    simp [GameEngine.bombPlaced, inTurn_logEvents hlen]
  have hids : explodedIds (allEvents (e.bombPlaced pos).turns) =
      explodedIds (allEvents e.turns) := by
    rw [GameEngine.bombPlaced, allEvents_logEvents hg.length.symm, explodedIds_append]
    simp [explodedIds, Event.explodedBomb]
  have hnext : e.nextBombId = .ofNat (bombsPlaced e.turns) := by
    rw [hg.counted, UInt32.ofNat_toNat]
  constructor
  · rw [GameEngine.bombPlaced, allEvents_logEvents hg.length.symm, placedIds_append, h.placed,
      bombsPlaced_logEvents hg.length.symm]
    simp [placedIds, Event.placedBomb, Event.isBombPlaced, List.range_succ, ← hnext]
  · intro id bomb hbomb
    simp only [GameEngine.bombPlaced, Std.ExtTreeMap.getElem?_insertIfNew,
      Std.LawfulEqCmp.compare_eq_iff_eq] at hbomb
    simp only [hplaced, hids]
    split at hbomb
    · rename_i hid
      obtain ⟨rfl, -⟩ := hid
      obtain rfl := Option.some.inj hbomb
      refine ⟨UInt16.lt_iff_toNat_lt.mp hT, h.next_not_exploded hg, _, .inr ⟨rfl, rfl, rfl⟩, ?_⟩
      exact Nat.add_comm ..
    · obtain ⟨htimer, hx, t, hp, hsum⟩ := h.live id bomb hbomb
      exact ⟨htimer, hx, t, .inl hp, hsum⟩
  · intro t id pos' hpos hid
    simp only [GameEngine.bombPlaced, Std.ExtTreeMap.mem_insertIfNew,
      Std.LawfulEqCmp.compare_eq_iff_eq, not_or] at hid
    simp only [hexploded, hids]
    rcases hplaced.mp hpos with hold | ⟨-, rfl, -⟩
    · exact h.gone t id pos' hold hid.2
    · exact absurd rfl hid.1
  · intro t id robots blocks hx
    obtain ⟨t', hlt, pos', hp⟩ := h.exploded t id robots blocks (hexploded.mp hx)
    exact ⟨t', hlt, pos', hplaced.mpr (.inl hp)⟩

variable [PositionSet β]

theorem explodedIds_map {bombs : List (BombId × Bomb)} :
    explodedIds (bombs.map e.explodedEvent) = bombs.map Prod.fst := by
  rw [explodedIds, List.filterMap_map, ← List.filterMap_eq_map]
  rfl

theorem exists_of_opened {bomb : Bomb} (hb : e.opened.bombs[id]? = some bomb) :
    ∃ old, e.bombs[id]? = some old ∧ old.timer ≠ 1 ∧ bomb = tickedBomb old := by
  rw [getElem?_bombs_opened] at hb
  obtain ⟨old, hold, rfl⟩ := Option.map_eq_some_iff.mp hb
  obtain ⟨hold, hne⟩ := Option.filter_eq_some_iff.mp hold
  exact ⟨old, hold, by simpa using hne, rfl⟩

theorem mem_bombs_opened : id ∈ e.opened.bombs ↔
    id ∈ e.bombs ∧ id ∉ (dueBombs e.bombs.toList).map Prod.fst := by
  simp only [Std.ExtTreeMap.mem_iff_isSome_getElem?, getElem?_bombs_opened, mem_map_fst_dueBombs]
  cases e.bombs[id]? with
  | none => simp
  | some bomb => simp [Option.filter]

theorem placed_opened_iff : InTurn e.opened.turns t (.bombPlaced id pos) ↔
    InTurn e.turns t (.bombPlaced id pos) := by
  simp [GameEngine.opened, inTurn_concat, explodedEvent]

theorem explodedIds_opened : explodedIds (allEvents e.opened.turns) =
    explodedIds (allEvents e.turns) ++ (dueBombs e.bombs.toList).map Prod.fst := by
  rw [allEvents_opened, explodedIds_append, explodedIds_map]

theorem live_opened {bomb : Bomb} (h : Lifecycle e)
    (hnext : e.opened.currentTurn.toNat = e.currentTurn.toNat + 1)
    (hbomb : e.opened.bombs[id]? = some bomb) : 0 < bomb.timer.toNat ∧
      id ∉ explodedIds (allEvents e.opened.turns) ∧
      ∃ t, InTurn e.opened.turns t (.bombPlaced id bomb.position) ∧
        bomb.timer.toNat + e.opened.currentTurn.toNat = t + e.gameParams.bombTimer.toNat := by
  obtain ⟨old, hold, hne, rfl⟩ := exists_of_opened hbomb
  obtain ⟨htimer, hx, t, hp, hsum⟩ := h.live id old hold
  have hone : old.timer.toNat ≠ 1 := fun he => hne (UInt16.toNat_inj.mp he)
  have hdown : (tickedBomb old).timer.toNat = old.timer.toNat - 1 :=
    UInt16.toNat_sub_of_le _ _ (UInt16.le_iff_toNat_le.mpr htimer)
  refine ⟨by omega, ?_, t, placed_opened_iff.mpr hp, ?_⟩
  · rw [explodedIds_opened, List.mem_append, not_or]
    have hmem := Std.ExtTreeMap.mem_iff_exists_getElem?.mpr ⟨_, hbomb⟩
    exact ⟨hx, (mem_bombs_opened.mp hmem).2⟩
  · rw [hnext, hdown]
    omega

theorem gone_opened (h : Lifecycle e) (hg : Gameplay e)
    (hnext : e.opened.currentTurn.toNat = e.currentTurn.toNat + 1)
    (hpos : InTurn e.turns t (.bombPlaced id pos)) (hid : id ∉ e.opened.bombs) :
    t + e.gameParams.bombTimer.toNat ≤ e.opened.currentTurn.toNat ∧
      (explodedIds (allEvents e.opened.turns)).count id = 1 ∧
      ∃ robots blocks, InTurn e.opened.turns (t + e.gameParams.bombTimer.toNat)
        (.bombExploded id robots blocks) := by
  rw [mem_bombs_opened, not_and_not_right] at hid
  rw [hnext, explodedIds_opened, List.count_append]
  by_cases hb : id ∈ e.bombs
  · -- the bomb explodes in the turn that is opened
    obtain ⟨bomb, hbomb, hone⟩ := mem_map_fst_dueBombs.mp (hid hb)
    obtain ⟨-, hx, t', hp, hsum⟩ := h.live id bomb hbomb
    obtain ⟨rfl, -⟩ := h.unique hg hpos hp
    have htime : t + e.gameParams.bombTimer.toNat = e.currentTurn.toNat + 1 := by
      rw [hone] at hsum
      rw [← hsum]
      exact Nat.add_comm ..
    rw [List.count_eq_zero.mpr hx, nodup_dueBombs.count, if_pos (hid hb), htime]
    obtain ⟨entry, hentry, rfl⟩ := List.mem_map.mp (hid hb)
    have hevent := List.mem_map_of_mem (f := e.explodedEvent) hentry
    exact ⟨le_rfl, rfl, _, _, inTurn_concat.mpr (.inr ⟨hg.length.symm, hevent⟩)⟩
  · obtain ⟨hle, hcount, robots, blocks, hx⟩ := h.gone t id pos hpos hb
    have hn : id ∉ (dueBombs e.bombs.toList).map Prod.fst := by
      intro hm
      obtain ⟨bomb, hbomb, -⟩ := mem_map_fst_dueBombs.mp hm
      exact hb (Std.ExtTreeMap.mem_iff_exists_getElem?.mpr ⟨_, hbomb⟩)
    rw [hcount, List.count_eq_zero.mpr hn]
    exact ⟨Nat.le_succ_of_le hle, rfl, robots, blocks, inTurn_concat.mpr (.inl hx)⟩

theorem opened (h : Lifecycle e) (hg : Gameplay e) (hlt : e.currentTurn < e.gameParams.gameLength) :
    Lifecycle e.opened := by
  have hnext : e.opened.currentTurn.toNat = e.currentTurn.toNat + 1 := by
    rw [← hg.length]
    exact hg.nextTurn hlt
  constructor
  · have hnone : placedIds ((dueBombs e.bombs.toList).map e.explodedEvent) = [] := by
      simp [placedIds, List.filterMap_map, explodedEvent, Event.placedBomb, Function.comp_def]
    rw [allEvents_opened, placedIds_append, hnone, List.append_nil, h.placed, bombsPlaced_opened]
  · intro id bomb hbomb
    exact h.live_opened hnext hbomb
  · intro t id pos hpos hid
    exact h.gone_opened hg hnext (placed_opened_iff.mp hpos) hid
  · intro t id robots blocks hx
    simp only [placed_opened_iff]
    rcases inTurn_concat.mp hx with hx | ⟨rfl, hevent⟩
    · exact h.exploded t id robots blocks hx
    · obtain ⟨entry, hentry, he⟩ := List.mem_map.mp hevent
      obtain ⟨rfl, -⟩ := Event.bombExploded.inj he
      obtain ⟨-, -, t', hp, -⟩ := h.live _ _ (mem_dueBombs.mp hentry).1
      exact ⟨t', hp.lt, _, hp⟩

theorem begun {robots : List (PlayerId × Position)} {blocks : List Position}
    (h : Begun e e' robots blocks) : Lifecycle e' := by
  have hn := h.bombless
  have hcount : bombsPlaced e'.turns = 0 := hn.countP
  refine ⟨by rw [hcount, hn.1]; rfl, ?_, ?_, ?_⟩
  · intro id bomb hb
    simp [h.bombs] at hb
  · intro t id pos hp
    exact absurd hp.mem hn.not_placed
  · intro t id robots blocks hx
    exact absurd hx.mem hn.not_exploded

end Lifecycle

end GameEngine

namespace Server

open GameEngine

variable {β : Type} [PositionSet β] {p : ServerParameters} {s s' : Server β} {env : Env}
  {msgs : List ServerMessage} {tr : List (Machine.Step (Server β) Env Sending)}

theorem Played.lifecycle (h : Played env s s' msgs) (hT : 0 < s.engine.gameParams.bombTimer)
    (hI : s.engine.gameplayStarted = true → Lifecycle s.engine) :
    s'.engine.gameplayStarted = true → Lifecycle s'.engine := by
  intro hs
  cases h with
  | still hp =>
    have hold := hI hs
    exact ⟨hold.placed, hold.live, hold.gone, hold.exploded⟩
  | joined hl hlt hn => exact Bool.noConfusion (hl.started.symm.trans hs)
  | started hl hn hg =>
    obtain ⟨robots, blocks, hb⟩ := hl.begun hg
    exact .begun hb
  | @acted e e' i msg hg hm hr hh =>
    have hold := hI hg.started
    obtain ⟨-, rfl | ⟨id, pos, -, -, rfl | rfl | ⟨pos', -, rfl⟩⟩⟩ := hh.gameplay hg
    · exact hold
    · exact hold.bombPlaced hg hT
    · exact hold.logged hg ⟨rfl, rfl⟩ rfl rfl rfl rfl
    · exact hold.logged hg ⟨rfl, rfl⟩ rfl rfl rfl rfl
  | @opened e handler hg hlt he hd =>
    have hold := hI hg.started
    have hold' : Lifecycle (e.withHandler handler) :=
      ⟨hold.placed, hold.live, hold.gone, hold.exploded⟩
    exact hold'.opened hg.withHandler hlt
  | sent hg hr hc ht =>
    exact (hI hg.started).logged hg bombless_movedEvent rfl rfl rfl rfl
  | closed hg hlt =>
    have hold := hI hg.started
    exact ⟨hold.placed, hold.live, hold.gone, hold.exploded⟩
  | ended hg hlast => exact Bool.noConfusion hs

theorem run_lifecycle (hT : 0 < p.bombTimer) (h : (machine β p).Run tr s)
    (hs : s.engine.gameplayStarted = true) : Lifecycle s.engine := by
  refine run_played (I := fun _ s => s.engine.gameplayStarted = true → Lifecycle s.engine)
    (playersCount_pos h hs) h (fun hs => Bool.noConfusion hs) ?_ hs
  intro env msgs s s' new hw hI hplayed
  exact hplayed.lifecycle (by rwa [hw.params]) hI

/-- What the log of a finished game says about a bomb that was placed in the turn `t`. -/
def ExplodesOnTime (p : ServerParameters) (turns : List TurnInfo) (t : ℕ) (id : BombId) : Prop :=
  if t + p.bombTimer.toNat ≤ p.gameLength.toNat then
    (explodedIds (allEvents turns)).count id = 1 ∧ ∃ robots blocks,
      InTurn turns (t + p.bombTimer.toNat) (.bombExploded id robots blocks)
  else (explodedIds (allEvents turns)).count id = 0

/--
A bomb explodes once, as many turns after it was placed as the timer says, unless the game
ends before. Only placed bombs explode, no two of them share an id, and after every turn
the timers on the board are what is left.
-/
theorem run_bombs (hT : 0 < p.bombTimer) (h : (machine β p).Run tr s)
    (hs : s.engine.gameplayStarted = true) :
    (∀ env s' out scores, step s env = .ok (s', out) → .gameEnded scores ∈ broadcasts out →
      ∀ t id pos, InTurn s.engine.turns t (.bombPlaced id pos) →
        ExplodesOnTime p s.engine.turns t id) ∧
    (∀ t id robots blocks, InTurn s.engine.turns t (.bombExploded id robots blocks) →
      ∃ t' < t, ∃ pos, InTurn s.engine.turns t' (.bombPlaced id pos)) ∧
    (placedIds (allEvents s.engine.turns)).Nodup ∧
    (s.point = .broadcast → ∀ id bomb, s.engine.bombs[id]? = some bomb →
      (∃ t, InTurn s.engine.turns t (.bombPlaced id bomb.position)) ∧
      ∀ t pos, InTurn s.engine.turns t (.bombPlaced id pos) → pos = bomb.position ∧
        bomb.timer.toNat = p.bombTimer.toNat - (s.engine.currentTurn.toNat - t) ∧
        1 ≤ bomb.timer.toNat) := by
  have hc := playersCount_pos h hs
  obtain ⟨hp, hg⟩ := run_gameplay h hs
  have hlife := run_lifecycle hT h hs
  refine ⟨?_, hlife.exploded, hlife.nodup hg, ?_⟩
  · intro env s' out scores hstep hm t id pos hpos
    obtain ⟨-, hlast, -⟩ := ended_of_gameEnded hc h hstep hm
    have hcount := hlife.count_exploded hg hpos
    rw [hlast, hp] at hcount
    unfold ExplodesOnTime
    split
    · rename_i htime
      rw [if_pos htime] at hcount
      have hdead : id ∉ s.engine.bombs := by
        intro hid
        obtain ⟨bomb, hbomb⟩ := Std.ExtTreeMap.mem_iff_exists_getElem?.mp hid
        have hzero := List.count_eq_zero.mpr (hlife.live id bomb hbomb).2.1
        omega
      obtain ⟨-, -, hx⟩ := hlife.gone t id pos hpos hdead
      rw [hp] at hx
      exact ⟨hcount, hx⟩
    · rename_i htime
      rwa [if_neg htime] at hcount
  · rintro - id bomb hbomb
    obtain ⟨htimer, -, t, hpos, hsum⟩ := hlife.live id bomb hbomb
    refine ⟨⟨t, hpos⟩, ?_⟩
    intro t' pos hpos'
    obtain ⟨rfl, rfl⟩ := hlife.unique hg hpos hpos'
    have hle := hpos.lt
    rw [hg.length] at hle
    rw [hp] at hsum
    exact ⟨rfl, by omega, htimer⟩

/-- The only player places a bomb in turn 1 and another one in turn 2, which outlives the game. -/
def fuses : List Env :=
  soloJoin ++ (List.replicate 2 (pass true (.ready [1] ⟨none, []⟩ (some [1])))).flatten ++
    (pass true (.ready [] ⟨none, []⟩ none)).dropLast

theorem run_bombs_fuses : ∃ tr s, (machine (StdSet Position) solo).Run tr s ∧
    s.point = .broadcast ∧ s.engine.currentTurn = solo.gameLength ∧
    placedIds (allEvents s.engine.turns) = [0, 1] ∧ explodedIds (allEvents s.engine.turns) = [0] ∧
    (∀ env s' out scores, step s env = .ok (s', out) → .gameEnded scores ∈ broadcasts out →
      ∀ t id pos, InTurn s.engine.turns t (.bombPlaced id pos) →
        ExplodesOnTime solo s.engine.turns t id) ∧
    ∀ id bomb, s.engine.bombs[id]? = some bomb → ∀ t pos,
      InTurn s.engine.turns t (.bombPlaced id pos) →
        bomb.timer.toNat = 2 - (s.engine.currentTurn.toNat - t) := by
  have hcheck : (machine (StdSet Position) solo).check fuses (fun _ s =>
      s.engine.gameplayStarted ∧ s.point = .broadcast ∧ s.engine.currentTurn = solo.gameLength ∧
      placedIds (allEvents s.engine.turns) = [0, 1] ∧
      explodedIds (allEvents s.engine.turns) = [0]) = true := by decide +kernel
  obtain ⟨tr, s, h, htest⟩ := Machine.run_of_check hcheck
  obtain ⟨hs, hp, hlast, hplaced, hexploded⟩ := of_decide_eq_true htest
  obtain ⟨hended, -, -, hlive⟩ := run_bombs (by decide) h hs
  exact ⟨tr, s, h, hp, hlast, hplaced, hexploded, hended,
    fun id bomb hb t pos hpos => ((hlive hp id bomb hb).2 t pos hpos).2.1⟩

end Server

end Bomberrobots
