import Bomberrobots.Client.Wire
import Bomberrobots.Server.Framing
import Bomberrobots.Server.TurnShape

/-! # Messages that fit

The encoders do not check that a length fits the bytes in front of it. The lengths that a
server writes do fit, in every run: a player id has eight bits, a ray is at most as long as a
radius of 16 bits, and a turn has at most the events that the players and their bombs add.
-/

namespace Bomberrobots

def Sending.msg : Sending → ServerMessage
  | .one _ msg => msg
  | .all _ msg => msg

theorem length_le_of_nodup_ids {ids : List PlayerId} (h : ids.Nodup) : ids.length ≤ 2 ^ 8 :=
  List.length_le_of_nodup_map (f := UInt8.toNat) (h.map fun _ _ => UInt8.toNat_inj.mp)
    fun id _ => id.toNat_lt

theorem size_lt {α : Type} {m : StdMap PlayerId α} : m.size < 2 ^ 32 := by
  have hle : m.keys.length ≤ 2 ^ 8 := length_le_of_nodup_ids Std.ExtTreeMap.nodup_keys
  rw [Std.ExtTreeMap.length_keys] at hle
  omega

namespace GameEngine

variable {β : Type} {e e' : GameEngine β} {c : Position}

theorem Gameplay.length_dueBombs_le (hg : Gameplay e) :
    (dueBombs e.bombs.toList).length ≤ e.nextBombId.toNat := by
  refine List.length_le_of_nodup_map (f := fun entry => entry.1.toNat) ?_ fun entry hm => ?_
  · have hnd : ((dueBombs e.bombs.toList).map Prod.fst).Nodup := nodup_dueBombs
    have hnat := hnd.map fun _ _ => UInt32.toNat_inj.mp
    rwa [List.map_map] at hnat
  · have hbomb := Std.ExtTreeMap.mem_iff_isSome_getElem?.mpr
      (Option.isSome_of_mem (mem_dueBombs.mp hm).1)
    exact UInt32.lt_iff_toNat_lt.mp (hg.bombs _ hbomb)

theorem length_name_le {received : Option Bytes} {name : Bytes}
    (h : receivedMessage received = some (.join name)) : name.length ≤ 255 := by
  unfold receivedMessage at h
  split at h
  · rw [readMessages_eq, reads_readMessage.parseLast_eq_some_iff le_rfl] at h
    obtain ⟨msgs, msg, hfit, hmsg, -⟩ := h
    have hlast := hfit msg (by simp)
    cases msg with
    | join name' =>
      obtain rfl := ClientMessage.join.inj hmsg
      exact hlast
    | _ => cases hmsg
  · cases h

/-- The strings that the server has been told fit the bytes that carry their lengths. -/
structure Named (e : GameEngine β) : Prop where
  players : ∀ (id : PlayerId) (player : Player), e.players[id]? = some player → player.Fits
  addresses : ∀ (k : ℕ) (address : Bytes), e.tcpHandler.addresses[k]? = some address →
    address.length ≤ 255

namespace Named

variable {client : Accepted} {i : Slot} {player : Player} {name address : Bytes}

theorem of_eq (h : Named e) (hp : e'.players = e.players)
    (ha : e'.tcpHandler.addresses = e.tcpHandler.addresses) : Named e' where
  players := hp ▸ h.players
  addresses := ha ▸ h.addresses

theorem joined (h : Named e) (hfit : player.Fits) : Named (e.joined i player) where
  players id player' hp := by
    simp only [GameEngine.joined, Std.ExtTreeMap.getElem?_insertIfNew] at hp
    split at hp
    · obtain rfl := Option.some.inj hp
      exact hfit
    · exact h.players id player' hp
  addresses := h.addresses

theorem accepted (h : Named e) (haddr : client.address.length ≤ 255) :
    Named (e.withHandler (e.tcpHandler.acceptClient client).2) where
  players := h.players
  addresses k address hk := by
    have hinsert : ∃ key, (e.tcpHandler.acceptClient client).2.addresses =
        e.tcpHandler.addresses.insert key client.address := by
      unfold ServerTcpHandler.acceptClient
      split
      · exact ⟨_, rfl⟩
      · exact ⟨_, rfl⟩
    obtain ⟨key, hkey⟩ := hinsert
    simp only [withHandler, hkey, Std.ExtTreeMap.getElem?_insert] at hk
    split at hk
    · obtain rfl := Option.some.inj hk
      exact haddr
    · exact h.addresses k address hk

theorem player_fits {received : Option Bytes} (h : Named e)
    (hr : receivedMessage received = some (.join name))
    (ha : e.tcpHandler.addresses[i.val]? = some address) : Player.Fits ⟨name, address⟩ :=
  ⟨length_name_le hr, h.addresses _ _ ha⟩

theorem gameStarted_fits (h : Named e) : (ServerMessage.gameStarted e.players).Fits :=
  ⟨size_lt, fun _ hm => h.players _ _ (Std.ExtTreeMap.mem_toList_iff_getElem?_eq_some.mp hm)⟩

theorem new {p : ServerParameters} [PositionSet β] : Named (GameEngine.new p : GameEngine β) where
  players := by simp [GameEngine.new]
  addresses := by simp [GameEngine.new, ServerTcpHandler.new]

end Named

variable [PositionSet β]

theorem length_fieldsAt_le {n : ℕ} : (e.fieldsAt c n).length ≤ 4 := by
  refine (List.length_flatMap_le (n := 1) fun f _ => ?_).trans_eq rfl
  split
  · rfl
  · exact Nat.zero_le _

theorem length_blast_le : (e.blast c).length ≤ 2 ^ 18 := by
  have hlt := e.gameParams.explosionRadius.toNat_lt
  unfold blast
  split
  · simp
  · have hrays : ((List.range' 1 e.gameParams.explosionRadius.toNat).flatMap
        (e.fieldsAt c)).length ≤ _ := List.length_flatMap_le fun n _ => length_fieldsAt_le
    rw [List.length_range'] at hrays
    rw [List.length_cons]
    omega

theorem length_blastRobots_le : (e.blastRobots c).length ≤ 2 ^ 26 := by
  have hle : (e.blastRobots c).length ≤ (e.blast c).length * 2 ^ 8 :=
    List.length_flatMap_le fun pos _ => length_le_of_nodup_ids nodup_robotsAt
  have hblast := length_blast_le (e := e) (c := c)
  omega

theorem fits_explodedEvent {entry : BombId × Bomb} : (e.explodedEvent entry).Fits := by
  constructor
  · exact length_blastRobots_le.trans_lt (by decide)
  · exact ((List.length_filter_le ..).trans length_blast_le).trans_lt (by decide)

theorem fits_of_isActionOf {event : Event} {id : PlayerId} (h : event.IsActionOf id) :
    event.Fits := by
  cases event with
  | bombExploded => exact h.elim
  | _ => trivial

theorem mem_logEvents {turns : List TurnInfo} {k : ℕ} {events : List Event} {info : TurnInfo}
    (h : info ∈ logEvents turns k events) : info ∈ turns ∨ ∃ info', turns[k]? = some info' ∧
      info = { info' with events := info'.events ++ events } := by
  obtain ⟨j, hj⟩ := List.mem_iff_getElem?.mp h
  by_cases hkj : k = j
  · subst hkj
    rw [logEvents, List.getElem?_modify_eq] at hj
    obtain ⟨info', hi, rfl⟩ := Option.map_eq_some_iff.mp hj
    exact .inr ⟨info', hi, rfl⟩
  · rw [getElem?_logEvents_of_ne hkj] at hj
    exact .inl (List.mem_of_getElem? hj)

def TurnsFit (turns : List TurnInfo) : Prop := ∀ info ∈ turns, (ServerMessage.turn info).Fits

theorem TurnsFit.logEvents {turns : List TurnInfo} {k n : ℕ} {events : List Event}
    (h : TurnsFit turns) (hk : ∀ info, turns[k]? = some info → info.events.length ≤ n)
    (hn : n + events.length < 2 ^ 32) (hev : ∀ event ∈ events, event.Fits) :
    TurnsFit (logEvents turns k events) := by
  intro info hm
  rcases mem_logEvents hm with hm | ⟨info', hi, rfl⟩
  · exact h info hm
  · have hle := hk info' hi
    constructor
    · rw [List.length_append]
      omega
    · intro event he
      rcases List.mem_append.mp he with he | he
      · exact (h info' (List.mem_of_getElem? hi)).2 event he
      · exact hev event he

theorem fits_of_mem_movedEvents {robots : List (PlayerId × Position)} :
    ∀ event ∈ robots.map movedEvent, event.Fits := by
  intro event he
  obtain ⟨robot, -, rfl⟩ := List.mem_map.mp he
  trivial

theorem Lobby.turns_startGameplay {i : Slot} {player : Player} {sent : List Sending} (h : Lobby e)
    (hg : (e.joined i player).startGameplay = .ok (e', sent)) :
    ∃ (robots : List (PlayerId × Position)) (blocks : List Position),
      robots.map Prod.fst = (e.joined i player).players.keys ∧
      blocks.length = e.gameParams.initialBlocks.toNat ∧
      e'.turns = [⟨0, robots.map movedEvent ++ blocks.map .blockPlaced⟩] := by
  obtain ⟨robots, blocks, random, hk, hlen, -, -, -, rfl⟩ := startGameplay_ok hg
  refine ⟨robots, blocks, hk, hlen, ?_⟩
  have hturn : (e.joined i player).currentTurn.toNat = 0 := by simp [GameEngine.joined, h.turn]
  have hturns : (e.joined i player).turns = [] := h.turns
  simp only [hturn, hturns]
  rw [← logEvents_append]
  rfl

end GameEngine

namespace Server

open GameEngine

variable {β : Type}

/--
The turns fit into their messages, and in the current one there is room for the actions and
the robots that are still to come.
-/
structure Roomy (s : Server β) : Prop where
  turns : TurnsFit s.engine.turns
  current : s.point.sent = 0 → ∀ info, s.engine.turns[s.engine.currentTurn.toNat]? = some info →
    info.events.length ≤ 2 ^ 21 + s.point.served

theorem Roomy.of_nil {s : Server β} (h : s.engine.turns = []) : Roomy s where
  turns := by simp [h, TurnsFit]
  current := by simp [h]

theorem fits_greeting {s : Server β} (hname : s.engine.gameParams.serverName.length ≤ 255)
    (h : Named s.engine) (hr : Roomy s) : ∀ msg ∈ s.engine.greeting, msg.Fits := by
  intro msg hm
  rcases List.mem_cons.mp hm with rfl | hm
  · exact hname
  · split at hm
    · rcases List.mem_cons.mp hm with rfl | hm
      · exact h.gameStarted_fits
      · obtain ⟨info, hi, rfl⟩ := List.mem_map.mp hm
        exact hr.turns info hi
    · obtain ⟨entry, he, rfl⟩ := List.mem_map.mp hm
      exact h.players _ _ (Std.ExtTreeMap.mem_toList_iff_getElem?_eq_some.mp he)

variable [PositionSet β] {p : ServerParameters} {s s' : Server β} {env : Env}
  {new : List ServerMessage} {out : List Sending} {i : Slot}

theorem Wf.nextBombId_le (hw : Wf p s) (hp : s.point = .top) :
    s.engine.nextBombId.toNat ≤ 2 ^ 21 := by
  have hbudget := hw.budget
  have hlt := s.engine.currentTurn.toNat_lt
  rw [hp, Point.served] at hbudget
  omega

theorem length_robots_le {robots : List (PlayerId × Position)} (h : (robots.map Prod.fst).Nodup) :
    robots.length ≤ 2 ^ 8 := by
  have hle := length_le_of_nodup_ids h
  rwa [List.length_map] at hle

theorem roomy_startGameplay {e e' : GameEngine β} {player : Player} {sent : List Sending}
    {point : Point} (hl : Lobby e) (hg : (e.joined i player).startGameplay = .ok (e', sent)) :
    Roomy ⟨e', point⟩ := by
  obtain ⟨robots, blocks, hk, hlen, hturns⟩ := hl.turns_startGameplay hg
  have hrobots : robots.length ≤ 2 ^ 8 := length_robots_le (hk ▸ Std.ExtTreeMap.nodup_keys)
  have hblocks := e.gameParams.initialBlocks.toNat_lt
  have hfirst : (robots.map movedEvent ++ blocks.map Event.blockPlaced).length ≤ 2 ^ 21 := by
    rw [List.length_append, List.length_map, List.length_map]
    omega
  constructor
  · intro info hm
    simp only [hturns, List.mem_singleton] at hm
    subst hm
    refine ⟨hfirst.trans_lt (by decide), fun event he => ?_⟩
    rcases List.mem_append.mp he with he | he
    · exact fits_of_mem_movedEvents event he
    · obtain ⟨pos, -, rfl⟩ := List.mem_map.mp he
      trivial
  · intro _ info hi
    have hm := List.mem_of_getElem? hi
    simp only [hturns, List.mem_singleton] at hm
    subst hm
    exact hfirst.trans (Nat.le_add_right _ _)

theorem Roomy.acted {e e' : GameEngine β} {msg : ClientMessage} (h : Roomy ⟨e, .client i⟩)
    (hw : Wf p ⟨e, .client i⟩) (hg : Gameplay e) (hh : Handled e i env.uninitialised msg e' []) :
    Roomy ⟨e', nextClient i⟩ := by
  have hserved : (Point.client i).served + 1 = (nextClient i).served := by
    have hpos := Nat.pos_of_ne_zero fun h0 => hw.client (congrArg Point.client (Fin.ext h0))
    rw [served_nextClient, Point.served]
    omega
  have hbound : (nextClient i).served ≤ 25 := by
    rw [served_nextClient]
    omega
  rcases hh.action hg with rfl | ⟨id, event, -, hact, hl⟩
  · refine ⟨h.turns, fun _ info hi => (h.current rfl info hi).trans ?_⟩
    simp only
    omega
  · have hcurrent := h.current rfl
    simp only at hcurrent
    constructor
    · simp only [hl.turns]
      refine h.turns.logEvents hcurrent (by simp; omega) fun event' he => ?_
      rw [List.mem_singleton.mp he]
      exact fits_of_isActionOf hact
    · intro _ info hi
      simp only [hl.turns, hl.turn, logEvents, List.getElem?_modify_eq] at hi
      obtain ⟨info', hi', rfl⟩ := Option.map_eq_some_iff.mp hi
      have hle' := hcurrent info' hi'
      simp only [List.length_append, List.length_singleton]
      omega

theorem Roomy.opened {e : GameEngine β} {handler : ServerTcpHandler} (h : Roomy ⟨e, .top⟩)
    (hw : Wf p ⟨e, .top⟩) (hg : Gameplay e) (hlt : e.currentTurn < e.gameParams.gameLength) :
    Roomy ⟨(e.withHandler handler).opened, .poll⟩ := by
  have hdue : (dueBombs e.bombs.toList).length ≤ 2 ^ 21 :=
    hg.length_dueBombs_le.trans (hw.nextBombId_le rfl)
  have hn : (e.currentTurn + 1).toNat = e.turns.length := hg.nextTurn hlt
  constructor
  · intro info hm
    rcases List.mem_append.mp hm with hm | hm
    · exact h.turns info hm
    · obtain rfl := List.mem_singleton.mp hm
      refine ⟨?_, fun event he => ?_⟩
      · rw [List.length_map]
        exact hdue.trans_lt (by decide)
      · obtain ⟨entry, -, rfl⟩ := List.mem_map.mp he
        exact fits_explodedEvent
  · intro _ info hi
    simp only [GameEngine.opened, withHandler, hn, List.getElem?_concat_length,
      Option.some.injEq] at hi
    subst hi
    rw [List.length_map]
    exact hdue.trans (Nat.le_add_right _ _)

theorem Roomy.played (h : Roomy s) (hw : Wf p s) (hs : Stepped env s s' out)
    (hplayed : Played env s s' new) : Roomy s' := by
  have hle := hs.served_le
  cases hplayed with
  | @still e point point' handler hp =>
    cases hstart : e.gameplayStarted with
    | false => exact .of_nil (hw.lobby hstart).turns
    | true =>
      refine ⟨h.turns, fun hsent info hi => ?_⟩
      have hunsent : point.sent = 0 := (hp hstart).symm.trans hsent
      have hne : point ≠ .top := by
        rintro rfl
        cases hunsent
      exact (h.current hunsent info hi).trans (Nat.add_le_add_left (hle hne) _)
  | joined hl hlt hn => exact .of_nil hl.turns
  | started hl hn hg => exact roomy_startGameplay hl hg
  | acted hg hm hr hh => exact h.acted hw hg hh
  | opened hg hlt he hd => exact h.opened hw hg hlt
  | @sent e robots random turn hg hr hc ht =>
    have hrobots : robots.length ≤ 2 ^ 8 := length_robots_le (hr ▸ Std.ExtTreeSet.nodup_toList)
    refine ⟨?_, fun hsent => absurd hsent Nat.one_ne_zero⟩
    refine h.turns.logEvents (h.current rfl) ?_ fits_of_mem_movedEvents
    rw [List.length_map, Point.served]
    omega
  | closed hg hlt => exact ⟨h.turns, fun hsent => absurd hsent Nat.one_ne_zero⟩
  | ended hg hlast => exact .of_nil rfl

theorem Stepped.named (hs : Stepped env s s' out) (h : Named s.engine)
    (haddr : env.accepted.address.length ≤ 255) : Named s'.engine := by
  cases hs with
  | openTurn hstart hb =>
    obtain ⟨-, t, rfl, rfl⟩ := beginTurn_ticked hb
    exact h.of_eq rfl rfl
  | full hn hf => exact h.accepted haddr
  | greet hn hf he => exact he ▸ h.accepted haddr
  | refused hm hr => exact h.of_eq rfl (by simp [withHandler, ServerTcpHandler.reportMsgStatus])
  | @handled e e' i msg sent hm hr hh =>
    cases hh with
    | join hstart ha hn => exact h.joined (h.player_fits hr ha)
    | start hstart ha hn hg =>
      obtain ⟨robots, blocks, random, -, -, -, -, -, rfl⟩ := startGameplay_ok hg
      exact (h.joined (i := i) (h.player_fits hr ha)).of_eq rfl rfl
    | _ => exact h.of_eq rfl rfl
  | send hstart ht =>
    obtain ⟨robots, random, turn, -, -, -, rfl, -, -⟩ := sendTurn_ok ht
    exact h.of_eq rfl rfl
  | finish =>
    unfold finishTurn
    dsimp only
    split
    · exact ⟨by simp [endGameplay], h.addresses⟩
    · exact h.of_eq rfl rfl
  | _ => exact h.of_eq rfl rfl

/-- What a step sends fits, if the step leads to a state in which everything fits. -/
theorem Stepped.fits (h : Stepped env s s' out)
    (hname : s'.engine.gameParams.serverName.length ≤ 255) (hI : Named s.engine)
    (hI' : Named s'.engine) (hr : Roomy s') : ∀ x ∈ out, x.msg.Fits := by
  intro x hx
  cases h with
  | greet hn hf he =>
    subst he
    rw [sendHello_append_sendHelloState] at hx
    split at hx
    · obtain ⟨msg, hm, rfl⟩ := List.mem_map.mp hx
      exact fits_greeting hname hI' hr msg hm
    · cases hx
  | handled hm hrec hh =>
    cases hh with
    | join hstart ha hn =>
      obtain rfl := List.mem_singleton.mp hx
      exact hI.player_fits hrec ha
    | start hstart ha hn hg =>
      obtain ⟨robots, blocks, random, -, -, -, -, rfl, rfl⟩ := startGameplay_ok hg
      rcases List.mem_append.mp hx with hx | hx
      · obtain rfl := List.mem_singleton.mp hx
        exact hI.player_fits hrec ha
      · obtain rfl := List.mem_singleton.mp hx
        exact hI'.gameStarted_fits
    | _ => cases hx
  | send hstart ht =>
    obtain ⟨robots, random, turn, -, -, -, rfl, hturn, rfl⟩ := sendTurn_ok ht
    obtain rfl := List.mem_singleton.mp hx
    exact hr.turns turn (List.mem_of_getElem? hturn)
  | finish =>
    unfold finishTurn at hx
    dsimp only at hx
    split at hx
    · obtain rfl := List.mem_singleton.mp hx
      exact size_lt
    · cases hx
  | _ => cases hx

theorem log_fits {tr : List (Machine.Step (Server β) Env Sending)} (hc : 0 < p.playersCount)
    (hname : p.serverName.length ≤ 255) (h : (machine β p).Run tr s)
    (haddr : ∀ t ∈ tr, t.input.accepted.address.length ≤ 255) :
    ∀ x ∈ Machine.log tr, x.msg.Fits := by
  have hall : Named s.engine ∧ Roomy s ∧ ∀ x ∈ Machine.log tr, x.msg.Fits := by
    refine h.invariant_of
      (I := fun tr s => Named s.engine ∧ Roomy s ∧ ∀ x ∈ Machine.log tr, x.msg.Fits)
      (C := fun _ env => env.accepted.address.length ≤ 255) haddr
      ⟨.new, .of_nil rfl, by simp⟩ ?_
    rintro tr s env s' out hrun ⟨hI, hr, hlog⟩ hC hs
    have hs' := step_stepped hs
    obtain ⟨hw, hb⟩ := run_wf_below hc hrun
    have hI' := hs'.named hI hC
    have hr' := hr.played hw hs' (hw.played hb.room hs')
    have hname' : s'.engine.gameParams.serverName.length ≤ 255 := by
      rwa [(hw.stepped hb.room hs').params]
    refine ⟨hI', hr', fun x hx => ?_⟩
    rw [Machine.log_append, List.mem_append] at hx
    rcases hx with hx | hx
    · exact hlog x hx
    · exact hs'.fits hname' hI hI' hr' x (by simpa using hx)
  exact hall.2.2

end Server

end Bomberrobots
