import Bomberrobots.Client.Draw
import Bomberrobots.Server.Bounds
import Bomberrobots.System.Stream

/-! # What the GUI shows

Behind almost every message the client hands its GUI a message of its own. A client that has
been informed shows the lobby of the server while there is no game and, behind the broadcast of
a turn, the board of the server.
-/

namespace Bomberrobots

section Client

variable {γ : Type} [PositionSet γ] {c c' : Client γ} {msg : ServerMessage}
  {msgs : List ServerMessage} {uninitialised : UInt16}

/--
What the client hands to its GUI behind a message. The start of a game is not shown. A turn
without a value is written as the value that it happens to have.
-/
def Client.drawn (uninitialised : UInt16) (c : Client γ) : ServerMessage → Option Bytes
  | .gameStarted _ => none
  | .turn _ => some (gameMessage uninitialised c.gameInfo)
  | _ => some (lobbyMessage c.lobbyInfo)

/-- A client with all that it has handed to its GUI. -/
structure Display (γ : Type) where
  client : Client γ
  datagrams : List Bytes

namespace Display

def init : Display γ := ⟨.init, []⟩

/--
`handle_server_message` with its calls of `send_gui_message`. That a client exits when a datagram
cannot be sent is left out.
-/
def handleServerMessage (uninitialised : UInt16) (d : Display γ) (msg : ServerMessage) :
    Except Fault (Display γ) := do
  let c ← d.client.handleServerMessage msg
  pure ⟨c, d.datagrams ++ (c.drawn uninitialised msg).toList⟩

variable {d : Display γ}

end Display

namespace Client

end Client

end Client

namespace Server

open GameEngine

variable {β : Type} {p : ServerParameters} {s s' : Server β} {env : Env}
  {new msgs : List ServerMessage}

/--
The last message tells about the lobby, or about the turn behind whose broadcast the server is.
-/
structure Heard (s : Server β) (msgs : List ServerMessage) : Prop where
  lobby : s.engine.gameplayStarted = false →
    ∃ msg ∈ msgs.getLast?, msg.shape ≠ .started ∧ ∀ k, msg.shape ≠ .turn k
  turn : s.point = .broadcast → s.engine.gameplayStarted = true →
    ∃ info, msgs.getLast? = some (.turn info) ∧ info.turn = s.engine.currentTurn

theorem heard_greeting (hs : s.engine.gameplayStarted = false) :
    Heard s (msgs ++ s.engine.greeting) where
  lobby _ := by
    have hne : s.engine.greeting ≠ [] := by simp [greeting]
    obtain ⟨msg, hmsg⟩ := Option.isSome_iff_exists.mp (List.getLast?_isSome.mpr hne)
    refine ⟨msg, ?_, ?_⟩
    · rwa [List.getLast?_append_of_ne_nil _ hne]
    · have hm := List.mem_of_getLast? hmsg
      rw [greeting, hs] at hm
      simp only [Bool.false_eq_true, if_false, List.mem_cons, List.mem_map] at hm
      rcases hm with rfl | ⟨player, -, rfl⟩ <;> simp [helloMsg, ServerMessage.shape]
  turn _ hs' := Bool.noConfusion (hs.symm.trans hs')

variable [PositionSet β]

theorem Played.heard (h : Played env s s' new) (hb : s'.point = .broadcast → s.point = .bottom)
    (hh : Heard s msgs) : Heard s' (msgs ++ new) := by
  cases h with
  | @still e point point' handler hp =>
    rw [List.append_nil]
    refine ⟨hh.lobby, fun hpoint hs => ?_⟩
    obtain rfl : point' = .broadcast := hpoint
    obtain rfl : point = .bottom := hb rfl
    exact absurd (hp hs) (by simp)
  | joined hl hlt hn =>
    refine ⟨fun _ => ⟨_, List.getLast?_concat, ?_⟩, fun hp => absurd hp nextClient_ne_broadcast⟩
    simp [ServerMessage.shape]
  | started hl hn hg =>
    have hs := (hl.startGameplay hn hg).1.started
    exact ⟨fun hs' => Bool.noConfusion (hs.symm.trans hs'),
      fun hp => absurd hp nextClient_ne_broadcast⟩
  | acted hg hm hr hact =>
    obtain ⟨events, hlog⟩ := hact.logged hg
    have hs := hlog.started.trans hg.started
    exact ⟨fun hs' => Bool.noConfusion (hs.symm.trans hs'),
      fun hp => absurd hp nextClient_ne_broadcast⟩
  | opened hg hlt he hd =>
    exact ⟨fun hs => Bool.noConfusion (hg.started.symm.trans hs), fun hp => by cases hp⟩
  | @sent e robots random turn hg hr hc ht =>
    have hnumber : turn.turn.toNat = e.currentTurn.toNat := hg.numbered.logEvents _ turn ht
    exact ⟨fun hs => Bool.noConfusion (hg.started.symm.trans hs),
      fun _ _ => ⟨turn, List.getLast?_concat, UInt16.toNat_inj.mp hnumber⟩⟩
  | closed hg hlt =>
    exact ⟨fun hs => Bool.noConfusion (hg.started.symm.trans hs), fun hp => by cases hp⟩
  | ended hg hlast =>
    refine ⟨fun _ => ⟨_, List.getLast?_concat, ?_⟩, fun hp => by cases hp⟩
    simp [ServerMessage.shape]

end Server

namespace Network

open Server

section Told

variable {β γ : Type} [PositionSet β] [PositionSet γ] {p : ServerParameters} {n : Network β γ}
  {x : Supply} {s : Server β} {out : List Sending} {msgs : List ServerMessage} {i : Slot}
  {tr : List (Machine.Step (Network β γ) Activity Sending)}

theorem InStep.heard (h : InStep n i) (hh : Heard n.server msgs) (hw : Wf p n.server)
    (hb : Below p n.server) (hs : Server.Stepped (n.env x) n.server s out)
    (hnot : disturbs i ⟨n, .serve x, out, ⟨s, n.served x out⟩⟩ = false) :
    Heard s (msgs ++ sentTo i out) := by
  cases ha : n.server.acceptedSlot with
  | some j =>
    rcases hs.sentTo_of_accepted (i := i) ha with hnil | ⟨rfl, hfd, hgreet⟩
    · rw [hnil, List.append_nil]
      obtain ⟨handler, rfl⟩ := hs.accepted ha
      exact ⟨hh.lobby, fun hp => by cases hp⟩
    · rw [hgreet]
      exact heard_greeting (lobby_of_not_disturbs hgreet hnot)
  | none =>
    rw [hs.sentTo_eq ha h.client h.opened]
    exact (hw.played hb.room hs).heard (fun hp => (hs.of_broadcast hp).1) hh

end Told

section Agreement

variable {p : ServerParameters} {n : Network (StdSet Position) (StdSet Position)} {i : Slot}
  {s : Server (StdSet Position)} {c : Client (StdSet Position)}

variable {t : Machine.Step (Network (StdSet Position) (StdSet Position)) Activity Sending}
  {tr later : List (Machine.Step (Network (StdSet Position) (StdSet Position)) Activity Sending)}

end Agreement

end Network

end Bomberrobots
