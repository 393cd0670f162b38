import Bomberrobots.Client.Socket
import Bomberrobots.Client.Reading

/-! # What the server writes is what the client reads

Each reader of the client consumes what the encoder of the server writes, when the
bytes lie in the buffer, and does with it what the message says.
-/

namespace Bomberrobots

structure Player.Fits (player : Player) : Prop where
  name : player.name.length ≤ 255
  address : player.address.length ≤ 255

def Event.Fits : Event → Prop
  | .bombExploded _ robotsDestroyed blocksDestroyed =>
    robotsDestroyed.length < 2 ^ 32 ∧ blocksDestroyed.length < 2 ^ 32
  | _ => True

namespace ServerMessage

/-- All lengths of the message fit the bytes that carry them. -/
def Fits : ServerMessage → Prop
  | .hello serverName .. => serverName.length ≤ 255
  | .acceptedPlayer _ player => player.Fits
  | .gameStarted players => players.size < 2 ^ 32 ∧ ∀ entry ∈ players.toList, entry.2.Fits
  | .turn info => info.events.length < 2 ^ 32 ∧ ∀ event ∈ info.events, event.Fits
  | .gameEnded scores => scores.size < 2 ^ 32

end ServerMessage

namespace Socket

open Reading

variable {α κ : Type}

theorem ntoh_uint16ToBytes (u16 : UInt16) : ntoh (uint16ToBytes u16) = u16.toNat := by
  have hlt : u16.toNat < 2 ^ 16 := u16.toNat_lt
  simp only [ntoh, uint16ToBytes, List.foldl_cons, List.foldl_nil, UInt16.toNat_toUInt8,
    UInt16.toNat_shiftRight, Nat.shiftRight_eq_div_pow, UInt16.reduceToNat, Nat.reduceMod,
    Nat.reducePow]
  omega

theorem ntoh_uint32ToBytes (u32 : UInt32) : ntoh (uint32ToBytes u32) = u32.toNat := by
  have hlt : u32.toNat < 2 ^ 32 := u32.toNat_lt
  simp only [ntoh, uint32ToBytes, List.foldl_cons, List.foldl_nil, UInt32.toNat_toUInt8,
    UInt32.toNat_shiftRight, Nat.shiftRight_eq_div_pow, UInt32.reduceToNat, Nat.reduceMod,
    Nat.reducePow]
  omega

theorem consumes_readUint8 (u8 : UInt8) : Consumes readUint8 [u8] u8 := fun _ => rfl

theorem consumes_readUint16 (u16 : UInt16) : Consumes readUint16 (uint16ToBytes u16) u16 := by
  intro s
  have h : readUint16.run (Prepend.push (uint16ToBytes u16) s) =
      .ok (.ofNat (ntoh (uint16ToBytes u16)), s) := rfl
  rw [h, ntoh_uint16ToBytes, UInt16.ofNat_toNat]

theorem consumes_readUint32 (u32 : UInt32) : Consumes readUint32 (uint32ToBytes u32) u32 := by
  intro s
  have h : readUint32.run (Prepend.push (uint32ToBytes u32) s) =
      .ok (.ofNat (ntoh (uint32ToBytes u32)), s) := rfl
  rw [h, ntoh_uint32ToBytes, UInt32.ofNat_toNat]

theorem consumes_takeBytes (bytes : Bytes) : Consumes (takeBytes bytes.length) bytes bytes := by
  intro s
  have h : (takeBytes bytes.length).run (Prepend.push bytes s) =
      .ok ((bytes ++ s.buf).take bytes.length,
        { s with buf := (bytes ++ s.buf).drop bytes.length }) := rfl
  rw [h, List.take_left, List.drop_left]

theorem readStringLoop_done (str : Bytes) (fuel : ℕ) :
    readStringLoop str.length fuel str = pure str := by
  cases fuel with
  | zero => rfl
  | succ fuel => rw [readStringLoop, if_neg (lt_irrefl _)]

theorem consumes_readStringLoop (str : Bytes) :
    Consumes (readStringLoop str.length str.length []) str str := by
  cases str with
  | nil => exact .pure
  | cons byte bytes =>
    intro s
    have hlen : (byte :: bytes).length ≤ ((byte :: bytes) ++ s.buf).length := by simp
    have hpass : (readStringLoop (byte :: bytes).length (byte :: bytes).length []).run
        (Prepend.push (byte :: bytes) s) =
        (takeBytes (if (byte :: bytes).length ≤ ((byte :: bytes) ++ s.buf).length then
            (byte :: bytes).length else ((byte :: bytes) ++ s.buf).length) >>= fun read =>
          readStringLoop (byte :: bytes).length bytes.length ([] ++ read)).run
          (Prepend.push (byte :: bytes) s) := rfl
    rw [hpass, if_pos hlen, StateT.run_bind, consumes_takeBytes]
    change (readStringLoop (byte :: bytes).length bytes.length (byte :: bytes)).run s = _
    rw [readStringLoop_done]
    rfl

theorem consumes_readString {str : Bytes} (hstr : str.length ≤ 255) :
    Consumes readString (stringToBytes str) str := by
  have hlen : (UInt8.ofNat str.length).toNat = str.length :=
    UInt8.toNat_ofNat_of_lt' (Nat.lt_succ_of_le hstr)
  have hloop : Consumes (readStringLoop (UInt8.ofNat str.length).toNat
      (UInt8.ofNat str.length).toNat []) str str := by
    rw [hlen]
    exact consumes_readStringLoop str
  exact (consumes_readUint8 (UInt8.ofNat str.length)).bind hloop

theorem consumes_readPlayer {player : Player} (hfit : player.Fits) :
    Consumes readPlayer (playerToBytes player) player :=
  (consumes_readString hfit.name).bind (consumes_readString hfit.address).map

theorem consumes_readPosition (position : Position) :
    Consumes readPosition (positionToBytes position) position :=
  (consumes_readUint16 position.x).bind (consumes_readUint16 position.y).map

section Sized

variable {readEntry : α → Reader α} {entryToBytes : κ → Bytes} {entries : List κ} {a a' : α}

theorem consumes_readSized {δ : Type} {f : α → κ → Except δ α} (hlen : entries.length < 2 ^ 32)
    (h : ∀ entry ∈ entries, ∀ a a', f a entry = .ok a' →
      Consumes (readEntry a) (entryToBytes entry) a')
    (hf : entries.foldlM f a = .ok a') :
    Consumes (readSized readEntry a) (sizedToBytes entryToBytes entries) a' := by
  have hsize : (UInt32.ofNat entries.length).toNat = entries.length :=
    UInt32.toNat_ofNat_of_lt' hlen
  apply (consumes_readUint32 (.ofNat entries.length)).bind
  rw [hsize]
  exact Consumes.times h hf

theorem consumes_readSized_foldl {g : α → κ → α} (hlen : entries.length < 2 ^ 32)
    (h : ∀ entry ∈ entries, ∀ a, Consumes (readEntry a) (entryToBytes entry) (g a entry)) :
    Consumes (readSized readEntry a) (sizedToBytes entryToBytes entries) (entries.foldl g a) := by
  apply consumes_readSized (f := fun a entry => (pure (g a entry) : Except Empty α)) hlen
  · intro entry hentry a a' ha
    obtain rfl := Except.ok.inj ha
    exact h entry hentry a
  · rw [List.foldlM_pure]
    rfl

end Sized

theorem consumes_readSized_map {map : StdMap PlayerId α}
    {readEntry : StdMap PlayerId α → Reader (StdMap PlayerId α)}
    {entryToBytes : PlayerId × α → Bytes} (hsize : map.size < 2 ^ 32)
    (h : ∀ entry ∈ map.toList, ∀ m,
      Consumes (readEntry m) (entryToBytes entry) (m.insertIfNew entry.1 entry.2)) :
    Consumes (readSized readEntry ∅) (sizedToBytes entryToBytes map.toList) map := by
  have hlen : map.toList.length < 2 ^ 32 := by rwa [Std.ExtTreeMap.length_toList]
  have hread := consumes_readSized_foldl (a := ∅) hlen h
  rwa [Std.ExtTreeMap.foldl_insertIfNew_toList] at hread

theorem consumes_readPlayersMap {players : StdMap PlayerId Player}
    (hfit : (ServerMessage.gameStarted players).Fits) :
    Consumes readPlayersMap (playerMapToBytes players) players :=
  consumes_readSized_map hfit.1 fun entry hentry _ =>
    (consumes_readUint8 entry.1).bind (consumes_readPlayer (hfit.2 entry hentry)).map

theorem consumes_readScoresMap {scores : StdMap PlayerId Score}
    (hfit : (ServerMessage.gameEnded scores).Fits) :
    Consumes readScoresMap (scoreMapToBytes scores) scores :=
  consumes_readSized_map hfit fun entry _ _ =>
    (consumes_readUint8 entry.1).bind (consumes_readUint32 entry.2).map

theorem consumes_readPlayerIdList {ids : List PlayerId} (hlen : ids.length < 2 ^ 32) :
    Consumes readPlayerIdList (uint8ListToBytes ids) (Bomberrobots.readPlayerIdList ids) :=
  consumes_readSized_foldl hlen fun id _ _ => (consumes_readUint8 id).map

section Globals

variable {γ : Type} [PositionSet γ] {c : Client γ} {g : GameInfo γ}

theorem consumes_readPositionList {positions : List Position} (hlen : positions.length < 2 ^ 32) :
    Consumes readPositionList (positionListToBytes positions)
      (Bomberrobots.readPositionList positions : γ) :=
  consumes_readSized_foldl hlen fun position _ _ => (consumes_readPosition position).map

theorem consumes_liftFault {r : Except Fault α} {a : α} (h : r = .ok a) :
    Consumes (liftFault r) ([] : Bytes) a := by
  rw [h]
  exact .pure

theorem consumes_readBombExploded {id : BombId} {robotsDestroyed : List PlayerId}
    {blocksDestroyed : List Position}
    (hfit : (Event.bombExploded id robotsDestroyed blocksDestroyed).Fits) {g' : GameInfo γ}
    (h : g.readBombExploded id robotsDestroyed blocksDestroyed = .ok g') :
    Consumes (readBombExploded g) (uint32ToBytes id ++
      (uint8ListToBytes robotsDestroyed ++ positionListToBytes blocksDestroyed)) g' := by
  rw [GameInfo.readBombExploded, Except.bind_eq_ok_iff] at h
  obtain ⟨m, hm, hg'⟩ := h
  obtain rfl := Except.pure_eq_ok.mp hg'
  apply (consumes_readUint32 id).bind
  apply (consumes_readPlayerIdList hfit.1).bind
  apply (consumes_liftFault hm).bind_nil
  exact (consumes_readPositionList hfit.2).map

theorem consumes_readEvent {event : Event} (hfit : event.Fits) {g' : GameInfo γ}
    (h : g.readEvent event = .ok g') : Consumes (readEvent g) event.toBytes g' := by
  cases event with
  | bombPlaced id position =>
    obtain rfl := Except.ok.inj h
    exact (consumes_readUint8 0).bind
      ((consumes_readUint32 id).bind (consumes_readPosition position).map)
  | bombExploded id robotsDestroyed blocksDestroyed =>
    rw [Event.toBytes, List.cons_append, List.cons_append, List.append_assoc]
    exact (consumes_readUint8 1).bind (consumes_readBombExploded hfit h)
  | playerMoved id position =>
    obtain rfl := Except.ok.inj h
    exact (consumes_readUint8 2).bind
      ((consumes_readUint8 id).bind (consumes_readPosition position).map)
  | blockPlaced position =>
    obtain rfl := Except.ok.inj h
    exact (consumes_readUint8 3).bind (consumes_readPosition position).map

theorem consumes_readTurn {info : TurnInfo} (hfit : (ServerMessage.turn info).Fits)
    {g' : GameInfo γ} (h : g.readTurn info = .ok g') :
    Consumes (readTurn g) (uint16ToBytes info.turn ++ sizedToBytes Event.toBytes info.events) g' :=
  (consumes_readUint16 info.turn).bind <|
    consumes_readSized hfit.1 (fun event hevent _ _ => consumes_readEvent (hfit.2 event hevent)) h

theorem consumes_readHello {serverName : Bytes} (hname : serverName.length ≤ 255)
    (playersCount : UInt8) (sizeX sizeY gameLength explosionRadius bombTimer : UInt16) :
    Consumes readHello (stringToBytes serverName ++ ([playersCount] ++ (uint16ToBytes sizeX ++
      (uint16ToBytes sizeY ++ (uint16ToBytes gameLength ++ (uint16ToBytes explosionRadius ++
      uint16ToBytes bombTimer))))))
      (.new serverName playersCount sizeX sizeY gameLength explosionRadius bombTimer) := by
  apply (consumes_readString hname).bind
  apply (consumes_readUint8 playersCount).bind
  apply (consumes_readUint16 sizeX).bind
  apply (consumes_readUint16 sizeY).bind
  apply (consumes_readUint16 gameLength).bind
  apply (consumes_readUint16 explosionRadius).bind
  exact (consumes_readUint16 bombTimer).map

/-- Reading a message is reading its bytes. -/
theorem consumes_handleServerMessage {msg : ServerMessage} (hfit : msg.Fits) {c' : Client γ}
    (h : c.handleServerMessage msg = .ok c') :
    Consumes (handleServerMessage c) msg.toBytes c' := by
  cases msg with
  | hello serverName playersCount sizeX sizeY gameLength explosionRadius bombTimer =>
    obtain rfl := Except.ok.inj h
    simp only [ServerMessage.toBytes, List.append_assoc, List.cons_append]
    exact (consumes_readUint8 0).bind (consumes_readHello hfit playersCount sizeX sizeY
      gameLength explosionRadius bombTimer).map
  | acceptedPlayer id player =>
    obtain rfl := Except.ok.inj h
    exact (consumes_readUint8 1).bind
      ((consumes_readUint8 id).bind (consumes_readPlayer hfit).map).map
  | gameStarted players =>
    obtain rfl := Except.ok.inj h
    exact (consumes_readUint8 2).bind (consumes_readPlayersMap hfit).map.map
  | turn info =>
    obtain ⟨g', hg', hc'⟩ := Except.bind_eq_ok_iff.mp h
    obtain rfl := Except.pure_eq_ok.mp hc'
    exact (consumes_readUint8 3).bind (consumes_readTurn hfit hg').map
  | gameEnded scores =>
    obtain rfl := Except.ok.inj h
    exact (consumes_readUint8 4).bind (consumes_readScoresMap hfit).map

/--
The client reads back what the server has written: a message is handled as what it
says, and the maps in it come out as they went in.
-/
theorem consumes_toBytes {msg : ServerMessage} (hfit : msg.Fits)
    (hscores : ∀ id ∈ msg.robotsDestroyed, id ∈ c.gameInfo.scores) :
    (∃ c', c.handleServerMessage msg = .ok c' ∧
      Consumes (handleServerMessage c) msg.toBytes c') ∧
    (∀ players, msg = .gameStarted players →
      Consumes readPlayersMap (playerMapToBytes players) players) ∧
    ∀ scores, msg = .gameEnded scores →
      Consumes readScoresMap (scoreMapToBytes scores) scores := by
  refine ⟨?_, ?_, ?_⟩
  · obtain ⟨c', hc', -⟩ := Client.handleServerMessage_ok hscores
    exact ⟨c', hc', consumes_handleServerMessage hfit hc'⟩
  · rintro players rfl
    exact consumes_readPlayersMap hfit
  · rintro scores rfl
    exact consumes_readScoresMap hfit

end Globals

def sampleTurn : TurnInfo where
  turn := 258
  events := [.bombPlaced 7 ⟨1, 2⟩, .bombExploded 7 [0, 1] [⟨3, 4⟩, ⟨5, 300⟩], .playerMoved 1 ⟨2, 2⟩,
    .blockPlaced ⟨65535, 0⟩]

def sampleClient : Client (StdSet Position) where
  gameInfo := { GameInfo.default with
    scores := ((∅ : StdMap PlayerId Score).insert 0 0).insert 1 4 }
  lobbyInfo := .default
  isLobbyStatus := false

theorem consumes_toBytes_sampleTurn :
    ∃ c', sampleClient.handleServerMessage (.turn sampleTurn) = .ok c' ∧
      Consumes (handleServerMessage sampleClient) (ServerMessage.turn sampleTurn).toBytes c' := by
  have hfit : (ServerMessage.turn sampleTurn).Fits := by
    constructor
    · decide
    · simp [sampleTurn, Event.Fits]
  have hscores : ∀ id ∈ (ServerMessage.turn sampleTurn).robotsDestroyed,
      id ∈ sampleClient.gameInfo.scores := by
    simp [ServerMessage.robotsDestroyed, sampleTurn, Event.robotsDestroyed, sampleClient]
  exact (consumes_toBytes hfit hscores).1

end Socket

end Bomberrobots
