import Bomberrobots.Client.Segments
import Bomberrobots.Library.Pieces

/-! # Messages across the ends of reads

A message is laid out in bytes, numbers and strings. The client reads every message whose
numbers of two bytes and whose strings survive the places where its reads end, and it is then
where the next message starts, so it reads a whole stream of them.
-/

namespace Bomberrobots

/-- What the readers of the client read at a time. -/
inductive Piece
  | byte (u8 : UInt8)
  | short (u16 : UInt16)
  | long (u32 : UInt32)
  | string (str : Bytes)

namespace Piece

def toBytes : Piece → Bytes
  | byte u8 => [u8]
  | short u16 => uint16ToBytes u16
  | long u32 => uint32ToBytes u32
  | string str => stringToBytes str

/--
The bytes behind which a read may end: not the first one of a short number, and inside a string
only its length, or if a read ends with the string.
-/
def survives : Piece → Set ℕ → Prop
  | short _, lasts => 0 ∉ lasts
  | string str, lasts => (∀ n, 0 < n → n < str.length → n ∉ lasts) ∨ str.length ∈ lasts
  | _, _ => True

end Piece

def layout : Pieces Piece UInt8 := ⟨Piece.toBytes, Piece.survives⟩

def sizedPieces {α : Type} (entryPieces : α → List Piece) (entries : List α) : List Piece :=
  .long (.ofNat entries.length) :: entries.flatMap entryPieces

def Player.pieces (player : Player) : List Piece := [.string player.name, .string player.address]

def Position.pieces (position : Position) : List Piece := [.short position.x, .short position.y]

def Event.pieces : Event → List Piece
  | .bombPlaced id position => .byte 0 :: .long id :: position.pieces
  | .bombExploded id robotsDestroyed blocksDestroyed =>
    .byte 1 :: .long id :: (sizedPieces (fun id => [.byte id]) robotsDestroyed ++
      sizedPieces Position.pieces blocksDestroyed)
  | .playerMoved id position => .byte 2 :: .byte id :: position.pieces
  | .blockPlaced position => .byte 3 :: position.pieces

def ServerMessage.pieces : ServerMessage → List Piece
  | .hello serverName playersCount sizeX sizeY gameLength explosionRadius bombTimer =>
    [.byte 0, .string serverName, .byte playersCount, .short sizeX, .short sizeY,
      .short gameLength, .short explosionRadius, .short bombTimer]
  | .acceptedPlayer id player => .byte 1 :: .byte id :: player.pieces
  | .gameStarted players =>
    .byte 2 :: sizedPieces (fun entry => .byte entry.1 :: entry.2.pieces) players.toList
  | .turn info => .byte 3 :: .short info.turn :: sizedPieces Event.pieces info.events
  | .gameEnded scores =>
    .byte 4 :: sizedPieces (fun entry => [.byte entry.1, .long entry.2]) scores.toList

section Words

open Pieces

@[simp] theorem encode_layout {piece : Piece} : layout.encode piece = piece.toBytes := rfl

theorem word_sizedPieces {α : Type} {f : α → List Piece} {g : α → Bytes}
    (h : ∀ entry, layout.word (f entry) = g entry) (entries : List α) :
    layout.word (sizedPieces f entries) = sizedToBytes g entries := by
  rw [sizedPieces, word_cons, sizedToBytes]
  congr 1
  induction entries with
  | nil => rfl
  | cons entry entries ih => rw [List.flatMap_cons, word_append, h, ih, List.flatMap_cons]

@[simp] theorem word_player (player : Player) :
    layout.word player.pieces = playerToBytes player := by
  simp [Player.pieces, Piece.toBytes, playerToBytes]

@[simp] theorem word_position (position : Position) :
    layout.word position.pieces = positionToBytes position := by
  simp [Position.pieces, Piece.toBytes, positionToBytes]

theorem word_event (event : Event) : layout.word event.pieces = event.toBytes := by
  cases event with
  | bombExploded id robotsDestroyed blocksDestroyed =>
    have hids := word_sizedPieces (f := fun id => [.byte id]) (g := fun id => [id])
      (fun id => rfl) robotsDestroyed
    have hblocks := word_sizedPieces word_position blocksDestroyed
    simp [Event.pieces, Event.toBytes, Piece.toBytes, hids, hblocks, uint8ListToBytes,
      positionListToBytes]
  | _ => simp [Event.pieces, Event.toBytes, Piece.toBytes]

theorem word_pieces (msg : ServerMessage) : layout.word msg.pieces = msg.toBytes := by
  cases msg with
  | gameStarted players =>
    have hplayers := word_sizedPieces
      (f := fun entry : PlayerId × Player => .byte entry.1 :: entry.2.pieces)
      (g := fun entry => entry.1 :: playerToBytes entry.2)
      (fun entry => by simp [Piece.toBytes]) players.toList
    simp [ServerMessage.pieces, ServerMessage.toBytes, Piece.toBytes, hplayers, playerMapToBytes]
  | turn info =>
    have hevents := word_sizedPieces word_event info.events
    simp [ServerMessage.pieces, ServerMessage.toBytes, Piece.toBytes, hevents, TurnInfo.toBytes]
  | gameEnded scores =>
    have hscores := word_sizedPieces
      (f := fun entry : PlayerId × Score => [.byte entry.1, .long entry.2])
      (g := fun entry => entry.1 :: uint32ToBytes entry.2)
      (fun entry => by simp [Piece.toBytes]) scores.toList
    simp [ServerMessage.pieces, ServerMessage.toBytes, Piece.toBytes, hscores, scoreMapToBytes]
  | _ => simp [ServerMessage.pieces, ServerMessage.toBytes, Piece.toBytes]

end Words

namespace Socket

open Reading Pieces

variable {α κ : Type} {s s' : Socket} {n : ℕ}

/-- The stream of a socket, with the bytes that are the last ones of a read. -/
def marked : Marked Socket UInt8 := ⟨source, fun s => {n | s.Ends (n + 1)}⟩

theorem advances_drop (hs : s.Segmented) (hn : n ≤ s.buf.length) :
    Advances marked n s { s with buf := s.buf.drop n } :=
  ⟨hs, stream_drop hn, Set.ext fun _ => ends_drop hn⟩

theorem advances_refilled (hs : s.Segmented) : Advances marked 0 s s.refilled := by
  refine ⟨hs.refilled, stream_refilled, ?_⟩
  rw [beyond_zero]
  exact Set.ext fun m => ends_refilled m.succ_pos

theorem moves_takeBytes : Moves marked (takeBytes n) := by
  intro s bytes s' hs hrun
  obtain ⟨rfl, rfl⟩ := Prod.mk.inj (Except.ok.inj hrun)
  refine ⟨min n s.buf.length, ?_, ?_⟩
  · change _ ≤ s.stream.length
    rw [stream, List.length_append]
    omega
  · have hdrop : s.buf.drop n = s.buf.drop (min n s.buf.length) := by
      rcases Nat.le_total n s.buf.length with hle | hle
      · rw [Nat.min_eq_left hle]
      · rw [Nat.min_eq_right hle, List.drop_length, List.drop_of_length_le hle]
    rw [hdrop]
    exact advances_drop hs (Nat.min_le_right _ _)

theorem moves_readIfBufEmpty : Moves marked readIfBufEmpty := by
  intro s u s' hs hrun
  by_cases h : s.stream = []
  · -- nothing is delivered
    obtain ⟨buf, incoming, uninitialised⟩ := s
    obtain ⟨rfl, hincoming⟩ := List.append_eq_nil_iff.mp h
    cases incoming with
    | nil => cases hrun
    | cons bytes incoming =>
      have hbytes := List.flatten_eq_nil_iff.mp hincoming bytes List.mem_cons_self
      exact absurd hbytes (hs bytes List.mem_cons_self)
  · rw [readIfBufEmpty_run hs h] at hrun
    obtain ⟨-, rfl⟩ := Prod.mk.inj (Except.ok.inj hrun)
    exact ⟨0, Nat.zero_le _, advances_refilled hs⟩

theorem moves_readUninitialised : Moves marked readUninitialised := by
  intro s byte s' hs hrun
  obtain ⟨-, rfl⟩ := Prod.mk.inj (Except.ok.inj hrun)
  exact ⟨0, Nat.zero_le _, hs, rfl, beyond_zero.symm⟩

theorem moves_get : Moves marked (get : Reader Socket) := by
  intro s t s' hs hrun
  obtain ⟨-, rfl⟩ := Prod.mk.inj (Except.ok.inj hrun)
  exact ⟨0, Nat.zero_le _, hs, rfl, beyond_zero.symm⟩

theorem moves_readUint8 : Moves marked readUint8 :=
  moves_readIfBufEmpty.bind fun _ => moves_takeBytes.bind fun _ => .pure

theorem moves_readUint16 : Moves marked readUint16 := by
  refine moves_readIfBufEmpty.bind fun _ => moves_get.bind fun t => ?_
  split
  · exact moves_takeBytes.bind fun _ => .pure
  · exact moves_readUint8.bind fun _ => moves_readUninitialised.bind fun _ => .pure

theorem moves_readUint32 : Moves marked readUint32 := by
  refine moves_readIfBufEmpty.bind fun _ => moves_get.bind fun t => ?_
  split
  · exact moves_takeBytes.bind fun _ => .pure
  · exact moves_readUint8.bind fun _ => moves_readUint8.bind fun _ => moves_readUint8.bind fun _ =>
      moves_readUint8.bind fun _ => .pure

theorem moves_readStringLoop {strLength fuel : ℕ} {str : Bytes} :
    Moves marked (readStringLoop strLength fuel str) := by
  induction fuel generalizing str with
  | zero => exact .pure
  | succ fuel ih =>
    rw [readStringLoop]
    split
    · exact moves_readIfBufEmpty.bind fun _ => moves_get.bind fun t => moves_takeBytes.bind
        fun _ => ih
    · exact .pure

theorem moves_readString : Moves marked readString :=
  moves_readUint8.bind fun _ => moves_readStringLoop

theorem assembles_readUint8 (u8 : UInt8) : Assembles marked layout readUint8 [.byte u8] u8 :=
  .of_yields moves_readUint8 fun s rest hs hw _ => draws_readUint8 u8 s rest hs hw

theorem assembles_readUint16 (u16 : UInt16) :
    Assembles marked layout readUint16 [.short u16] u16 :=
  .of_yields moves_readUint16 fun _ _ hs hw hp => (yields_readUint16_iff hs hw).mpr hp.1

theorem assembles_readUint32 (u32 : UInt32) : Assembles marked layout readUint32 [.long u32] u32 :=
  .of_yields moves_readUint32 fun s rest hs hw _ => draws_readUint32 s rest hs hw

theorem assembles_readString {str : Bytes} (hstr : str.length ≤ 255) :
    Assembles marked layout readString [.string str] str := by
  refine .of_yields moves_readString fun s rest hs hw hp => ?_
  rw [word_cons, word_nil, List.append_nil] at hw
  refine (yields_readString_iff hs hw).mpr ⟨hstr, hp.1.imp_left fun hnone n hn hle hends => ?_⟩
  obtain ⟨m, rfl⟩ := Nat.exists_eq_add_of_lt hn
  exact hnone (1 + m) (by omega) (by omega) hends

theorem assembles_readPlayer {player : Player} (hfit : player.Fits) :
    Assembles marked layout readPlayer player.pieces player :=
  (assembles_readString hfit.name).bind (assembles_readString hfit.address).map

theorem assembles_readPosition (position : Position) :
    Assembles marked layout readPosition position.pieces position :=
  (assembles_readUint16 position.x).bind (assembles_readUint16 position.y).map

section Sized

variable {readEntry : α → Reader α} {entryPieces : κ → List Piece} {entries : List κ} {a a' : α}

theorem assembles_readSized {δ : Type} {f : α → κ → Except δ α} (hlen : entries.length < 2 ^ 32)
    (h : ∀ entry ∈ entries, ∀ a a', f a entry = .ok a' →
      Assembles marked layout (readEntry a) (entryPieces entry) a')
    (hf : entries.foldlM f a = .ok a') :
    Assembles marked layout (readSized readEntry a) (sizedPieces entryPieces entries) a' := by
  have hsize : (UInt32.ofNat entries.length).toNat = entries.length :=
    UInt32.toNat_ofNat_of_lt' hlen
  apply (assembles_readUint32 (.ofNat entries.length)).bind
  rw [hsize]
  exact Assembles.times h hf

theorem assembles_readSized_foldl {f : α → κ → α} (hlen : entries.length < 2 ^ 32)
    (h : ∀ entry ∈ entries, ∀ a,
      Assembles marked layout (readEntry a) (entryPieces entry) (f a entry)) :
    Assembles marked layout (readSized readEntry a) (sizedPieces entryPieces entries)
      (entries.foldl f a) := by
  apply assembles_readSized (f := fun a entry => (pure (f a entry) : Except Empty α)) hlen
  · intro entry hentry a a' ha
    obtain rfl := Except.ok.inj ha
    exact h entry hentry a
  · rw [List.foldlM_pure]
    rfl

end Sized

theorem assembles_readSized_map {map : StdMap PlayerId α}
    {readEntry : StdMap PlayerId α → Reader (StdMap PlayerId α)}
    {entryPieces : PlayerId × α → List Piece} (hsize : map.size < 2 ^ 32)
    (h : ∀ entry ∈ map.toList, ∀ m, Assembles marked layout (readEntry m) (entryPieces entry)
      (m.insertIfNew entry.1 entry.2)) :
    Assembles marked layout (readSized readEntry ∅) (sizedPieces entryPieces map.toList) map := by
  have hlen : map.toList.length < 2 ^ 32 := by rwa [Std.ExtTreeMap.length_toList]
  have hread := assembles_readSized_foldl (a := ∅) hlen h
  rwa [Std.ExtTreeMap.foldl_insertIfNew_toList] at hread

theorem assembles_readPlayersMap {players : StdMap PlayerId Player}
    (hfit : (ServerMessage.gameStarted players).Fits) :
    Assembles marked layout readPlayersMap
      (sizedPieces (fun entry => .byte entry.1 :: entry.2.pieces) players.toList) players :=
  assembles_readSized_map hfit.1 fun entry hentry _ =>
    (assembles_readUint8 entry.1).bind (assembles_readPlayer (hfit.2 entry hentry)).map

theorem assembles_readScoresMap {scores : StdMap PlayerId Score}
    (hfit : (ServerMessage.gameEnded scores).Fits) :
    Assembles marked layout readScoresMap
      (sizedPieces (fun entry => [.byte entry.1, .long entry.2]) scores.toList) scores :=
  assembles_readSized_map hfit fun entry _ _ =>
    (assembles_readUint8 entry.1).bind (assembles_readUint32 entry.2).map

theorem assembles_readPlayerIdList {ids : List PlayerId} (hlen : ids.length < 2 ^ 32) :
    Assembles marked layout readPlayerIdList (sizedPieces (fun id => [.byte id]) ids)
      (Bomberrobots.readPlayerIdList ids) :=
  assembles_readSized_foldl hlen fun id _ _ => (assembles_readUint8 id).map

section Globals

variable {γ : Type} [PositionSet γ] {c c' : Client γ} {g g' : GameInfo γ}

theorem assembles_readPositionList {positions : List Position}
    (hlen : positions.length < 2 ^ 32) :
    Assembles marked layout readPositionList (sizedPieces Position.pieces positions)
      (Bomberrobots.readPositionList positions : γ) :=
  assembles_readSized_foldl hlen fun position _ _ => (assembles_readPosition position).map

theorem assembles_liftFault {r : Except Fault α} {a : α} (h : r = .ok a) :
    Assembles marked layout (liftFault r) [] a := by
  rw [h]
  exact .pure

theorem assembles_readBombExploded {id : BombId} {robotsDestroyed : List PlayerId}
    {blocksDestroyed : List Position}
    (hfit : (Event.bombExploded id robotsDestroyed blocksDestroyed).Fits)
    (h : g.readBombExploded id robotsDestroyed blocksDestroyed = .ok g') :
    Assembles marked layout (readBombExploded g)
      (.long id :: (sizedPieces (fun id => [.byte id]) robotsDestroyed ++
        sizedPieces Position.pieces blocksDestroyed)) g' := by
  rw [GameInfo.readBombExploded, Except.bind_eq_ok_iff] at h
  obtain ⟨m, hm, hg'⟩ := h
  obtain rfl := Except.pure_eq_ok.mp hg'
  apply (assembles_readUint32 id).bind
  apply (assembles_readPlayerIdList hfit.1).bind
  apply (assembles_liftFault hm).bind_nil
  exact (assembles_readPositionList hfit.2).map

theorem assembles_readEvent {event : Event} (hfit : event.Fits) (h : g.readEvent event = .ok g') :
    Assembles marked layout (readEvent g) event.pieces g' := by
  cases event with
  | bombPlaced id position =>
    obtain rfl := Except.ok.inj h
    exact (assembles_readUint8 0).bind
      ((assembles_readUint32 id).bind (assembles_readPosition position).map)
  | bombExploded id robotsDestroyed blocksDestroyed =>
    exact (assembles_readUint8 1).bind (assembles_readBombExploded hfit h)
  | playerMoved id position =>
    obtain rfl := Except.ok.inj h
    exact (assembles_readUint8 2).bind
      ((assembles_readUint8 id).bind (assembles_readPosition position).map)
  | blockPlaced position =>
    obtain rfl := Except.ok.inj h
    exact (assembles_readUint8 3).bind (assembles_readPosition position).map

theorem assembles_readTurn {info : TurnInfo} (hfit : (ServerMessage.turn info).Fits)
    (h : g.readTurn info = .ok g') : Assembles marked layout (readTurn g)
      (.short info.turn :: sizedPieces Event.pieces info.events) g' :=
  (assembles_readUint16 info.turn).bind <|
    assembles_readSized hfit.1 (fun event hevent _ _ => assembles_readEvent (hfit.2 event hevent)) h

theorem assembles_readHello {serverName : Bytes} (hname : serverName.length ≤ 255)
    (playersCount : UInt8) (sizeX sizeY gameLength explosionRadius bombTimer : UInt16) :
    Assembles marked layout readHello [.string serverName, .byte playersCount, .short sizeX,
        .short sizeY, .short gameLength, .short explosionRadius, .short bombTimer]
      (.new serverName playersCount sizeX sizeY gameLength explosionRadius bombTimer) := by
  apply (assembles_readString hname).bind
  apply (assembles_readUint8 playersCount).bind
  apply (assembles_readUint16 sizeX).bind
  apply (assembles_readUint16 sizeY).bind
  apply (assembles_readUint16 gameLength).bind
  apply (assembles_readUint16 explosionRadius).bind
  exact (assembles_readUint16 bombTimer).map

/-- Reading a message is reading its pieces. -/
theorem assembles_handleServerMessage {msg : ServerMessage} (hfit : msg.Fits)
    (h : c.handleServerMessage msg = .ok c') :
    Assembles marked layout (handleServerMessage c) msg.pieces c' := by
  cases msg with
  | hello serverName playersCount sizeX sizeY gameLength explosionRadius bombTimer =>
    obtain rfl := Except.ok.inj h
    exact (assembles_readUint8 0).bind (assembles_readHello hfit playersCount sizeX sizeY
      gameLength explosionRadius bombTimer).map
  | acceptedPlayer id player =>
    obtain rfl := Except.ok.inj h
    exact (assembles_readUint8 1).bind
      ((assembles_readUint8 id).bind (assembles_readPlayer hfit).map).map
  | gameStarted players =>
    obtain rfl := Except.ok.inj h
    exact (assembles_readUint8 2).bind (assembles_readPlayersMap hfit).map.map
  | turn info =>
    obtain ⟨g', hg', hc'⟩ := Except.bind_eq_ok_iff.mp h
    obtain rfl := Except.pure_eq_ok.mp hc'
    exact (assembles_readUint8 3).bind (assembles_readTurn hfit hg').map
  | gameEnded scores =>
    obtain rfl := Except.ok.inj h
    exact (assembles_readUint8 4).bind (assembles_readScoresMap hfit).map

def messagePieces (msgs : List ServerMessage) : List Piece := msgs.flatMap ServerMessage.pieces

theorem word_messagePieces (msgs : List ServerMessage) :
    layout.word (messagePieces msgs) = msgs.flatMap ServerMessage.toBytes := by
  induction msgs with
  | nil => rfl
  | cons msg msgs ih =>
    rw [messagePieces, List.flatMap_cons, word_append, word_pieces, List.flatMap_cons, ← ih]
    rfl

/--
The client reads a stream of messages as what they say, one after another, and leaves what
follows them, if the messages survive the places where its reads end.
-/
theorem yields_messages {msgs : List ServerMessage} {rest : Bytes} (hfit : ∀ msg ∈ msgs, msg.Fits)
    (h : c.handleServerMessages msgs = .ok c') (hs : s.Segmented)
    (hstream : s.stream = msgs.flatMap ServerMessage.toBytes ++ rest)
    (hends : layout.Survives (messagePieces msgs) {n | s.Ends (n + 1)}) :
    Yields source (Reading.times handleServerMessage msgs.length c) s c' rest := by
  have hloop : Assembles marked layout (Reading.times handleServerMessage msgs.length c)
      (messagePieces msgs) c' :=
    .times (fun msg hmsg _ _ hread => assembles_handleServerMessage (hfit msg hmsg) hread) h
  rw [← word_messagePieces] at hstream
  obtain ⟨s', hrun, hadv⟩ := hloop s rest hs hstream hends
  refine ⟨s', hrun, hadv.1, ?_⟩
  rw [show source.rest s' = marked.rest s' from rfl, hadv.2.1]
  change s.stream.drop _ = rest
  rw [hstream, List.drop_left]

end Globals

theorem ends_iff_exists_le : s.Ends n ↔ ∃ k ≤ s.incoming.length,
    s.buf.length + (s.incoming.take k).flatten.length = n := by
  constructor
  · rintro ⟨k, hk⟩
    refine ⟨min k s.incoming.length, Nat.min_le_right _ _, ?_⟩
    rwa [← List.take_eq_take_min]
  · rintro ⟨k, -, hk⟩
    exact ⟨k, hk⟩

instance : Decidable (s.Ends n) := decidable_of_iff' _ ends_iff_exists_le

def splitMessages : List ServerMessage :=
  [.turn ⟨258, [.playerMoved 1 ⟨2, 2⟩]⟩, .turn ⟨259, []⟩]

def splitReads : Socket where
  buf := []
  incoming := [[3], [1, 2, 0, 0], [0, 1, 2, 1, 0, 2, 0, 2, 3], [1, 3, 0, 0, 0, 0]]
  uninitialised := fun _ => 0

theorem survives_splitReads :
    layout.Survives (messagePieces splitMessages) {n | splitReads.Ends (n + 1)} := by
  simp only [splitMessages, messagePieces, ServerMessage.pieces, sizedPieces, Event.pieces,
    Position.pieces, List.flatMap_cons, List.flatMap_nil, List.cons_append, List.nil_append,
    List.append_nil, Survives, layout, Piece.survives, Piece.toBytes, mem_beyond,
    Set.mem_ofPred_eq]
  decide

theorem yields_messages_splitReads : ∃ c',
    sampleClient.handleServerMessages splitMessages = .ok c' ∧
    Yields source (Reading.times handleServerMessage splitMessages.length sampleClient)
      splitReads c' [] := by
  have hfit : ∀ msg ∈ splitMessages, msg.Fits := by
    simp [splitMessages, ServerMessage.Fits, Event.Fits]
  obtain ⟨c', hread⟩ : ∃ c', sampleClient.handleServerMessages splitMessages = .ok c' := ⟨_, rfl⟩
  have hs : splitReads.Segmented := by simp [Segmented, splitReads]
  have hstream : splitReads.stream = splitMessages.flatMap ServerMessage.toBytes ++ [] := by decide
  exact ⟨c', hread, yields_messages hfit hread hs hstream survives_splitReads⟩

end Socket

end Bomberrobots
