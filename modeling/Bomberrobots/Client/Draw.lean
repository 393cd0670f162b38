import Bomberrobots.Client.Wire
import Bomberrobots.Library.Format

/-! # What the client draws

The messages with which the client shows the lobby and the game. In the documented format
each of them can be parsed in one way, and the parse has all the values that were written.
-/

namespace Bomberrobots

open Format

variable {γ : Type} [PositionSet γ]

def lobbyMessage (info : LobbyInfo) : Bytes :=
  [0] ++ stringToBytes info.serverName ++ [info.playersCount] ++ uint16ToBytes info.sizeX ++
    uint16ToBytes info.sizeY ++ uint16ToBytes info.gameLength ++
    uint16ToBytes info.explosionRadius ++ uint16ToBytes info.bombTimer ++
    playerMapToBytes info.players

/-- A turn without a value is written as the value that it happens to have. -/
def gameMessage (uninitialised : UInt16) (info : GameInfo γ) : Bytes :=
  [1] ++ stringToBytes info.serverName ++ uint16ToBytes info.sizeX ++ uint16ToBytes info.sizeY ++
    uint16ToBytes info.gameLength ++ uint16ToBytes (info.turn.getD uninitialised) ++
    playerMapToBytes info.players ++ playerPositionMapToBytes info.playerPositions ++
    positionSetToBytes info.blocks ++ bombSetToBytes info.bombs ++
    positionSetToBytes info.explosions ++ scoreMapToBytes info.scores

def uint8Format : Format UInt8 UInt8 := fixed 1 fun bytes => bytes.headD 0

def uint16Format : Format UInt8 UInt16 := fixed 2 fun bytes => .ofNat (Socket.ntoh bytes)

def uint32Format : Format UInt8 UInt32 := fixed 4 fun bytes => .ofNat (Socket.ntoh bytes)

def stringFormat : Format UInt8 Bytes := counted (fixed 1 Socket.ntoh) uint8Format

def listFormat {α : Type} (element : Format UInt8 α) : Format UInt8 (List α) :=
  counted (fixed 4 Socket.ntoh) element

def mapFormat {α : Type} (value : Format UInt8 α) : Format UInt8 (List (UInt8 × α)) :=
  listFormat (uint8Format.pair value)

def playerFormat : Format UInt8 Player :=
  (stringFormat.pair stringFormat).via fun player => (player.name, player.address)

def positionFormat : Format UInt8 Position :=
  (uint16Format.pair uint16Format).via fun position => (position.x, position.y)

def bombFormat : Format UInt8 Bomb :=
  (positionFormat.pair uint16Format).via fun bomb => (bomb.position, bomb.timer)

/-- A message as it stands on the wire, with maps as lists of entries. -/
inductive DrawMessage
  | lobby (serverName : Bytes) (playersCount : UInt8)
      (sizeX sizeY gameLength explosionRadius bombTimer : UInt16)
      (players : List (PlayerId × Player))
  | game (serverName : Bytes) (sizeX sizeY gameLength turn : UInt16)
      (players : List (PlayerId × Player)) (playerPositions : List (PlayerId × Position))
      (blocks : List Position) (bombs : List Bomb) (explosions : List Position)
      (scores : List (PlayerId × Score))

def lobbyFormat : Format UInt8 (UInt8 × Bytes × UInt8 × UInt16 × UInt16 × UInt16 × UInt16 ×
    UInt16 × List (PlayerId × Player)) :=
  uint8Format.pair <| stringFormat.pair <| uint8Format.pair <| uint16Format.pair <|
    uint16Format.pair <| uint16Format.pair <| uint16Format.pair <| uint16Format.pair <|
    mapFormat playerFormat

def gameFormat : Format UInt8 (UInt8 × Bytes × UInt16 × UInt16 × UInt16 × UInt16 ×
    List (PlayerId × Player) × List (PlayerId × Position) × List Position × List Bomb ×
    List Position × List (PlayerId × Score)) :=
  uint8Format.pair <| stringFormat.pair <| uint16Format.pair <| uint16Format.pair <|
    uint16Format.pair <| uint16Format.pair <| (mapFormat playerFormat).pair <|
    (mapFormat positionFormat).pair <| (listFormat positionFormat).pair <|
    (listFormat bombFormat).pair <| (listFormat positionFormat).pair <| mapFormat uint32Format

def DrawMessage.format : Format UInt8 DrawMessage
  | .lobby serverName playersCount sizeX sizeY gameLength explosionRadius bombTimer players =>
    lobbyFormat (0, serverName, playersCount, sizeX, sizeY, gameLength, explosionRadius,
      bombTimer, players)
  | .game serverName sizeX sizeY gameLength turn players playerPositions blocks bombs explosions
      scores =>
    gameFormat (1, serverName, sizeX, sizeY, gameLength, turn, players, playerPositions, blocks,
      bombs, explosions, scores)

theorem selfDelimiting_stringFormat : SelfDelimiting stringFormat :=
  selfDelimiting_fixed.counted selfDelimiting_fixed

theorem selfDelimiting_listFormat {α : Type} {element : Format UInt8 α}
    (h : SelfDelimiting element) : SelfDelimiting (listFormat element) :=
  selfDelimiting_fixed.counted h

theorem selfDelimiting_mapFormat {α : Type} {value : Format UInt8 α}
    (h : SelfDelimiting value) : SelfDelimiting (mapFormat value) :=
  selfDelimiting_listFormat (selfDelimiting_fixed.pair h)

theorem selfDelimiting_playerFormat : SelfDelimiting playerFormat := by
  apply (selfDelimiting_stringFormat.pair selfDelimiting_stringFormat).via
  rintro ⟨name, address⟩ ⟨name', address'⟩ h
  obtain ⟨rfl, rfl⟩ := Prod.mk.inj h
  rfl

theorem selfDelimiting_positionFormat : SelfDelimiting positionFormat := by
  apply (selfDelimiting_fixed.pair selfDelimiting_fixed).via
  rintro ⟨x, y⟩ ⟨x', y'⟩ h
  obtain ⟨rfl, rfl⟩ := Prod.mk.inj h
  rfl

theorem selfDelimiting_bombFormat : SelfDelimiting bombFormat := by
  apply (selfDelimiting_positionFormat.pair selfDelimiting_fixed).via
  rintro ⟨position, timer⟩ ⟨position', timer'⟩ h
  obtain ⟨rfl, rfl⟩ := Prod.mk.inj h
  rfl

theorem selfDelimiting_lobbyFormat : SelfDelimiting lobbyFormat :=
  selfDelimiting_fixed.pair <| selfDelimiting_stringFormat.pair <| selfDelimiting_fixed.pair <|
    selfDelimiting_fixed.pair <| selfDelimiting_fixed.pair <| selfDelimiting_fixed.pair <|
    selfDelimiting_fixed.pair <| selfDelimiting_fixed.pair <|
    selfDelimiting_mapFormat selfDelimiting_playerFormat

theorem selfDelimiting_gameFormat : SelfDelimiting gameFormat :=
  selfDelimiting_fixed.pair <| selfDelimiting_stringFormat.pair <| selfDelimiting_fixed.pair <|
    selfDelimiting_fixed.pair <| selfDelimiting_fixed.pair <| selfDelimiting_fixed.pair <|
    (selfDelimiting_mapFormat selfDelimiting_playerFormat).pair <|
    (selfDelimiting_mapFormat selfDelimiting_positionFormat).pair <|
    (selfDelimiting_listFormat selfDelimiting_positionFormat).pair <|
    (selfDelimiting_listFormat selfDelimiting_bombFormat).pair <|
    (selfDelimiting_listFormat selfDelimiting_positionFormat).pair <|
    selfDelimiting_mapFormat selfDelimiting_fixed

/-- The first byte tells the messages apart. -/
theorem selfDelimiting_drawMessage : SelfDelimiting DrawMessage.format := by
  intro m m' w w' rest rest' h h' hstream
  cases m with
  | lobby =>
    cases m' with
    | lobby =>
      obtain ⟨hfields, hw, hrest⟩ := selfDelimiting_lobbyFormat h h' hstream
      simp only [Prod.mk.injEq, true_and] at hfields
      simp only [hfields, hw, hrest, and_self]
    | game =>
      cases selfDelimiting_fixed.pair_fst h h' hstream
  | game =>
    cases m' with
    | lobby =>
      cases selfDelimiting_fixed.pair_fst h h' hstream
    | game =>
      obtain ⟨hfields, hw, hrest⟩ := selfDelimiting_gameFormat h h' hstream
      simp only [Prod.mk.injEq, true_and] at hfields
      simp only [hfields, hw, hrest, and_self]

theorem uint8Format_byte (u8 : UInt8) : uint8Format u8 [u8] := ⟨rfl, rfl⟩

theorem uint16Format_uint16ToBytes (u16 : UInt16) : uint16Format u16 (uint16ToBytes u16) := by
  have hvalue : UInt16.ofNat (Socket.ntoh (uint16ToBytes u16)) = u16 := by
    rw [Socket.ntoh_uint16ToBytes, UInt16.ofNat_toNat]
  exact ⟨rfl, hvalue⟩

theorem uint32Format_uint32ToBytes (u32 : UInt32) : uint32Format u32 (uint32ToBytes u32) := by
  have hvalue : UInt32.ofNat (Socket.ntoh (uint32ToBytes u32)) = u32 := by
    rw [Socket.ntoh_uint32ToBytes, UInt32.ofNat_toNat]
  exact ⟨rfl, hvalue⟩

theorem stringFormat_stringToBytes {str : Bytes} (hstr : str.length ≤ 255) :
    stringFormat str (stringToBytes str) := by
  have hlen : Socket.ntoh [UInt8.ofNat str.length] = str.length := by
    simp [Socket.ntoh]
    omega
  have hbytes : Items uint8Format str (str.flatMap fun byte => [byte]) :=
    items_flatMap fun byte _ => uint8Format_byte byte
  rw [List.flatMap_singleton'] at hbytes
  exact ⟨[.ofNat str.length], str, ⟨rfl, hlen⟩, hbytes, rfl⟩

theorem listFormat_sizedToBytes {α : Type} {element : Format UInt8 α} {elements : List α}
    {elementToBytes : α → Bytes} (hlen : elements.length < 2 ^ 32)
    (h : ∀ a ∈ elements, element a (elementToBytes a)) :
    listFormat element elements (sizedToBytes elementToBytes elements) := by
  refine ⟨uint32ToBytes (.ofNat elements.length), _, ⟨rfl, ?_⟩, items_flatMap h, rfl⟩
  rw [Socket.ntoh_uint32ToBytes, UInt32.toNat_ofNat_of_lt' hlen]

theorem playerFormat_playerToBytes {player : Player} (hfit : player.Fits) :
    playerFormat player (playerToBytes player) :=
  pair_mk (stringFormat_stringToBytes hfit.name) (stringFormat_stringToBytes hfit.address)

theorem positionFormat_positionToBytes (position : Position) :
    positionFormat position (positionToBytes position) :=
  pair_mk (uint16Format_uint16ToBytes position.x) (uint16Format_uint16ToBytes position.y)

theorem bombFormat_bombToBytes (bomb : Bomb) : bombFormat bomb (bombToBytes bomb) :=
  pair_mk (positionFormat_positionToBytes bomb.position) (uint16Format_uint16ToBytes bomb.timer)

theorem mapFormat_toList {α : Type} {value : Format UInt8 α} {map : StdMap PlayerId α}
    {valueToBytes : α → Bytes} (hsize : map.size < 2 ^ 32)
    (h : ∀ entry ∈ map.toList, value entry.2 (valueToBytes entry.2)) :
    mapFormat value map.toList
      (sizedToBytes (fun entry => entry.1 :: valueToBytes entry.2) map.toList) :=
  listFormat_sizedToBytes (by rwa [Std.ExtTreeMap.length_toList]) fun entry hentry =>
    pair_mk (uint8Format_byte entry.1) (h entry hentry)

theorem listFormat_positionSetToBytes {positions : γ}
    (hlen : (PositionSet.toList positions).length < 2 ^ 32) :
    listFormat positionFormat (PositionSet.toList positions) (positionSetToBytes positions) :=
  listFormat_sizedToBytes hlen fun position _ => positionFormat_positionToBytes position

theorem listFormat_bombSetToBytes {bombs : StdMap BombId Bomb} (hsize : bombs.size < 2 ^ 32) :
    listFormat bombFormat (bombs.toList.map Prod.snd) (bombSetToBytes bombs) := by
  have hbytes : bombSetToBytes bombs = sizedToBytes bombToBytes (bombs.toList.map Prod.snd) := by
    rw [bombSetToBytes, sizedToBytes, sizedToBytes, List.length_map, List.flatMap_map]
  rw [hbytes]
  apply listFormat_sizedToBytes
  · rwa [List.length_map, Std.ExtTreeMap.length_toList]
  · exact fun bomb _ => bombFormat_bombToBytes bomb

structure LobbyInfo.Fits (info : LobbyInfo) : Prop where
  serverName : info.serverName.length ≤ 255
  players : ∀ entry ∈ info.players.toList, entry.2.Fits
  playersSize : info.players.size < 2 ^ 32

structure GameInfo.Fits (info : GameInfo γ) : Prop where
  serverName : info.serverName.length ≤ 255
  players : ∀ entry ∈ info.players.toList, entry.2.Fits
  playersSize : info.players.size < 2 ^ 32
  playerPositionsSize : info.playerPositions.size < 2 ^ 32
  blocksSize : (PositionSet.toList info.blocks).length < 2 ^ 32
  bombsSize : info.bombs.size < 2 ^ 32
  explosionsSize : (PositionSet.toList info.explosions).length < 2 ^ 32
  scoresSize : info.scores.size < 2 ^ 32

def LobbyInfo.drawing (info : LobbyInfo) : DrawMessage :=
  .lobby info.serverName info.playersCount info.sizeX info.sizeY info.gameLength
    info.explosionRadius info.bombTimer info.players.toList

def GameInfo.drawing (info : GameInfo γ) (uninitialised : UInt16) : DrawMessage :=
  .game info.serverName info.sizeX info.sizeY info.gameLength (info.turn.getD uninitialised)
    info.players.toList info.playerPositions.toList (PositionSet.toList info.blocks)
    (info.bombs.toList.map Prod.snd) (PositionSet.toList info.explosions) info.scores.toList

theorem format_lobbyMessage {info : LobbyInfo} (hfit : info.Fits) :
    DrawMessage.format info.drawing (lobbyMessage info) := by
  have h : lobbyFormat _ _ :=
    pair_mk (uint8Format_byte 0) <| pair_mk (stringFormat_stringToBytes hfit.serverName) <|
      pair_mk (uint8Format_byte info.playersCount) <|
      pair_mk (uint16Format_uint16ToBytes info.sizeX) <|
      pair_mk (uint16Format_uint16ToBytes info.sizeY) <|
      pair_mk (uint16Format_uint16ToBytes info.gameLength) <|
      pair_mk (uint16Format_uint16ToBytes info.explosionRadius) <|
      pair_mk (uint16Format_uint16ToBytes info.bombTimer) <|
      mapFormat_toList hfit.playersSize fun entry hentry =>
        playerFormat_playerToBytes (hfit.players entry hentry)
  simp only [lobbyMessage, List.append_assoc]
  exact h

theorem format_gameMessage {info : GameInfo γ} (hfit : info.Fits) (uninitialised : UInt16) :
    DrawMessage.format (info.drawing uninitialised) (gameMessage uninitialised info) := by
  have h : gameFormat _ _ :=
    pair_mk (uint8Format_byte 1) <| pair_mk (stringFormat_stringToBytes hfit.serverName) <|
      pair_mk (uint16Format_uint16ToBytes info.sizeX) <|
      pair_mk (uint16Format_uint16ToBytes info.sizeY) <|
      pair_mk (uint16Format_uint16ToBytes info.gameLength) <|
      pair_mk (uint16Format_uint16ToBytes (info.turn.getD uninitialised)) <|
      pair_mk (mapFormat_toList hfit.playersSize fun entry hentry =>
        playerFormat_playerToBytes (hfit.players entry hentry)) <|
      pair_mk (mapFormat_toList hfit.playerPositionsSize fun entry _ =>
        positionFormat_positionToBytes entry.2) <|
      pair_mk (listFormat_positionSetToBytes hfit.blocksSize) <|
      pair_mk (listFormat_bombSetToBytes hfit.bombsSize) <|
      pair_mk (listFormat_positionSetToBytes hfit.explosionsSize) <|
      mapFormat_toList hfit.scoresSize fun entry _ => uint32Format_uint32ToBytes entry.2
  simp only [gameMessage, List.append_assoc]
  exact h

/-- The values of the game that a message shows. -/
structure GameView where
  serverName : Bytes
  sizeX : UInt16
  sizeY : UInt16
  gameLength : UInt16
  turn : UInt16
  players : StdMap PlayerId Player
  playerPositions : StdMap PlayerId Position
  blocks : List Position
  bombs : List Bomb
  explosions : List Position
  scores : StdMap PlayerId Score

def GameInfo.view (info : GameInfo γ) (uninitialised : UInt16) : GameView where
  serverName := info.serverName
  sizeX := info.sizeX
  sizeY := info.sizeY
  gameLength := info.gameLength
  turn := info.turn.getD uninitialised
  players := info.players
  playerPositions := info.playerPositions
  blocks := PositionSet.toList info.blocks
  bombs := info.bombs.toList.map Prod.snd
  explosions := PositionSet.toList info.explosions
  scores := info.scores

def DrawMessage.view : DrawMessage → LobbyInfo ⊕ GameView
  | .lobby serverName playersCount sizeX sizeY gameLength explosionRadius bombTimer players =>
    .inl ⟨serverName, playersCount, sizeX, sizeY, gameLength, explosionRadius, bombTimer,
      (∅ : StdMap PlayerId Player).assign players⟩
  | .game serverName sizeX sizeY gameLength turn players playerPositions blocks bombs explosions
      scores =>
    .inr ⟨serverName, sizeX, sizeY, gameLength, turn, (∅ : StdMap PlayerId Player).assign players,
      (∅ : StdMap PlayerId Position).assign playerPositions, blocks, bombs, explosions,
      (∅ : StdMap PlayerId Score).assign scores⟩

theorem view_drawing_lobby (info : LobbyInfo) : info.drawing.view = .inl info := by
  rw [LobbyInfo.drawing, DrawMessage.view, Std.ExtTreeMap.assign_empty_toList]

theorem view_drawing_game (info : GameInfo γ) (uninitialised : UInt16) :
    (info.drawing uninitialised).view = .inr (info.view uninitialised) := by
  simp only [GameInfo.drawing, DrawMessage.view, Std.ExtTreeMap.assign_empty_toList,
    GameInfo.view]

/-- The bytes can be parsed in one way, all of them are used, and the parse has this view. -/
def DrawnAs (bytes : Bytes) (view : LobbyInfo ⊕ GameView) : Prop :=
  ∃ m : DrawMessage, m.view = view ∧
    ∀ m' rest, Parses DrawMessage.format bytes m' rest ↔ m' = m ∧ rest = []

theorem drawnAs_of_format {m : DrawMessage} {bytes : Bytes} (h : DrawMessage.format m bytes) :
    DrawnAs bytes m.view := by
  refine ⟨m, rfl, fun m' rest => ?_⟩
  have hparses : Parses DrawMessage.format (bytes ++ []) m' rest ↔ m' = m ∧ rest = [] :=
    selfDelimiting_drawMessage.parses_iff h
  rwa [List.append_nil] at hparses

theorem DrawnAs.unique {bytes : Bytes} {view view' : LobbyInfo ⊕ GameView}
    (h : DrawnAs bytes view) (h' : DrawnAs bytes view') : view = view' := by
  obtain ⟨m, rfl, hm⟩ := h
  obtain ⟨m', rfl, hm'⟩ := h'
  have hparse := (hm m []).mpr ⟨rfl, rfl⟩
  rw [((hm' m []).mp hparse).1]

theorem drawnAs_lobbyMessage {info : LobbyInfo} (hfit : info.Fits) :
    DrawnAs (lobbyMessage info) (.inl info) := by
  rw [← view_drawing_lobby]
  exact drawnAs_of_format (format_lobbyMessage hfit)

theorem drawnAs_gameMessage {info : GameInfo γ} (hfit : info.Fits) (uninitialised : UInt16) :
    DrawnAs (gameMessage uninitialised info) (.inr (info.view uninitialised)) := by
  rw [← view_drawing_game]
  exact drawnAs_of_format (format_gameMessage hfit uninitialised)

/--
Both messages can be parsed in one way, which recovers what was written. So states with one
message agree in all that it shows.
-/
theorem drawMessages_decodable {info : LobbyInfo} {game : GameInfo γ} (hinfo : info.Fits)
    (hgame : game.Fits) (uninitialised : UInt16) :
    DrawnAs (lobbyMessage info) (.inl info) ∧
      DrawnAs (gameMessage uninitialised game) (.inr (game.view uninitialised)) ∧
      (∀ info' : LobbyInfo, info'.Fits → lobbyMessage info' = lobbyMessage info → info' = info) ∧
      ∀ (game' : GameInfo γ) (uninitialised' : UInt16), game'.Fits →
        gameMessage uninitialised' game' = gameMessage uninitialised game →
        game'.view uninitialised' = game.view uninitialised := by
  refine ⟨drawnAs_lobbyMessage hinfo, drawnAs_gameMessage hgame uninitialised, ?_, ?_⟩
  · intro info' hinfo' hbytes
    have hdrawn := drawnAs_lobbyMessage hinfo'
    rw [hbytes] at hdrawn
    exact Sum.inl.inj (hdrawn.unique (drawnAs_lobbyMessage hinfo))
  · intro game' uninitialised' hgame' hbytes
    have hdrawn := drawnAs_gameMessage hgame' uninitialised'
    rw [hbytes] at hdrawn
    exact Sum.inr.inj (hdrawn.unique (drawnAs_gameMessage hgame uninitialised))

def shownLobby : LobbyInfo :=
  ((LobbyInfo.new [82] 2 10 8 50 3 4).addPlayer 7 ⟨[65], [91, 93]⟩).addPlayer 0 ⟨[], [58, 49]⟩

def shownGame : GameInfo (StdSet Position) where
  serverName := [82]
  sizeX := 10
  sizeY := 8
  gameLength := 50
  bombTimer := 4
  turn := some 3
  players := shownLobby.players
  playerPositions := (Std.ExtTreeMap.insert ∅ 7 ⟨1, 1⟩).insert 0 ⟨9, 0⟩
  blocks := (Std.ExtTreeSet.insert ∅ ⟨2, 2⟩).insert ⟨0, 5⟩
  bombs := (Std.ExtTreeMap.insert ∅ 0 ⟨⟨1, 1⟩, 4⟩).insert 2 ⟨⟨9, 0⟩, 3⟩
  explosions := (Std.ExtTreeSet.insert ∅ ⟨3, 3⟩).insert ⟨3, 4⟩
  scores := (Std.ExtTreeMap.insert ∅ 7 1).insert 0 300

theorem toList_players_shownLobby :
    shownLobby.players.toList = [(0, ⟨[], [58, 49]⟩), (7, ⟨[65], [91, 93]⟩)] := by
  decide

theorem fits_shownLobby : shownLobby.Fits where
  serverName := by decide
  players := by
    rw [toList_players_shownLobby]
    simp only [List.forall_mem_cons, List.not_mem_nil, false_implies, implies_true, and_true]
    exact ⟨⟨by decide, by decide⟩, by decide, by decide⟩
  playersSize := by decide

theorem fits_shownGame : shownGame.Fits where
  serverName := by decide
  players := fits_shownLobby.players
  playersSize := by decide
  playerPositionsSize := by decide
  blocksSize := by decide
  bombsSize := by decide
  explosionsSize := by decide
  scoresSize := by decide

theorem drawMessages_decodable_shown :
    DrawnAs (lobbyMessage shownLobby) (.inl shownLobby) ∧
      DrawnAs (gameMessage 5 shownGame) (.inr (shownGame.view 5)) ∧
      shownGame.bombs.size = 2 ∧ (PositionSet.toList shownGame.explosions).length = 2 := by
  obtain ⟨hlobby, hdrawn, -⟩ := drawMessages_decodable fits_shownLobby fits_shownGame 5
  exact ⟨hlobby, hdrawn, by decide, by decide⟩

end Bomberrobots
