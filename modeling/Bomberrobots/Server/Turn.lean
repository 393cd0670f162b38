import Bomberrobots.Server.Engine

/-! # Opening and closing a turn

The explosions and the rest of `begin_turn`, and `summarise_turn` with the end of
the game. `summarise_turn` is cut behind the broadcast of the turn, so that the
state a client is told about is one the server passes through.
-/

namespace Bomberrobots

namespace GameEngine

variable {β : Type} [PositionSet β]

/-- What an explosion has collected, in the local vectors and in the fields of the engine. -/
structure Explosion where
  robotsDestroyed : List PlayerId
  blocksDestroyed : List Position
  currentPlayersToDestroy : StdSet PlayerId
  currentBlocksToErase : List Position

def destroyRobots (e : GameEngine β) (pos : Position) (x : Explosion) : Explosion :=
  e.playersPositions.toList.foldl (fun x player =>
    if player.2 = pos then
      { x with robotsDestroyed := x.robotsDestroyed ++ [player.1]
               currentPlayersToDestroy := x.currentPlayersToDestroy.insert player.1 }
    else x) x

def destroyBlock (pos : Position) (x : Explosion) : Explosion :=
  { x with blocksDestroyed := x.blocksDestroyed ++ [pos]
           currentBlocksToErase := x.currentBlocksToErase ++ [pos] }

/-- One field of one ray, returning the stop flag of the ray for the next field. -/
def scanField (e : GameEngine β) (pos : Position) (go : Bool) (x : Explosion) :
    Bool × Explosion :=
  if go then
    if e.checkPosition pos then
      let x := e.destroyRobots pos x
      if PositionSet.contains e.blocksPositions pos then (false, destroyBlock pos x)
      else (true, x)
    else (false, x)
  else (false, x)

structure Rays where
  goDown : Bool
  goUp : Bool
  goLeft : Bool
  goRight : Bool

def down (c : Position) (i : UInt16) : Position := ⟨c.x, c.y - i⟩
def up (c : Position) (i : UInt16) : Position := ⟨c.x, c.y + i⟩
def left (c : Position) (i : UInt16) : Position := ⟨c.x - i, c.y⟩
def right (c : Position) (i : UInt16) : Position := ⟨c.x + i, c.y⟩

def scanRays (e : GameEngine β) (c : Position) (i : UInt16) (go : Rays) (x : Explosion) :
    Rays × Explosion :=
  let (goDown, x) := e.scanField (down c i) go.goDown x
  let (goUp, x) := e.scanField (up c i) go.goUp x
  let (goLeft, x) := e.scanField (left c i) go.goLeft x
  let (goRight, x) := e.scanField (right c i) go.goRight x
  (⟨goDown, goUp, goLeft, goRight⟩, x)

/--
The loop `for (uint16_t i = 1; i <= explosion_radius; i++)`. The counter takes at most
`2 ^ 16` values before it repeats one, and the flags never make the loop exit, so a
loop that runs out of this fuel runs forever.
-/
def explosionLoop (e : GameEngine β) (c : Position) :
    Nat → UInt16 → Rays → Explosion → Except Fault Explosion
  | 0, _, _, _ => .error .endlessLoop
  | fuel + 1, i, go, x =>
    if i ≤ e.gameParams.explosionRadius then
      let (go, x) := e.scanRays c i go x
      e.explosionLoop c fuel (i + 1) go x
    else .ok x

/-- The fields that `handle_explosion` looks at, starting from the centre. -/
def explode (e : GameEngine β) (c : Position) (x : Explosion) : Except Fault Explosion :=
  let x := e.destroyRobots c x
  if PositionSet.contains e.blocksPositions c then .ok (destroyBlock c x)
  else e.explosionLoop c (2 ^ 16) 1 ⟨true, true, true, true⟩ x

def handleExplosion (e : GameEngine β) (id : BombId) (bomb : Bomb) :
    Except Fault (GameEngine β) := do
  let x ← e.explode bomb.position ⟨[], [], e.currentPlayersToDestroy, e.currentBlocksToErase⟩
  let e := { e with currentPlayersToDestroy := x.currentPlayersToDestroy
                    currentBlocksToErase := x.currentBlocksToErase }
  e.addEvent e.currentTurn (.bombExploded id x.robotsDestroyed x.blocksDestroyed)

/-- One bomb of the first loop of `begin_turn`: count down, and explode at zero. -/
def tickBomb (e : GameEngine β) (entry : BombId × Bomb) : Except Fault (GameEngine β) :=
  let bomb := { entry.2 with timer := entry.2.timer - 1 }
  let e := { e with bombs := e.bombs.insert entry.1 bomb }
  if bomb.timer = 0 then e.handleExplosion entry.1 bomb else .ok e

def beginTurn (e : GameEngine β) : Except Fault (GameEngine β) := do
  let e := { e with currentTurn := e.currentTurn + 1
                    turns := e.turns ++ [TurnInfo.new (e.currentTurn + 1)] }
  let e ← e.bombs.toList.foldlM tickBomb e
  let e := { e with bombs := e.bombs.filter fun _ bomb => bomb.timer != 0 }
  pure { e with blocksPositions :=
    e.currentBlocksToErase.foldl PositionSet.erase e.blocksPositions }

def respawnPlayer (e : GameEngine β) (id : PlayerId) : Except Fault (GameEngine β) :=
  match e.scores[id]? with
  | some score => { e with scores := e.scores.insert id (score + 1) }.seedPlayer id
  | none => .error .outOfRange

/-- `summarise_turn` up to the broadcast of the turn. -/
def sendTurn (e : GameEngine β) : Except Fault (GameEngine β × List Sending) := do
  let e ← e.currentPlayersToDestroy.toList.foldlM respawnPlayer e
  match e.turns[e.currentTurn.toNat]? with
  | some turn => pure (e, e.tcpHandler.sendMessageToAll (.turn turn))
  | none => .error .outOfRange

def endGameplay (e : GameEngine β) : GameEngine β × List Sending :=
  ({ e with gameplayStarted := false
            players := ∅
            scores := ∅
            playersPositions := ∅
            blocksPositions := PositionSet.empty
            playerIds := ∅
            nextPlayerId := 0
            currentTurn := 0
            turns := []
            bombs := ∅
            nextBombId := 0 },
    e.tcpHandler.sendMessageToAll (.gameEnded e.scores))

/-- `summarise_turn` behind the broadcast of the turn. -/
def finishTurn (e : GameEngine β) : GameEngine β × List Sending :=
  let e := { e with currentBlocksToErase := [], currentPlayersToDestroy := ∅ }
  if e.currentTurn = e.gameParams.gameLength then e.endGameplay else (e, [])

end GameEngine

end Bomberrobots
