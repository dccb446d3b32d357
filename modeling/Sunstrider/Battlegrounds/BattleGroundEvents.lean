import Mathlib

/-!
# Events of a battleground

A battleground has numbered events, and each is in at most one of its numbered
states. A creature or gameobject of the map lists the pairs of event and state it
belongs to. It is registered under each of them when its grid is loaded, and made
to stand or not at that moment; after that `SpawnEvent` changes the state of an
event and goes through the objects registered under the pairs concerned.

A creature stands when it is alive or about to be, and a gameobject when its
respawn is not put off for a day. The state of an event that is looked up with
`[]` without being there is 0 from then on.
-/

namespace Sunstrider.Battlegrounds

/-- Event and state. -/
abbrev BattleGroundEventIdx := Nat × Nat

def bgEventNone : Nat := 255

def respawnOneDay : Nat := 24 * 60 * 60

inductive BattleGroundCreatureSpawnMode
  | despawnForced
  | respawnStop
  | respawnStart
  | respawnForced
deriving DecidableEq, Repr

structure BgCreature where
  standing : Bool
  inWorld : Bool
deriving DecidableEq, Repr

structure BgGameObject where
  respawnTime : Nat
  inWorld : Bool
deriving DecidableEq, Repr

def BgGameObject.standing (obj : BgGameObject) : Bool := decide (obj.respawnTime < respawnOneDay)

/-- The event vectors of creatures and of gameobjects. -/
structure EventVectors where
  creature : Nat → List BattleGroundEventIdx
  gameObject : Nat → List BattleGroundEventIdx

structure Battleground where
  activeEvents : Nat → Option Nat
  eventCreatures : BattleGroundEventIdx → List Nat
  eventGameObjects : BattleGroundEventIdx → List Nat
  creatures : Nat → Option BgCreature
  gameObjects : Nat → Option BgGameObject

/-- `SpawnBGCreature`. A creature in the world whose respawn is stopped stays as it is. -/
def spawnBGCreature (c : BgCreature) (mode : BattleGroundCreatureSpawnMode) : BgCreature :=
  match mode with
  | .respawnForced => { c with standing := true }
  | .respawnStart => { c with standing := true }
  | .despawnForced => { c with standing := false }
  | .respawnStop => if c.inWorld then c else { c with standing := false }

/-- `SpawnBGObject`. -/
def spawnBGObject (_obj : BgGameObject) (respawntime : Nat) : BgGameObject :=
  ⟨respawntime, true⟩

namespace Battleground

def isActiveEvent (b : Battleground) (p : BattleGroundEventIdx) : Bool :=
  b.activeEvents p.1 = some p.2

/-- All events of a vector are active. -/
def allActive (b : Battleground) (v : List BattleGroundEventIdx) : Bool :=
  v.all b.isActiveEvent

def registerCreature (b : Battleground) (guid : Nat) (p : BattleGroundEventIdx) : Battleground :=
  { b with eventCreatures := Function.update b.eventCreatures p (b.eventCreatures p ++ [guid]) }

def registerGameObject (b : Battleground) (guid : Nat) (p : BattleGroundEventIdx) :
    Battleground :=
  { b with
    eventGameObjects := Function.update b.eventGameObjects p (b.eventGameObjects p ++ [guid]) }

/-- The loop of `OnObjectDBLoad(Creature*)`. -/
def loadCreatureEvents (guid : Nat) :
    List BattleGroundEventIdx → Battleground → BgCreature → Battleground × BgCreature
  | [], b, c => (b, c)
  | p :: v, b, c =>
      loadCreatureEvents guid v (b.registerCreature guid p)
        (if b.isActiveEvent p then c else spawnBGCreature c .despawnForced)

/-- The loop of `OnObjectDBLoad(GameObject*)`. -/
def loadGameObjectEvents (guid : Nat) :
    List BattleGroundEventIdx → Battleground → BgGameObject → Battleground × BgGameObject
  | [], b, obj => (b, obj)
  | p :: v, b, obj =>
      loadGameObjectEvents guid v (b.registerGameObject guid p)
        (if b.isActiveEvent p then obj else spawnBGObject obj respawnOneDay)

/-- Whether the vector is the one of objects that belong to no event. -/
def noEvents (v : List BattleGroundEventIdx) : Bool :=
  match v with
  | [] => true
  | p :: _ => p.1 = bgEventNone

/-- The grid loader brings a creature into the battleground. -/
def loadCreature (vectors : EventVectors) (b : Battleground) (guid : Nat) : Battleground :=
  let c : BgCreature := ⟨true, false⟩
  let r :=
    if noEvents (vectors.creature guid) then (b, c)
    else loadCreatureEvents guid (vectors.creature guid) b c
  { r.1 with creatures := Function.update r.1.creatures guid (some { r.2 with inWorld := true }) }

/-- The grid loader brings a gameobject into the battleground. -/
def loadGameObject (vectors : EventVectors) (b : Battleground) (guid : Nat) : Battleground :=
  let obj : BgGameObject := ⟨0, false⟩
  let r :=
    if noEvents (vectors.gameObject guid) then (b, obj)
    else loadGameObjectEvents guid (vectors.gameObject guid) b obj
  { r.1 with
    gameObjects := Function.update r.1.gameObjects guid (some { r.2 with inWorld := true }) }

/-- `m_ActiveEvents[event1]`, which is there afterwards. -/
def touch (b : Battleground) (event1 : Nat) : Battleground :=
  { b with
    activeEvents :=
      Function.update b.activeEvents event1 (some ((b.activeEvents event1).getD 0)) }

def activeState (b : Battleground) (event1 : Nat) : Nat := (b.activeEvents event1).getD 0

def setActive (b : Battleground) (event1 event2 : Nat) : Battleground :=
  { b with activeEvents := Function.update b.activeEvents event1 (some event2) }

/-- The mode `SpawnEvent` chooses for a creature. -/
def creatureMode (vectors : EventVectors) (b : Battleground) (spawn forcedDespawn : Bool)
    (guid : Nat) : BattleGroundCreatureSpawnMode :=
  if spawn && b.allActive (vectors.creature guid) then .respawnForced
  else if forcedDespawn then .despawnForced
  else .respawnStop

/-- The first loop of `SpawnEvent`, over registered creatures. -/
def spawnCreatures (vectors : EventVectors) (spawn forcedDespawn : Bool) (l : List Nat)
    (b : Battleground) : Battleground :=
  l.foldl
    (fun b guid =>
      match b.creatures guid with
      | none => b
      | some c =>
          { b with
            creatures :=
              Function.update b.creatures guid
                (some (spawnBGCreature c (creatureMode vectors b spawn forcedDespawn guid))) })
    b

/-- The second loop, over registered gameobjects. -/
def spawnGameObjects (respawntime : Nat) (l : List Nat) (b : Battleground) : Battleground :=
  l.foldl
    (fun b guid =>
      match b.gameObjects guid with
      | none => b
      | some obj =>
          { b with
            gameObjects :=
              Function.update b.gameObjects guid (some (spawnBGObject obj respawntime)) })
    b

/-- The two loops of `SpawnEvent`. -/
def spawnObjects (vectors : EventVectors) (event1 event2 : Nat) (spawn forcedDespawn : Bool)
    (delay : Nat) (b : Battleground) : Battleground :=
  let b := spawnCreatures vectors spawn forcedDespawn (b.eventCreatures (event1, event2)) b
  spawnGameObjects (if spawn then delay else respawnOneDay) (b.eventGameObjects (event1, event2))
    b

/-- `SpawnEvent` with `spawn` false, as it calls itself. -/
def despawnEvent (vectors : EventVectors) (b : Battleground) (event1 event2 : Nat)
    (forcedDespawn : Bool) : Battleground :=
  if event2 = bgEventNone then b
  else
    let b := b.touch event1
    if b.activeState event1 ≠ event2 then b
    else
      spawnObjects vectors event1 event2 false forcedDespawn 0 (b.setActive event1 bgEventNone)

def spawnEvent (vectors : EventVectors) (b : Battleground) (event1 event2 : Nat)
    (spawn forcedDespawn : Bool) (delay : Nat) : Battleground :=
  if event2 = bgEventNone then b
  else
    let b := b.touch event1
    if (spawn ∧ b.activeState event1 = event2) ∨ (¬ spawn ∧ b.activeState event1 ≠ event2) then b
    else
      let b :=
        if spawn then
          -- the state that is active now must go
          (despawnEvent vectors b event1 (b.activeState event1) forcedDespawn).setActive event1
            event2
        else b.setActive event1 bgEventNone
      spawnObjects vectors event1 event2 spawn forcedDespawn delay b

end Battleground

/-! ## Runs -/

inductive BgOp
  | loadCreature (guid : Nat)
  | loadGameObject (guid : Nat)
  | spawnEvent (event1 event2 : Nat) (spawn forcedDespawn : Bool) (delay : Nat)
deriving DecidableEq, Repr

namespace Battleground

def step (vectors : EventVectors) (b : Battleground) (op : BgOp) : Battleground :=
  match op with
  | .loadCreature guid => b.loadCreature vectors guid
  | .loadGameObject guid => b.loadGameObject vectors guid
  | .spawnEvent event1 event2 spawn forcedDespawn delay =>
      b.spawnEvent vectors event1 event2 spawn forcedDespawn delay

/-- Nothing is loaded yet. -/
def unloaded (activeEvents : Nat → Option Nat) : Battleground :=
  ⟨activeEvents, fun _ => [], fun _ => [], fun _ => none, fun _ => none⟩

end Battleground

end Sunstrider.Battlegrounds
