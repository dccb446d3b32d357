import Sunstrider.Inventory.Purse

/-!
# Pool groups

A pool holds creatures, gameobjects, other pools and quests, of which only some are
spawned at a time. The members of one kind are a group: those with a chance of
their own, rolled first, and those with equal chances. A chance of its own counts
only in a pool that spawns one object, so in any other pool every member is in the
second list.

`ActivePoolData` is what is spawned now. It has a set for each kind of object and,
for the pools, a map from pool to how many of its members are spawned; a sub-pool
is spawned if the map has it, with whatever count. The class templates of the
source are functions of the kind here, and what a template specialises for one kind
is a case of the match. What an object does in the world when it is spawned or
removed is left out: none of it changes the pools. The two that do are for
sub-pools, where `SpawnPool` and `DespawnPool` of the manager are called again; they
come as arguments.

Chances and percentages are C++ floats. Nothing here depends on how they round, so
`Chance` asks for the operations and for no law.
-/

namespace Sunstrider.Pools

open Inventory

/-- The arithmetic chances and percentages are counted in. -/
class Chance (F : Type) extends LinearOrder F, Zero F, Add F, Sub F, Mul F, Div F,
    NatCast F where
  /-- `std::round`, and the conversion to `uint32`. -/
  round : F → Nat

/-- Exact arithmetic is one instance. -/
scoped instance : Chance ℚ where
  round x := (x + 1 / 2).floor.toNat

/-- What a pool may hold. -/
inductive Kind
  | creature
  | gameobject
  | pool
  | quest
deriving DecidableEq, Repr

/-- What comes from outside: the random numbers, by how many were drawn before, and
the rows of `pool_quest_save` that a query for a pool finds. -/
structure Outside (F : Type) where
  randChance : Nat → F
  urand : Nat → Nat → Nat → Nat
  urand_mem : ∀ n lo hi, lo ≤ hi → lo ≤ urand n lo hi ∧ urand n lo hi ≤ hi
  savedQuests : Nat → Nat → List Nat

/-! ## What is spawned -/

/-- `insert` of an ordered set. -/
def setInsert (x : Nat) (l : List Nat) : List Nat :=
  if x ∈ l then l else l.orderedInsert (· ≤ ·) x

structure ActivePoolData where
  spawnedCreatures : List Nat
  spawnedGameobjects : List Nat
  activeQuests : List Nat
  spawnedPools : Nat → Option Nat

namespace ActivePoolData

def getActiveObjectCount (s : ActivePoolData) (pool : Nat) : Nat :=
  (s.spawnedPools pool).getD 0

def isActiveObject (s : ActivePoolData) : Kind → Nat → Bool
  | .creature, guid => guid ∈ s.spawnedCreatures
  | .gameobject, guid => guid ∈ s.spawnedGameobjects
  | .pool, guid => (s.spawnedPools guid).isSome
  | .quest, guid => guid ∈ s.activeQuests

/-- `++mSpawnedPools[pool_id]`. -/
def countOne (s : ActivePoolData) (pool : Nat) : ActivePoolData :=
  { s with
    spawnedPools :=
      Function.update s.spawnedPools pool (some (s.getActiveObjectCount pool + 1)) }

/-- The count is taken down if it can be. The access makes an entry if there is none. -/
def uncountOne (s : ActivePoolData) (pool : Nat) : ActivePoolData :=
  { s with
    spawnedPools :=
      Function.update s.spawnedPools pool (some (s.getActiveObjectCount pool - 1)) }

/-- The object joins the set of its kind. A pool joins the map, with nothing spawned. -/
def mark (s : ActivePoolData) : Kind → Nat → ActivePoolData
  | .creature, guid => { s with spawnedCreatures := setInsert guid s.spawnedCreatures }
  | .gameobject, guid => { s with spawnedGameobjects := setInsert guid s.spawnedGameobjects }
  | .pool, guid => { s with spawnedPools := Function.update s.spawnedPools guid (some 0) }
  | .quest, guid => { s with activeQuests := setInsert guid s.activeQuests }

def unmark (s : ActivePoolData) : Kind → Nat → ActivePoolData
  | .creature, guid => { s with spawnedCreatures := s.spawnedCreatures.filter (· ≠ guid) }
  | .gameobject, guid => { s with spawnedGameobjects := s.spawnedGameobjects.filter (· ≠ guid) }
  | .pool, guid => { s with spawnedPools := Function.update s.spawnedPools guid none }
  | .quest, guid => { s with activeQuests := s.activeQuests.filter (· ≠ guid) }

def activateObject (s : ActivePoolData) (k : Kind) (guid pool : Nat) : ActivePoolData :=
  (s.mark k guid).countOne pool

def removeObject (s : ActivePoolData) (k : Kind) (guid pool : Nat) : ActivePoolData :=
  (s.unmark k guid).uncountOne pool

end ActivePoolData

/-! ## Groups -/

structure PoolObject (F : Type) where
  guid : Nat
  chance : F

structure PoolGroup (F : Type) where
  poolId : Nat
  explicitlyChanced : List (PoolObject F)
  equalChanced : List (PoolObject F)

variable {F : Type} [Chance F]

/-- The constructor takes the absolute value of the chance. -/
def PoolObject.new (guid : Nat) (chance : F) : PoolObject F :=
  ⟨guid, if chance < 0 then 0 - chance else chance⟩

/-- What is spawned, and how many times something was asked from outside. -/
structure Spawns where
  data : ActivePoolData
  clock : Nat

def Spawns.tick (s : Spawns) : Spawns := { s with clock := s.clock + 1 }

namespace PoolGroup

def new : PoolGroup F := ⟨0, [], []⟩

def isEmpty (g : PoolGroup F) : Bool := g.explicitlyChanced.isEmpty && g.equalChanced.isEmpty

def addEntry (g : PoolGroup F) (item : PoolObject F) (maxentries : Nat) : PoolGroup F :=
  if item.chance ≠ 0 ∧ maxentries = 1 then
    { g with explicitlyChanced := g.explicitlyChanced ++ [item] }
  else { g with equalChanced := g.equalChanced ++ [item] }

/-- The first entry of the child in either list. -/
def removeOneRelation (g : PoolGroup F) (child : Nat) : PoolGroup F :=
  { g with
    explicitlyChanced := g.explicitlyChanced.eraseP (·.guid = child)
    equalChanced := g.equalChanced.eraseP (·.guid = child) }

/-! ### Removing -/

/-- The loop of `DespawnObject` over one list; all of it if `guid` is zero. -/
def despawnList (k : Kind) (poolId guid : Nat)
    (despawn1Object : ActivePoolData → Nat → Option ActivePoolData) :
    List (PoolObject F) → ActivePoolData → Option ActivePoolData
  | [], s => some s
  | o :: os, s =>
      if s.isActiveObject k o.guid ∧ (guid = 0 ∨ o.guid = guid) then do
        let s ← despawn1Object s o.guid
        despawnList k poolId guid despawn1Object os (s.removeObject k o.guid poolId)
      else despawnList k poolId guid despawn1Object os s

def despawnObject (g : PoolGroup F) (k : Kind)
    (despawn1Object : ActivePoolData → Nat → Option ActivePoolData) (s : ActivePoolData)
    (guid : Nat) : Option ActivePoolData := do
  let s ← despawnList k g.poolId guid despawn1Object g.equalChanced s
  despawnList k g.poolId guid despawn1Object g.explicitlyChanced s

/-! ### Spawning -/

/-- Either limit, or the lower of the two. Zero is no limit. -/
def limitOf (g : PoolGroup F) (limit : Nat) (limitPercent : F) : Nat :=
  let limitPercentRatio := limitPercent / ((100 : Nat) : F)
  if limitPercentRatio ≠ 0 then
    let limitFromPercent := Chance.round ((g.equalChanced.length : F) * limitPercentRatio)
    if limit ≠ 0 then min limit limitFromPercent else limitFromPercent
  else limit

/-- An object that may be spawned. The one that triggered the call may be, active
though it is. -/
def eligible (s : ActivePoolData) (k : Kind) (triggerFrom : Nat) (o : PoolObject F) : Bool :=
  o.guid = triggerFrom || !s.isActiveObject k o.guid

/-- The roll among the objects with a chance of their own. -/
def rollExplicit (s : ActivePoolData) (k : Kind) (triggerFrom : Nat) :
    F → List (PoolObject F) → List (PoolObject F)
  | _, [] => []
  | roll, o :: os =>
      let roll := roll - o.chance
      if roll < 0 ∧ eligible s k triggerFrom o then [o]
      else rollExplicit s k triggerFrom roll os

/-- The loop of `RandomResize`. -/
def randomKeep {α : Type} (out : Outside F) : Nat → List α → Nat → List α × Nat
  | _, [], clock => ([], clock)
  | elementsToKeep, x :: xs, clock =>
      if out.urand clock 1 (xs.length + 1) ≤ elementsToKeep then
        let (kept, clock) := randomKeep out (elementsToKeep - 1) xs (clock + 1)
        (x :: kept, clock)
      else randomKeep out elementsToKeep xs (clock + 1)

def randomResize {α : Type} (out : Outside F) (requestedSize : Nat) (container : List α)
    (clock : Nat) : List α × Nat :=
  if container.length ≤ requestedSize then (container, clock)
  else randomKeep out requestedSize container clock

/-- The object rolled by its own chance, if any, and the clock afterwards. -/
def rollChances (g : PoolGroup F) (out : Outside F) (k : Kind) (triggerFrom : Nat)
    (s : Spawns) : List (PoolObject F) × Nat :=
  if g.explicitlyChanced.isEmpty then ([], s.clock)
  else
    (rollExplicit s.data k triggerFrom (out.randChance s.clock) g.explicitlyChanced, s.clock + 1)

/-- Those with equal chances, as many as may be. -/
def rollEqual (g : PoolGroup F) (out : Outside F) (k : Kind) (limit : Nat) (count : Int)
    (triggerFrom : Nat) (s : ActivePoolData) (clock : Nat) : List (PoolObject F) × Nat :=
  let rolled := g.equalChanced.filter (eligible s k triggerFrom)
  if limit ≠ 0 then randomResize out count.toNat rolled clock else (rolled, clock)

/-- The objects rolled: equal chances only if no other came up. -/
def rollObjects (g : PoolGroup F) (out : Outside F) (k : Kind) (limit : Nat) (count : Int)
    (triggerFrom : Nat) (s : Spawns) : List (PoolObject F) × Nat :=
  let (rolled, clock) := g.rollChances out k triggerFrom s
  if g.equalChanced.isEmpty = false ∧ rolled.isEmpty then
    g.rollEqual out k limit count triggerFrom s.data clock
  else (rolled, clock)

/-- The loop that spawns what was rolled, with what is left of `triggerFrom`.
`ReSpawn1Object` only acts on the world. -/
def spawnRolled (k : Kind) (poolId : Nat) (spawn1Object : Spawns → Nat → Option Spawns) :
    List (PoolObject F) → Nat → Spawns → Option (Spawns × Nat)
  | [], triggerFrom, s => some (s, triggerFrom)
  | o :: os, triggerFrom, s =>
      if o.guid = triggerFrom then
        let data :=
          if s.data.isActiveObject k o.guid then s.data
          else s.data.activateObject k o.guid poolId
        spawnRolled k poolId spawn1Object os 0 { s with data := data }
      else do
        let s ← spawn1Object { s with data := s.data.activateObject k o.guid poolId } o.guid
        spawnRolled k poolId spawn1Object os triggerFrom s

/-- How many objects are to be spawned. -/
def missing (g : PoolGroup F) (k : Kind) (limit triggerFrom : Nat) (s : ActivePoolData) : Int :=
  let count := int32 (uint32 ((limit : Int) - s.getActiveObjectCount g.poolId))
  if triggerFrom ≠ 0 ∧ s.isActiveObject k triggerFrom then count + 1 else count

/-- Spawn what is missing, or whatever there is if there is no limit. -/
def spawnMissing (g : PoolGroup F) (out : Outside F) (k : Kind)
    (spawn1Object : Spawns → Nat → Option Spawns) (limit triggerFrom : Nat) (s : Spawns) :
    Option (Spawns × Nat) :=
  let count := g.missing k limit triggerFrom s.data
  if 0 < count ∨ limit = 0 then
    let (rolled, clock) := g.rollObjects out k limit count triggerFrom s
    spawnRolled k g.poolId spawn1Object rolled triggerFrom { s with clock := clock }
  else some (s, triggerFrom)

def spawnObject (g : PoolGroup F) (out : Outside F) (k : Kind)
    (spawn1Object : Spawns → Nat → Option Spawns)
    (despawn1Object : ActivePoolData → Nat → Option ActivePoolData) (limit : Nat)
    (limitPercent : F) (triggerFrom : Nat) (s : Spawns) : Option Spawns := do
  let (s, triggerFrom) ←
    g.spawnMissing out k spawn1Object (g.limitOf limit limitPercent) triggerFrom s
  if triggerFrom ≠ 0 then do
    let data ← g.despawnObject k despawn1Object s.data triggerFrom
    some { s with data := data }
  else some s

/-! ### Spawning quests -/

/-- `--limit` on an unsigned number. -/
def decrement (limit : Nat) : Nat := uint32 ((limit : Int) - 1)

def selectRandomContainerElement (out : Outside F) (container : List Nat) (clock : Nat) : Nat :=
  container.getD (out.urand clock 0 (container.length - 1)) 0

/-- The quests that were active when the state was saved. -/
def activateSaved (poolId : Nat) : List Nat → Nat → ActivePoolData → ActivePoolData
  | [], _, s => s
  | quest :: rows, limit, s =>
      let s := s.activateObject .quest quest poolId
      let limit := decrement limit
      if limit = 0 then s else activateSaved poolId rows limit s

/-- The quests of the group that are not active, each once. -/
def inactiveQuests (g : PoolGroup F) (s : ActivePoolData) : List Nat :=
  g.equalChanced.foldl
    (fun newQuests o =>
      if s.isActiveObject .quest o.guid then newQuests else setInsert o.guid newQuests) []

/-- Quests that were active are used again until there are enough. The first number
is how many of them there are. -/
def recycle (out : Outside F) (limit : Nat) :
    Nat → List Nat → List Nat → Nat → List Nat × Nat
  | 0, _, newQuests, clock => (newQuests, clock)
  | n + 1, currentQuests, newQuests, clock =>
      let quest := selectRandomContainerElement out currentQuests clock
      let newQuests := setInsert quest newQuests
      let currentQuests := currentQuests.erase quest
      if newQuests.length < limit ∧ currentQuests ≠ [] then
        recycle out limit n currentQuests newQuests (clock + 1)
      else (newQuests, clock + 1)

/-- `limit` of the quests are activated, or all. The first number is how many there
are. -/
def activateQuests (out : Outside F) (poolId : Nat) : Nat → Nat → List Nat → Spawns → Spawns
  | 0, _, _, s => s
  | n + 1, limit, newQuests, s =>
      let quest := selectRandomContainerElement out newQuests s.clock
      let s : Spawns := ⟨s.data.activateObject .quest quest poolId, s.clock + 1⟩
      let newQuests := newQuests.erase quest
      let limit := decrement limit
      if limit ≠ 0 ∧ newQuests ≠ [] then activateQuests out poolId n limit newQuests s else s

/-- The quests of the group change. -/
def changeQuests (g : PoolGroup F) (out : Outside F) (limit : Nat) (s : Spawns) :
    Option Spawns := do
  let currentQuests := s.data.activeQuests
  let newQuests := g.inactiveQuests s.data
  let data ← g.despawnObject .quest (fun s _ => some s) s.data 0
  let (newQuests, clock) :=
    if newQuests.length < limit ∧ currentQuests ≠ [] then
      recycle out limit currentQuests.length currentQuests newQuests s.clock
    else (newQuests, s.clock)
  some (activateQuests out g.poolId newQuests.length limit newQuests ⟨data, clock⟩)

/-- `SpawnObject` for quests: at the start, if there is a saved state, that. -/
def spawnQuests (g : PoolGroup F) (out : Outside F) (limit : Nat) (limitPercent : F)
    (triggerFrom : Nat) (s : Spawns) : Option Spawns :=
  let limit := g.limitOf limit limitPercent
  if triggerFrom = 0 then
    let rows := out.savedQuests s.clock g.poolId
    if rows ≠ [] then some { s.tick with data := activateSaved g.poolId rows limit s.data }
    else g.changeQuests out limit s.tick
  else g.changeQuests out limit s

end PoolGroup

end Sunstrider.Pools
