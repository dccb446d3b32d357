import Sunstrider.Pools.PoolGroup

/-!
# The pool manager

`LoadFromDB` reads the templates of the pools, then the rows that put creatures,
gameobjects, pools and quests into them. Each row that passes its checks goes to the
group of its pool and, if its object is in no pool yet, to a search map from object
to pool. After the pools of pools it walks up the search map from every template
and takes out the link that closes a circle. The templates are in an unordered map,
so the order of that walk is a parameter.

`SpawnPool` and `DespawnPool` go down the groups and call themselves for sub-pools.
Nothing in the code bounds that recursion; here it runs on fuel and answers `none`
when the fuel is gone.
-/

namespace Sunstrider.Pools

/-- Which pool an object was first put in. -/
abbrev SearchMap := AList fun _ : Nat => Nat

/-- `insert` of a `map` keeps what is there. -/
def SearchMap.insertNew (S : SearchMap) (guid pool : Nat) : SearchMap :=
  if (S.lookup guid).isSome then S else S.insert guid pool

structure PoolTemplateData (F : Type) where
  maxLimit : Nat
  maxLimitPercent : F

structure PoolMgr (F : Type) where
  poolTemplate : AList fun _ : Nat => PoolTemplateData F
  groups : Kind → Nat → PoolGroup F
  searchMap : Kind → SearchMap

/-- A row of `pool_creature`, `pool_gameobject` or `pool_pool`. -/
structure PoolRow (F : Type) where
  guid : Nat
  poolId : Nat
  chance : F

/-- The tables. A row of `pool_quest` is a quest and a pool. -/
structure Tables (F : Type) where
  poolTemplate : List (Nat × PoolTemplateData F)
  poolCreature : List (PoolRow F)
  poolGameobject : List (PoolRow F)
  poolPool : List (PoolRow F)
  poolQuest : List (Nat × Nat)

structure QuestInfo where
  isDaily : Bool
  isWeekly : Bool

/-- What the loader looks up: the creatures that exist, the types of the
gameobjects that do, the quests, and whether somebody starts a quest. -/
structure ObjectMgr where
  creatureData : Nat → Bool
  gameobjectType : Nat → Option Nat
  questTemplate : Nat → Option QuestInfo
  started : Nat → Bool

def gameobjectTypeChest : Nat := 3

def gameobjectTypeGoober : Nat := 10

def gameobjectTypeFishinghole : Nat := 25

def lootableType (type : Nat) : Bool :=
  type = gameobjectTypeChest || type = gameobjectTypeGoober || type = gameobjectTypeFishinghole

inductive QuestType
  | daily
  | weekly
deriving DecidableEq, Repr

variable {F : Type}

namespace PoolMgr

def empty : PoolMgr F := ⟨∅, fun _ _ => PoolGroup.new, fun _ => ∅⟩

def hasTemplate (m : PoolMgr F) (pool : Nat) : Bool := (m.poolTemplate.lookup pool).isSome

def setGroup (m : PoolMgr F) (k : Kind) (pool : Nat) (g : PoolGroup F) : PoolMgr F :=
  { m with groups := Function.update m.groups k (Function.update (m.groups k) pool g) }

def setSearchMap (m : PoolMgr F) (k : Kind) (S : SearchMap) : PoolMgr F :=
  { m with searchMap := Function.update m.searchMap k S }

theorem groups_setGroup (m : PoolMgr F) (k k' : Kind) (pool pool' : Nat) (g : PoolGroup F) :
    (m.setGroup k pool g).groups k' pool' =
      if k' = k ∧ pool' = pool then g else m.groups k' pool' := by
  unfold setGroup
  by_cases hk : k' = k
  · subst hk
    by_cases hp : pool' = pool
    · subst hp
      simp
    · simp [hp]
  · simp [hk]

theorem searchMap_setSearchMap (m : PoolMgr F) (k k' : Kind) (S : SearchMap) :
    (m.setSearchMap k S).searchMap k' = if k' = k then S else m.searchMap k' :=
  Function.update_apply ..

@[simp] theorem groups_setSearchMap (m : PoolMgr F) (k : Kind) (S : SearchMap) :
    (m.setSearchMap k S).groups = m.groups := rfl

variable [Chance F]

/-- `mPoolTemplate[pool_id]`. -/
def template (m : PoolMgr F) (pool : Nat) : PoolTemplateData F :=
  (m.poolTemplate.lookup pool).getD ⟨0, 0⟩

/-! ## Loading -/

def properChance (chance : F) : Bool := !(chance < 0 ∨ ((100 : Nat) : F) < chance)

def loadPoolTemplate (m : PoolMgr F) (pool : Nat) (data : PoolTemplateData F) : PoolMgr F :=
  { m with poolTemplate := m.poolTemplate.insert pool data }

def loadEntry (m : PoolMgr F) (k : Kind) (pool guid : Nat) (chance : F) : PoolMgr F :=
  let g := { m.groups k pool with poolId := pool }
  (m.setGroup k pool (g.addEntry (PoolObject.new guid chance) (m.template pool).maxLimit)).setSearchMap k
    ((m.searchMap k).insertNew guid pool)

/-- The rows of one table, less those that `accept` skips. -/
def loadRows (k : Kind) (accept : PoolMgr F → PoolRow F → Bool) (rows : List (PoolRow F))
    (m : PoolMgr F) : PoolMgr F :=
  rows.foldl
    (fun m r => if accept m r then m.loadEntry k r.poolId r.guid r.chance else m) m

def acceptCreature (o : ObjectMgr) (m : PoolMgr F) (r : PoolRow F) : Bool :=
  o.creatureData r.guid && m.hasTemplate r.poolId && properChance r.chance

def acceptGameobject (o : ObjectMgr) (m : PoolMgr F) (r : PoolRow F) : Bool :=
  (o.gameobjectType r.guid).any lootableType && m.hasTemplate r.poolId && properChance r.chance

def acceptPool (m : PoolMgr F) (r : PoolRow F) : Bool :=
  m.hasTemplate r.poolId && m.hasTemplate r.guid && decide (r.poolId ≠ r.guid) &&
    properChance r.chance

/-- The walk up the search map from one pool: the link, child and mother, that leads
back to a pool checked before. -/
def findCircle (S : SearchMap) : Nat → List Nat → Nat → Option (Nat × Nat)
  | 0, _, _ => none
  | fuel + 1, checkedPools, pool =>
      match S.lookup pool with
      | none => none
      | some mother =>
          let checkedPools := pool :: checkedPools
          if mother ∈ checkedPools then some (pool, mother)
          else findCircle S fuel checkedPools mother

/-- The link is taken out of the group of the mother and out of the search map. -/
def removeLink (m : PoolMgr F) (child mother : Nat) : PoolMgr F :=
  (m.setGroup .pool mother ((m.groups .pool mother).removeOneRelation child)).setSearchMap .pool
    ((m.searchMap .pool).erase child)

/-- The check of one template. -/
def checkCircle (m : PoolMgr F) (pool : Nat) : PoolMgr F :=
  let S := m.searchMap .pool
  match findCircle S (S.keys.length + 1) [] pool with
  | none => m
  | some (child, mother) => m.removeLink child mother

/-- A quest of `pool_quest`, with the type each pool took from its first. -/
def loadQuest (o : ObjectMgr) (acc : PoolMgr F × (Nat → Option QuestType)) (row : Nat × Nat) :
    PoolMgr F × (Nat → Option QuestType) :=
  let (entry, pool) := row
  let (m, poolTypeMap) := acc
  match o.questTemplate entry with
  | none => acc
  | some quest =>
      if ¬ m.hasTemplate pool then acc
      else if ¬ (quest.isDaily || quest.isWeekly) then acc
      else
        let currType := if quest.isDaily then QuestType.daily else .weekly
        let poolTypeMap :=
          if (poolTypeMap pool).isNone then Function.update poolTypeMap pool (some currType)
          else poolTypeMap
        if poolTypeMap pool ≠ some currType then (m, poolTypeMap)
        else if ¬ o.started entry then (m, poolTypeMap)
        else (m.loadEntry .quest pool entry 0, poolTypeMap)

def loadTemplates (rows : List (Nat × PoolTemplateData F)) (m : PoolMgr F) : PoolMgr F :=
  rows.foldl (fun m r => m.loadPoolTemplate r.1 r.2) m

/-- The pools of pools and the check for circles, which only runs if there are rows. -/
def loadPools (rows : List (PoolRow F)) (order : List Nat) (m : PoolMgr F) : PoolMgr F :=
  if rows.isEmpty then m else order.foldl checkCircle (loadRows .pool acceptPool rows m)

/-- `LoadFromDB` up to the point where the pools are spawned. -/
def loadFromDB (o : ObjectMgr) (t : Tables F) (order : List Nat) : PoolMgr F :=
  if t.poolTemplate.isEmpty then empty
  else
    let m := loadTemplates t.poolTemplate empty
    let m := loadRows .creature (acceptCreature o) t.poolCreature m
    let m := loadRows .gameobject (acceptGameobject o) t.poolGameobject m
    let m := loadPools t.poolPool order m
    (t.poolQuest.foldl (loadQuest o) (m, fun _ => none)).1

/-! ## Spawning and removing -/

/-- One block of `DespawnPool`. -/
def despawnGroup (m : PoolMgr F) (k : Kind)
    (despawn1Object : ActivePoolData → Nat → Option ActivePoolData) (s : ActivePoolData)
    (pool : Nat) : Option ActivePoolData :=
  if (m.groups k pool).isEmpty then some s
  else (m.groups k pool).despawnObject k despawn1Object s 0

def despawnPool (m : PoolMgr F) : Nat → ActivePoolData → Nat → Option ActivePoolData
  | 0, _, _ => none
  | fuel + 1, s, pool => do
      let s ← m.despawnGroup .creature (fun s _ => some s) s pool
      let s ← m.despawnGroup .gameobject (fun s _ => some s) s pool
      let s ← m.despawnGroup .pool (fun s child => m.despawnPool fuel s child) s pool
      m.despawnGroup .quest (fun s _ => some s) s pool

/-- `SpawnPool<T>`. What spawns and removes a sub-pool comes as an argument. -/
def spawnGroup (m : PoolMgr F) (out : Outside F) (spawnPool : Spawns → Nat → Option Spawns)
    (despawnPool : ActivePoolData → Nat → Option ActivePoolData) (k : Kind)
    (s : Spawns) (pool triggerFrom : Nat) : Option Spawns :=
  let g := m.groups k pool
  let data := m.template pool
  if g.isEmpty then some s
  else
    match k with
    | .quest => g.spawnQuests out data.maxLimit data.maxLimitPercent triggerFrom s
    | .pool =>
        g.spawnObject out .pool spawnPool despawnPool data.maxLimit data.maxLimitPercent
          triggerFrom s
    | k =>
        g.spawnObject out k (fun s _ => some s) (fun s _ => some s) data.maxLimit
          data.maxLimitPercent triggerFrom s

def spawnPool (m : PoolMgr F) (out : Outside F) : Nat → Spawns → Nat → Option Spawns
  | 0, _, _ => none
  | fuel + 1, s, pool => do
      let sub := m.spawnGroup out (fun s child => m.spawnPool out fuel s child) (m.despawnPool fuel)
      let s ← sub .pool s pool 0
      let s ← sub .gameobject s pool 0
      let s ← sub .creature s pool 0
      sub .quest s pool 0

end PoolMgr

end Sunstrider.Pools
