import Mathlib

/-!
# Instance ids

The map manager hands out instance ids from a bit vector: bit `i` is set while
id `i` is in use, and `_nextInstanceId` runs ahead of the ids given out, always
at the next one. Saved instances take their ids with them over a restart. The
ids of the table are to be registered while it is read; the function that reads
it returns at its first line.

A `vector<bool>` takes its storage in whole words, and how much it takes when it
grows is up to the library: `alloc` is that choice, from the old capacity and
the size asked for. Reading or writing past the size is undefined and is `none`
here.
-/

namespace Sunstrider.Maps

def pow32 : Nat := 2 ^ 32

structure MapManager where
  instanceIds : List Bool
  capacity : Nat
  nextInstanceId : Nat
deriving DecidableEq, Repr

namespace MapManager

variable (alloc : Nat → Nat → Nat)

/-- `_instanceIds.resize(n)`. -/
def resize (m : MapManager) (n : Nat) : MapManager :=
  { m with
    instanceIds := m.instanceIds.take n ++ List.replicate (n - m.instanceIds.length) false
    capacity := if n ≤ m.capacity then m.capacity else alloc m.capacity n }

/-- `_instanceIds[i] = b`. -/
def setBit (m : MapManager) (i : Nat) (b : Bool) : Option MapManager :=
  if i < m.instanceIds.length then some { m with instanceIds := m.instanceIds.set i b } else none

/-- `MapManager::InitInstanceIds`, on the ids of the instance table. -/
def initInstanceIds (ids : List Nat) : MapManager :=
  let m : MapManager := ⟨[], 0, 1⟩
  let maxId := ids.foldr max 0
  m.resize alloc ((maxId / 32 * 32 + if 0 < maxId % 32 then 32 else 1) % pow32)

/-- `InstanceSaveManager::LoadResetTimes`: it returns before it reads anything. -/
def loadResetTimes (m : MapManager) (_ids : List Nat) : Option MapManager := some m

/-- `InstanceSaveManager::LoadInstances`, once the table is cleaned up. -/
def loadInstances (ids : List Nat) : Option MapManager :=
  (initInstanceIds alloc ids).loadResetTimes ids

/-- The loop of `GenerateInstanceId`: the first of the ids `i`, `i + 1`, … that is
free or past the bits. -/
def findFree (bits : List Bool) (i : Nat) : Nat → Option Nat
  | 0 => none
  | fuel + 1 => if bits[i]? = some true then findFree bits (i + 1) fuel else some i

/-- The allocation at the end of `GenerateInstanceId`. -/
def allocateFor (m : MapManager) (newInstanceId : Nat) : MapManager :=
  if m.instanceIds.length % pow32 ≤ newInstanceId then
    -- size is matched to capacity before a new allocation
    if m.instanceIds.length < m.capacity then m.resize alloc m.capacity
    else
      m.resize alloc
        ((1 + newInstanceId / 32 * 32 + if 0 < newInstanceId % 32 then 32 else 0) % pow32)
  else m

/-- `MapManager::GenerateInstanceId`. -/
def generateInstanceId (m : MapManager) : Option (Nat × MapManager) :=
  let newInstanceId := m.nextInstanceId
  let i := (m.nextInstanceId + 1) % pow32
  let m :=
    { m with nextInstanceId := (findFree m.instanceIds i (0xFFFFFFFF - i)).getD i }
  let m := m.allocateFor alloc newInstanceId
  (m.setBit newInstanceId true).map fun m => (newInstanceId, m)

/-- `MapManager::FreeInstanceId`. -/
def freeInstanceId (m : MapManager) (instanceId : Nat) : Option MapManager :=
  let m :=
    if instanceId < m.nextInstanceId then { m with nextInstanceId := instanceId } else m
  m.setBit instanceId false

end MapManager

/-! ## A server from its start -/

/-- The manager with the ids in use: those of saved instances, and those given
out since the start. -/
structure InstanceWorld where
  mgr : MapManager
  saved : List Nat
  live : List Nat
deriving DecidableEq, Repr

inductive IdEvent
  | generate
  | free (instanceId : Nat)
deriving DecidableEq, Repr

namespace InstanceWorld

/-- An id that is in use. -/
def InUse (w : InstanceWorld) (id : Nat) : Prop := id ∈ w.saved ∨ id ∈ w.live

instance (w : InstanceWorld) (id : Nat) : Decidable (w.InUse id) :=
  inferInstanceAs (Decidable (_ ∨ _))

def step (alloc : Nat → Nat → Nat) (w : InstanceWorld) (e : IdEvent) : Option InstanceWorld :=
  match e with
  | .generate =>
      (w.mgr.generateInstanceId alloc).map fun r => { w with mgr := r.2, live := r.1 :: w.live }
  | .free id =>
      (w.mgr.freeInstanceId id).map fun m =>
        ⟨m, w.saved.filter (· ≠ id), w.live.filter (· ≠ id)⟩

end InstanceWorld

end Sunstrider.Maps
