import Mathlib

/-!
# Movement generators of a unit

A unit has a default movement generator and a set of others, ordered by mode and then by
priority; the first of the set moves the unit. The set is a multiset of pointers whose
`find` and `erase` go by the order: they mean every generator that is neither before nor
behind the one they are given. While a generator updates, calls are delayed; afterwards they
are taken one by one.

A generator is known by its place in `objects`, which keeps what it was when it was made:
reading one that was deleted finds what was there. What the master has done to generators is
noted in `events`, and for one that `Remove` took out, which one was meant. `none` in the
place of the default generator is the idle one, which all units share. It is there from the
start, as `Initialize` leaves it. What generators themselves do is left out, but for the
calls they make.
-/

namespace Sunstrider.Movement

inductive MovementGeneratorType
  | idle
  | random
  | waypoint
  | animalRandom
  | confused
  | chase
  | home
  | flight
  | point
  | fleeing
  | distract
  | assistance
  | assistanceDistract
  | timedFleeing
  | follow
  | rotate
  | effect
  | formation
deriving DecidableEq, Repr

/-- The unit states that generators are made with. -/
inductive BaseUnitState
  | none
  | roaming
  | chase
  | fleeing
  | inFlight
  | follow
  | confused
  | distracted
  | rotating
deriving DecidableEq, Repr

def BaseUnitState.bits : BaseUnitState → BitVec 32
  | .none => 0
  | .roaming => 0x00000010
  | .chase => 0x00000020
  | .fleeing => 0x00000080
  | .inFlight => 0x00000100
  | .follow => 0x00000200
  | .confused => 0x00000800
  | .distracted => 0x00001000
  | .rotating => 0x00200000

inductive MovementSlot
  | default
  | active
deriving DecidableEq, Repr

structure MovementGenerator where
  id : Nat
  mode : UInt8
  priority : UInt8
  baseUnitState : BaseUnitState
  type : MovementGeneratorType
deriving DecidableEq, Repr

namespace MovementGenerator

/-- `MovementGeneratorComparator`. -/
def before (a b : MovementGenerator) : Bool :=
  if a.mode > b.mode then true
  else if a.mode = b.mode then decide (a.priority > b.priority)
  else false

/-- What a multiset takes for the same. -/
def equivalent (a b : MovementGenerator) : Bool := !a.before b && !b.before a

/-- The multiset's `emplace`: behind everything it is not before. -/
def emplace (g : MovementGenerator) (gs : List MovementGenerator) : List MovementGenerator :=
  gs.takeWhile (fun a => !g.before a) ++ g :: gs.dropWhile fun a => !g.before a

/-- The multiset's `find`. -/
def find (g : MovementGenerator) (gs : List MovementGenerator) : Option MovementGenerator :=
  gs.find? g.equivalent

/-- The multiset's `erase` of a key. -/
def eraseKey (g : MovementGenerator) (gs : List MovementGenerator) : List MovementGenerator :=
  gs.filter fun a => !g.equivalent a

end MovementGenerator

/-- What was done to generators. -/
inductive Event
  | emplace (id : Nat)
  | finalize (id : Nat) (active movementInform : Bool)
  | delete (id : Nat)
  | deactivate (id : Nat)
  | remove (asked removed : Nat)
deriving DecidableEq, Repr

/-- A generator as it is made. -/
structure GeneratorSpec where
  mode : UInt8
  priority : UInt8
  baseUnitState : BaseUnitState
  type : MovementGeneratorType
deriving DecidableEq, Repr

/-- A call of the motion master. -/
inductive Call
  | init (default : Option GeneratorSpec)
  | add (movement : GeneratorSpec) (slot : MovementSlot)
  | moveIdle
  | remove (movement : Nat) (slot : MovementSlot)
  | removeType (type : MovementGeneratorType) (slot : MovementSlot)
  | clear
  | clearSlot (slot : MovementSlot)
  | clearMode (mode : UInt8)
  | clearPriority (priority : UInt8)
deriving DecidableEq, Repr

structure MotionMaster where
  defaultGenerator : Option MovementGenerator
  generators : List MovementGenerator
  baseUnitStatesMap : List (BaseUnitState × Nat)
  delayedActions : List Call
  /-- `MOTIONMASTER_FLAG_UPDATE`. -/
  flagUpdate : Bool
  /-- The owner's unit state, as far as it comes from here. -/
  unitState : BitVec 32
  objects : List MovementGenerator
  events : List Event
deriving DecidableEq, Repr

namespace MotionMaster

def new : MotionMaster where
  defaultGenerator := none
  generators := []
  baseUnitStatesMap := []
  delayedActions := []
  flagUpdate := false
  unitState := 0
  objects := []
  events := []

def note (e : Event) (s : MotionMaster) : MotionMaster := { s with events := s.events ++ [e] }

/-! ## Unit states -/

def addBaseUnitState (movement : MovementGenerator) (s : MotionMaster) : MotionMaster :=
  if movement.baseUnitState = .none then s
  else
    { s with
      baseUnitStatesMap := (movement.baseUnitState, movement.id) :: s.baseUnitStatesMap
      unitState := s.unitState ||| movement.baseUnitState.bits }

def clearBaseUnitState (movement : MovementGenerator) (s : MotionMaster) : MotionMaster :=
  if movement.baseUnitState = .none then s
  else
    let left := s.baseUnitStatesMap.filter (· ≠ (movement.baseUnitState, movement.id))
    { s with
      baseUnitStatesMap := left
      unitState :=
        if left.all (·.1 ≠ movement.baseUnitState) then
          s.unitState &&& ~~~movement.baseUnitState.bits
        else s.unitState }

def clearBaseUnitStates (s : MotionMaster) : MotionMaster :=
  { s with
    unitState := s.unitState &&& ~~~s.baseUnitStatesMap.foldl (fun bits e => bits ||| e.1.bits) 0
    baseUnitStatesMap := [] }

/-! ## The set -/

def erase (movement : MovementGenerator) (s : MotionMaster) : MotionMaster :=
  { s with generators := movement.eraseKey s.generators }

def delete (movement : MovementGenerator) (active movementInform : Bool) (s : MotionMaster) :
    MotionMaster :=
  ((s.note (.finalize movement.id active movementInform)).clearBaseUnitState movement).note
    (.delete movement.id)

def pop (active movementInform : Bool) (s : MotionMaster) : MotionMaster :=
  match s.generators with
  | [] => s
  | pointer :: _ => (s.erase pointer).delete pointer active movementInform

theorem equivalent_self (g : MovementGenerator) : g.equivalent g = true := by
  unfold MovementGenerator.equivalent MovementGenerator.before
  rw [if_neg (UInt8.lt_irrefl _), if_pos rfl, decide_eq_false (UInt8.lt_irrefl _)]
  rfl

theorem generators_delete (movement : MovementGenerator) (active movementInform : Bool)
    (s : MotionMaster) : (s.delete movement active movementInform).generators = s.generators := by
  unfold delete clearBaseUnitState
  split <;> rfl

theorem length_pop {s : MotionMaster} (h : s.generators ≠ []) (active movementInform : Bool) :
    (s.pop active movementInform).generators.length < s.generators.length := by
  unfold pop
  cases hg : s.generators with
  | nil => exact absurd hg h
  | cons pointer rest =>
      dsimp only
      rw [generators_delete]
      show (pointer.eraseKey s.generators).length < _
      unfold MovementGenerator.eraseKey
      rw [hg, List.filter_cons_of_neg (by rw [equivalent_self]; decide)]
      exact Nat.lt_succ_of_le (List.length_filter_le ..)

/-- The loop in `DirectClear`. -/
def popAll (s : MotionMaster) : MotionMaster :=
  if _h : s.generators = [] then s else (s.pop false false).popAll
termination_by s.generators.length
decreasing_by exact length_pop _h ..

def directClear (s : MotionMaster) : MotionMaster :=
  let s := if s.generators = [] then s else s.pop true false
  s.popAll.clearBaseUnitStates

/-- `DirectClear` with a filter: erased one by one, where the iterator is. -/
def directClearFilter (filter : MovementGenerator → Bool) (s : MotionMaster) : MotionMaster :=
  let top := s.generators.head?
  (s.generators.filter filter).foldl (fun s movement =>
    { s with generators := s.generators.erase movement }.delete movement
      (decide (some movement = top)) false) s

/-! ## The default generator -/

/-- `Finalize`, and the deleter when another takes the place; it spares the idle one. -/
def replaceDefault (movement : Option MovementGenerator) (active : Bool) (s : MotionMaster) :
    MotionMaster :=
  let s :=
    match s.defaultGenerator with
    | none => s
    | some old => (s.note (.finalize old.id active false)).note (.delete old.id)
  { s with defaultGenerator := movement }

/-- `DirectClearDefault`, with `DeleteDefault`. -/
def directClearDefault (s : MotionMaster) : MotionMaster :=
  s.replaceDefault none s.generators.isEmpty

/-! ## Calls -/

def deactivate (movement : Option MovementGenerator) (s : MotionMaster) : MotionMaster :=
  match movement with
  | none => s
  | some g => s.note (.deactivate g.id)

/-- A new generator. -/
def create (spec : GeneratorSpec) (s : MotionMaster) : MovementGenerator × MotionMaster :=
  let g := ⟨s.objects.length, spec.mode, spec.priority, spec.baseUnitState, spec.type⟩
  (g, { s with objects := s.objects ++ [g] })

/-- Room is made for a generator: `DirectAdd` up to the `emplace`. -/
def makeRoom (movement : MovementGenerator) (s : MotionMaster) : MotionMaster :=
  match s.generators with
  | [] => s.deactivate s.defaultGenerator
  | top :: _ =>
      if movement.priority ≥ top.priority then
        if movement.priority = top.priority then (s.erase top).delete top true false
        else s.deactivate (some top)
      else
        match s.generators.find? fun a => a.priority = movement.priority with
        | none => s
        | some pointer => (s.erase pointer).delete pointer false false

def directAdd (movement : MovementGenerator) (slot : MovementSlot) (s : MotionMaster) :
    MotionMaster :=
  match slot with
  | .default => s.replaceDefault (some movement) s.generators.isEmpty
  | .active =>
      let s := s.makeRoom movement
      ({ s with generators := movement.emplace s.generators }.note
        (.emplace movement.id)).addBaseUnitState movement

def directInitialize (default : Option GeneratorSpec) (s : MotionMaster) : MotionMaster :=
  let s := s.directClearDefault.directClear
  match default with
  | none => s.replaceDefault none s.generators.isEmpty
  | some spec =>
      let (g, s) := s.create spec
      s.directAdd g .default

/-- `Remove` of a generator in the set: what `find` finds. -/
def removeFound (asked : Nat) (movement : MovementGenerator) (s : MotionMaster) : MotionMaster :=
  match movement.find s.generators with
  | none => s
  | some pointer =>
      let top := decide (s.generators.head? = some pointer)
      ((s.erase pointer).delete pointer top false).note (.remove asked pointer.id)

def directRemove (movement : Nat) (slot : MovementSlot) (s : MotionMaster) : MotionMaster :=
  match slot with
  | .default =>
      if s.defaultGenerator.any (·.id = movement) then s.directClearDefault else s
  | .active =>
      match s.objects[movement]? with
      | none => s
      | some g => s.removeFound movement g

def defaultType (s : MotionMaster) : MovementGeneratorType :=
  match s.defaultGenerator with
  | none => .idle
  | some g => g.type

def directRemoveType (type : MovementGeneratorType) (slot : MovementSlot) (s : MotionMaster) :
    MotionMaster :=
  match slot with
  | .default => if s.defaultType = type then s.directClearDefault else s
  | .active =>
      match s.generators.find? fun a => a.type = type with
      | none => s
      | some pointer =>
          let top := decide (s.generators.head? = some pointer)
          (s.erase pointer).delete pointer top false

/-- A call that is not delayed. -/
def exec (s : MotionMaster) : Call → MotionMaster
  | .init default => s.directInitialize default
  | .add spec slot =>
      let (movement, s) := s.create spec
      s.directAdd movement slot
  | .moveIdle => s.replaceDefault none s.generators.isEmpty
  | .remove movement slot => s.directRemove movement slot
  | .removeType type slot => s.directRemoveType type slot
  | .clear => s.directClear
  | .clearSlot .default => s.directClearDefault
  | .clearSlot .active => s.directClear
  | .clearMode mode => s.directClearFilter fun a => a.mode = mode
  | .clearPriority priority => s.directClearFilter fun a => a.priority = priority

def call (c : Call) (s : MotionMaster) : MotionMaster :=
  if s.flagUpdate then { s with delayedActions := s.delayedActions ++ [c] } else s.exec c

/-! ## `Update` -/

/-- The top's `Update` has returned: whether it goes on, then the flag. -/
def endUpdate (finished : Bool) (s : MotionMaster) : MotionMaster :=
  let s :=
    if finished then
      if s.generators.isEmpty then s.call .moveIdle else s.pop true true
    else s
  { s with flagUpdate := false }

/-- One turn of the loop that resolves delayed actions. -/
def resolve (s : MotionMaster) : MotionMaster :=
  match s.delayedActions with
  | [] => s
  | action :: rest => { s with delayedActions := rest }.call action

/-- Calls from anywhere, and the parts of `Update`, so that calls come in between. -/
inductive Op
  | call (c : Call)
  | beginUpdate
  | endUpdate (finished : Bool)
  | resolve
deriving DecidableEq, Repr

def step (s : MotionMaster) : Op → MotionMaster
  | .call c => s.call c
  | .beginUpdate => { s with flagUpdate := true }
  | .endUpdate finished => if s.flagUpdate then s.endUpdate finished else s
  | .resolve => if s.flagUpdate then s else s.resolve

end MotionMaster

end Sunstrider.Movement
