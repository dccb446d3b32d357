import Sunstrider.Lib.TimedQueue

/-!
# The event map

`EventMap`, with which scripts time what their creatures do: a `multimap` from times to
words, and a clock. A word has the id of an event in its lower half and above it a bit for
the group, if there is one, and a bit for the phase. Times in the map are absolute, those
of the arguments relative to the clock; both are `uint32`, and the sums wrap around.

The versions that draw a time between two are calls of the version with that time.
-/

namespace Sunstrider.Utilities

open Lib

/-- A pair of the `EventStore`. -/
abbrev EventEntry := UInt32 × UInt32

def EventEntry.key (e : EventEntry) : Nat := e.1.toNat

structure EventMap where
  time : UInt32
  phase : UInt8
  lastEvent : UInt32
  eventMap : List EventEntry
deriving DecidableEq, Repr

namespace EventMap

def new : EventMap := ⟨0, 0, 0, []⟩

def insert (m : EventMap) (e : EventEntry) : EventMap :=
  { m with eventMap := insertTimed EventEntry.key e m.eventMap }

def update (m : EventMap) (time : UInt32) : EventMap := { m with time := m.time + time }

def setPhase (m : EventMap) (phase : UInt8) : EventMap :=
  if phase = 0 then { m with phase := 0 }
  else if phase ≤ 8 then { m with phase := 1 <<< (phase - 1) }
  else m

/-- The event id with the bits of a group and a phase. -/
def withBits (eventId group : UInt32) (phase : UInt8) : UInt32 :=
  let eventId :=
    if group ≠ 0 ∧ group ≤ 8 then eventId ||| (1 <<< (group + 15)) else eventId
  if phase ≠ 0 ∧ phase ≤ 8 then eventId ||| (1 <<< (phase.toUInt32 + 23)) else eventId

def scheduleEvent (m : EventMap) (eventId time group : UInt32) (phase : UInt8) : EventMap :=
  m.insert (m.time + time, withBits eventId group phase)

/-- Whether a word has this event id. -/
def hasId (eventId word : UInt32) : Bool := eventId == word &&& 0x0000FFFF

/-- Whether a word has the bit of this group. -/
def inGroup (group word : UInt32) : Bool := word &&& (1 <<< (group + 15)) != 0

def cancelEvent (m : EventMap) (eventId : UInt32) : EventMap :=
  { m with eventMap := m.eventMap.filter fun e => ! hasId eventId e.2 }

def cancelEventGroup (m : EventMap) (group : UInt32) : EventMap :=
  if group = 0 ∨ 8 < group then m
  else { m with eventMap := m.eventMap.filter fun e => ! inGroup group e.2 }

def rescheduleEvent (m : EventMap) (eventId time group : UInt32) (phase : UInt8) : EventMap :=
  (m.cancelEvent eventId).scheduleEvent eventId time group phase

/-- `Repeat`. -/
def repeatEvent (m : EventMap) (time : UInt32) : EventMap := m.insert (m.time + time, m.lastEvent)

/-- Whether a word is of another phase than the map. -/
def ofOtherPhase (phase : UInt8) (word : UInt32) : Bool :=
  phase != 0 && word &&& 0xFF000000 != 0 && (word >>> 24) &&& phase.toUInt32 == 0

/-- The loop of `ExecuteEvent`: the word it ends with, and what is left of the map. -/
def executeLoop (time : UInt32) (phase : UInt8) :
    List EventEntry → Option UInt32 × List EventEntry
  | [] => (none, [])
  | e :: l =>
      if time < e.1 then (none, e :: l)
      else if ofOtherPhase phase e.2 then executeLoop time phase l
      else (some e.2, l)

def executeEvent (m : EventMap) : UInt32 × EventMap :=
  match executeLoop m.time m.phase m.eventMap with
  | (none, l) => (0, { m with eventMap := l })
  | (some word, l) => (word &&& 0x0000FFFF, { m with eventMap := l, lastEvent := word })

/-- `DelayEvents` without a group. -/
def delayEvents (m : EventMap) (delay : UInt32) : EventMap :=
  { m with time := if delay < m.time then m.time - delay else 0 }

/-- The loop of `DelayEvents` with a group: what stays in the map, and `delayed`. -/
def delayLoop (delay group : UInt32) :
    List EventEntry → List EventEntry → List EventEntry × List EventEntry
  | [], delayed => ([], delayed)
  | e :: l, delayed =>
      if inGroup group e.2 then
        delayLoop delay group l (insertTimed EventEntry.key (e.1 + delay, e.2) delayed)
      else
        let (kept, delayed) := delayLoop delay group l delayed
        (e :: kept, delayed)

/-- `DelayEvents` with a group. -/
def delayGroup (m : EventMap) (delay group : UInt32) : EventMap :=
  if group = 0 ∨ 8 < group then m
  else
    let (kept, delayed) := delayLoop delay group m.eventMap []
    { m with eventMap := delayed.foldl (fun l e => insertTimed EventEntry.key e l) kept }

/-- The loop of `SetMinimalDelay` from an entry on. What it inserts goes behind the entry it
is at, whose time is less, and the loop comes to it later. -/
def minimalDelayLoop (eventId delay : UInt32) : List EventEntry → List EventEntry
  | [] => []
  | e :: l =>
      if hasId eventId e.2 ∧ e.1 < delay then
        minimalDelayLoop eventId delay (insertTimed EventEntry.key (delay, e.2) l)
      else e :: minimalDelayLoop eventId delay l
termination_by l => l.length + l.countP fun e => decide (e.1 < delay)
decreasing_by
  · rename_i h
    rw [(insertTimed_perm EventEntry.key (delay, e.2) l).length_eq,
      (insertTimed_perm EventEntry.key (delay, e.2) l).countP_eq]
    simp only [List.length_cons, List.countP_cons, h.2, UInt32.lt_irrefl, decide_true,
      decide_false, if_true, Bool.false_eq_true, if_false]
    omega
  · simp only [List.length_cons, List.countP_cons]
    omega

def setMinimalDelay (m : EventMap) (eventId delay : UInt32) : EventMap :=
  { m with eventMap := minimalDelayLoop eventId delay m.eventMap }

/-- A call of a script. -/
inductive Op where
  | setPhase (phase : UInt8)
  | scheduleEvent (eventId time group : UInt32) (phase : UInt8)
  | rescheduleEvent (eventId time group : UInt32) (phase : UInt8)
  | repeatEvent (time : UInt32)
  | delayEvents (delay : UInt32)
  | delayGroup (delay group : UInt32)
  | setMinimalDelay (eventId delay : UInt32)
  | cancelEvent (eventId : UInt32)
  | cancelEventGroup (group : UInt32)
  | update (time : UInt32)
  | executeEvent
deriving DecidableEq, Repr

def step (m : EventMap) : Op → EventMap
  | .setPhase phase => m.setPhase phase
  | .scheduleEvent eventId time group phase => m.scheduleEvent eventId time group phase
  | .rescheduleEvent eventId time group phase => m.rescheduleEvent eventId time group phase
  | .repeatEvent time => m.repeatEvent time
  | .delayEvents delay => m.delayEvents delay
  | .delayGroup delay group => m.delayGroup delay group
  | .setMinimalDelay eventId delay => m.setMinimalDelay eventId delay
  | .cancelEvent eventId => m.cancelEvent eventId
  | .cancelEventGroup group => m.cancelEventGroup group
  | .update time => m.update time
  | .executeEvent => m.executeEvent.2

end EventMap

end Sunstrider.Utilities
