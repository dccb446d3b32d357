import Sunstrider.Lib.TimedQueue

/-!
# The event processor

`BasicEvent` and `EventProcessor`. Events are pointers whose ownership passes
to the processor with `AddEvent`: it executes them when their time has come,
aborts them when told to, and deletes them. They are numbered here in the
order of their creation, the heap maps the number of a living event to its
members, and a look at a number the heap does not have is a use after delete.

The three virtual functions of an event are code of the game. What they do to
the processor is handed in: `Execute` makes calls of its own, may add its event
again, and then answers `false`; `Abort` schedules the abortion of other
events at most; `IsDeletable` answers as it likes, another time differently.
A call names an event that is there; on any other it is not made.

A run that meets an assertion or a deleted event stops with the `Fault`, in
the state it had come to. `log` is what an onlooker sees, the newest first.
-/

namespace Sunstrider.Utilities

open Lib

abbrev EventId := Nat

/-- `BasicEvent::AbortState`. -/
inductive AbortState
  | running
  | abortScheduled
  | aborted
deriving DecidableEq, Repr

structure BasicEvent where
  abortState : AbortState
  addTime : Nat
  execTime : Nat
deriving DecidableEq, Repr

/-- A pair of `m_events`. -/
structure Entry where
  time : Nat
  event : EventId
deriving DecidableEq, Repr

/-- What an onlooker sees of the events. An execution is logged with the time
the event was due and the times the events still waiting are due. -/
inductive Occurrence
  | inserted (event : EventId)
  | executed (event : EventId) (due : Nat) (waiting : List Nat)
  | abortScheduled (event : EventId)
  | aborted (event : EventId)
  | deleted (event : EventId)
deriving DecidableEq, Repr

structure EventProcessor where
  time : Nat
  events : List Entry
  aborting : Bool
  heap : EventId → Option BasicEvent
  next : EventId
  log : List Occurrence

/-- The assertions of `ScheduleAbort` and `SetAborted`, and the use of an
event that was deleted. -/
inductive Fault
  | scheduledTwice
  | abortedTwice
  | useAfterDelete
deriving DecidableEq, Repr

/-- A state, or a fault and the state it was met in. -/
abbrev Outcome := Except (Fault × EventProcessor) EventProcessor

/-- Calls the code of an event makes to the processor and to other events. -/
inductive Action
  | addEvent (time : Nat)
  | modifyEventTime (event : EventId) (newTime : Nat)
  | scheduleAbort (event : EventId)
  | killAllEvents (force : Bool) (deletable : EventId → Bool)
      (abortCalls : EventId → List EventId)

/-- One `Execute`: its calls, and if it adds its event again for some time,
the calls after that. It answers `false` if and only if it does. -/
structure Execution where
  calls : List Action
  again : Option (Nat × Bool × List Action)

/-- The answers one pass of the loop of `Update` gets. -/
structure Turn where
  execution : Execution
  abortCalls : List EventId
  deletable : Bool

namespace EventProcessor

def new : EventProcessor := ⟨0, [], false, fun _ => none, 0, []⟩

def note (s : EventProcessor) (o : Occurrence) : EventProcessor := { s with log := o :: s.log }

def fail (s : EventProcessor) (f : Fault) : Outcome := .error (f, s)

def setEvent (s : EventProcessor) (event : EventId) (e : Option BasicEvent) : EventProcessor :=
  { s with heap := Function.update s.heap event e }

/-- `CalculateTime`. -/
def calculateTime (s : EventProcessor) (offset : Nat) : Nat := (s.time + offset) % 2 ^ 64

/-- `BasicEvent::ScheduleAbort`. -/
def scheduleAbort (s : EventProcessor) (event : EventId) : Outcome :=
  match s.heap event with
  | none => .ok s
  | some e =>
      if e.abortState = .running then
        .ok ((s.setEvent event (some { e with abortState := .abortScheduled })).note
          (.abortScheduled event))
      else s.fail .scheduledTwice

/-- `BasicEvent::SetAborted`. -/
def setAborted (s : EventProcessor) (event : EventId) : Outcome :=
  match s.heap event with
  | none => s.fail .useAfterDelete
  | some e =>
      if e.abortState = .aborted then s.fail .abortedTwice
      else .ok (s.setEvent event (some { e with abortState := .aborted }))

def scheduleAborts (s : EventProcessor) : List EventId → Outcome
  | [] => .ok s
  | event :: rest => do
      let s ← s.scheduleAbort event
      s.scheduleAborts rest

/-- A call of the event's `Abort`. -/
def abort (s : EventProcessor) (event : EventId) (abortCalls : List EventId) : Outcome :=
  (s.note (.aborted event)).scheduleAborts abortCalls

/-- `delete event`. -/
def delete (s : EventProcessor) (event : EventId) : Outcome :=
  match s.heap event with
  | none => s.fail .useAfterDelete
  | some _ => .ok ((s.setEvent event none).note (.deleted event))

/-- `AddEvent`. -/
def addEvent (s : EventProcessor) (event : EventId) (time : Nat) (setAddtime : Bool) : Outcome :=
  match s.heap event with
  | none => s.fail .useAfterDelete
  | some e =>
      let e := if setAddtime then { e with addTime := s.time } else e
      let s := s.setEvent event (some { e with execTime := time })
      .ok ({ s with events := insertTimed Entry.time ⟨time, event⟩ s.events }.note
        (.inserted event))

/-- `new` and `AddEvent`. -/
def addNewEvent (s : EventProcessor) (time : Nat) : Outcome :=
  let event := s.next
  let s := { s.setEvent event (some ⟨.running, 0, 0⟩) with next := event + 1 }
  s.addEvent event time true

/-- `ModifyEventTime`. -/
def modifyEventTime (s : EventProcessor) (event : EventId) (newTime : Nat) : Outcome :=
  match s.events.find? (fun entry => entry.event == event) with
  | none => .ok s
  | some entry =>
      match s.heap event with
      | none => s.fail .useAfterDelete
      | some e =>
          let s := s.setEvent event (some { e with execTime := newTime })
          .ok { s with events := insertTimed Entry.time ⟨newTime, event⟩ (s.events.erase entry) }

/-- `KillAllEvents` aborts the events which were not aborted already. -/
def abortUnlessAborted (s : EventProcessor) (event : EventId) (e : BasicEvent)
    (abortCalls : List EventId) : Outcome :=
  if e.abortState ≠ .aborted then do
    let s ← s.setAborted event
    s.abort event abortCalls
  else .ok s

/-- The loop of `KillAllEvents`. Nothing looks at `m_events` while it runs, so
its `erase` is done here at the end: the loop answers with what it skipped. -/
def killLoop (force : Bool) (deletable : EventId → Bool) (abortCalls : EventId → List EventId)
    (s : EventProcessor) : List Entry → Except (Fault × EventProcessor) (EventProcessor × List Entry)
  | [] => .ok (s, [])
  | entry :: rest =>
      match s.heap entry.event with
      | none => .error (.useAfterDelete, s)
      | some e => do
          let s ← s.abortUnlessAborted entry.event e (abortCalls entry.event)
          if !force && !deletable entry.event then do
            let (s, kept) ← killLoop force deletable abortCalls s rest
            .ok (s, entry :: kept)
          else do
            let s ← s.delete entry.event
            killLoop force deletable abortCalls s rest

/-- `KillAllEvents`. The flag `m_aborting` is set, and read nowhere. -/
def killAllEvents (s : EventProcessor) (force : Bool) (deletable : EventId → Bool)
    (abortCalls : EventId → List EventId) : Outcome := do
  let (s, kept) ← killLoop force deletable abortCalls { s with aborting := true } s.events
  .ok { s with events := kept }

def perform (s : EventProcessor) : Action → Outcome
  | .addEvent time => s.addNewEvent time
  | .modifyEventTime event newTime => s.modifyEventTime event newTime
  | .scheduleAbort event => s.scheduleAbort event
  | .killAllEvents force deletable abortCalls => s.killAllEvents force deletable abortCalls

def performAll (s : EventProcessor) : List Action → Outcome
  | [] => .ok s
  | action :: rest => do
      let s ← s.perform action
      s.performAll rest

/-- `event->Execute`, and the deletion of an event that is not added again. -/
def execute (s : EventProcessor) (event : EventId) (execution : Execution) : Outcome := do
  let s ← s.performAll execution.calls
  match execution.again with
  | none => s.delete event
  | some (time, setAddtime, after) => do
      let s ← s.addEvent event time setAddtime
      s.performAll after

/-- `Update` aborts the events whose abortion is scheduled. -/
def abortIfScheduled (s : EventProcessor) (event : EventId) (e : BasicEvent)
    (abortCalls : List EventId) : Outcome :=
  if e.abortState = .abortScheduled then do
    let s ← s.abort event abortCalls
    s.setAborted event
  else .ok s

/-- One pass of the loop of `Update`, for the entry it took from the queue. -/
def runEntry (s : EventProcessor) (entry : Entry) (turn : Turn) : Outcome :=
  match s.heap entry.event with
  | none => s.fail .useAfterDelete
  | some e =>
      if e.abortState = .running then
        (s.note (.executed entry.event entry.time (s.events.map Entry.time))).execute
          entry.event turn.execution
      else do
        let s ← s.abortIfScheduled entry.event e turn.abortCalls
        if turn.deletable then s.delete entry.event
        else s.addEvent entry.event (s.calculateTime 1) false

/-- The loop of `Update`, as many passes of it as there are answers. -/
def updateLoop (s : EventProcessor) : List Turn → Outcome
  | [] => .ok s
  | turn :: turns =>
      match s.events with
      | [] => .ok s
      | entry :: rest =>
          if entry.time ≤ s.time then do
            let s ← { s with events := rest }.runEntry entry turn
            s.updateLoop turns
          else .ok s

/-- `Update`. -/
def update (s : EventProcessor) (p_time : Nat) (turns : List Turn) : Outcome :=
  { s with time := (s.time + p_time) % 2 ^ 64 }.updateLoop turns

end EventProcessor

/-- The calls from outside. -/
inductive Call
  | action (action : Action)
  | update (p_time : Nat) (turns : List Turn)

namespace EventProcessor

def step (s : EventProcessor) : Call → Outcome
  | .action action => s.perform action
  | .update p_time turns => s.update p_time turns

def run (s : EventProcessor) : List Call → Outcome
  | [] => .ok s
  | call :: rest => do
      let s ← s.step call
      s.run rest

end EventProcessor

end Sunstrider.Utilities
