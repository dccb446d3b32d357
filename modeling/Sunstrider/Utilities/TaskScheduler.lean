import Sunstrider.Lib.Loop
import Sunstrider.Lib.TimedQueue

/-!
# The task scheduler

`TaskScheduler` and the `TaskContext` it hands to a task when the task's time has come. The
queue is a `multiset` by the end of a task, so tasks that end together stay in the order
they were put in. Times are ticks of the steady clock.

What a task does is code of the game, here the list of calls it makes on its context at
each count of its repeats; the tasks it schedules are named by what `std::function` they
have. Nothing is in the holder for asynchronous calls, the validator is always true and
there is no callback. `invoked` is what an onlooker sees, each task as it was when it was
invoked.
-/

namespace Sunstrider.Utilities

open Lib

structure Task (H : Type) where
  endTime : Int
  duration : Int
  group : Option UInt32
  repeated : UInt32
  task : H
deriving DecidableEq, Repr

def Task.isInGroup {H : Type} (t : Task H) (group : UInt32) : Bool := t.group == some group

structure TaskQueue (H : Type) where
  container : List (Task H)
  inTime : InTime Task.endTime container

structure TaskScheduler (H : Type) where
  now : Int
  taskHolder : TaskQueue H
  invoked : List (Task H)

structure TaskContext (H : Type) where
  task : Task H
  consumed : Bool
deriving DecidableEq, Repr

/-- The assertion of `AssertOnConsumed`. -/
inductive ContextFault where
  | consumedAlready
deriving DecidableEq, Repr

/-- The calls of a task on its context: `Repeat` with and without a duration, `Schedule`
with and without a group, `CancelGroup` and `CancelAll`. -/
inductive ContextCall (H : Type) where
  | repeatFor (duration : Int)
  | repeatAgain
  | schedule (time : Int) (task : H)
  | scheduleInGroup (time : Int) (group : UInt32) (task : H)
  | cancelGroup (group : UInt32)
  | cancelAll
deriving DecidableEq, Repr

variable {H : Type}

namespace TaskQueue

def push (q : TaskQueue H) (task : Task H) : TaskQueue H :=
  ⟨insertTimed Task.endTime task q.container, q.inTime.insertTimed⟩

def first (q : TaskQueue H) : Option (Task H) := q.container.head?

/-- What `Pop` leaves. -/
def pop (q : TaskQueue H) : TaskQueue H := ⟨q.container.tail, q.inTime.tail⟩

def clear : TaskQueue H := ⟨[], .nil⟩

def removeIf (q : TaskQueue H) (filter : Task H → Bool) : TaskQueue H :=
  ⟨q.container.filter fun task => ! filter task, q.inTime.filter _⟩

end TaskQueue

namespace TaskScheduler

def insertTask (s : TaskScheduler H) (task : Task H) : TaskScheduler H :=
  { s with taskHolder := s.taskHolder.push task }

/-- `ScheduleAt` without a group. -/
def scheduleAt (s : TaskScheduler H) (endTime time : Int) (task : H) : TaskScheduler H :=
  s.insertTask ⟨endTime + time, time, none, 0, task⟩

/-- `ScheduleAt` with a group. -/
def scheduleAtInGroup (s : TaskScheduler H) (endTime time : Int) (group : UInt32) (task : H) :
    TaskScheduler H :=
  s.insertTask ⟨endTime + time, time, some group, 0, task⟩

def cancelAll (s : TaskScheduler H) : TaskScheduler H := { s with taskHolder := .clear }

def cancelGroup (s : TaskScheduler H) (group : UInt32) : TaskScheduler H :=
  { s with taskHolder := s.taskHolder.removeIf fun task => task.isInGroup group }

end TaskScheduler

namespace TaskContext

/-- `Repeat` with a duration. -/
def repeatFor (c : TaskContext H) (s : TaskScheduler H) (duration : Int) :
    Except ContextFault (TaskContext H × TaskScheduler H) :=
  if c.consumed then .error .consumedAlready
  else
    let task := { c.task with
      duration := duration
      endTime := c.task.endTime + duration
      repeated := c.task.repeated + 1 }
    .ok (⟨task, true⟩, s.insertTask task)

def call (cs : TaskContext H × TaskScheduler H) :
    ContextCall H → Except ContextFault (TaskContext H × TaskScheduler H)
  | .repeatFor duration => cs.1.repeatFor cs.2 duration
  | .repeatAgain => cs.1.repeatFor cs.2 cs.1.task.duration
  | .schedule time task => .ok (cs.1, cs.2.scheduleAt cs.1.task.endTime time task)
  | .scheduleInGroup time group task =>
      .ok (cs.1, cs.2.scheduleAtInGroup cs.1.task.endTime time group task)
  | .cancelGroup group => .ok (cs.1, cs.2.cancelGroup group)
  | .cancelAll => .ok (cs.1, cs.2.cancelAll)

end TaskContext

namespace TaskScheduler

variable (calls : H → UInt32 → List (ContextCall H))

/-- The task is popped and its context invoked. -/
def invokeFirst (s : TaskScheduler H) : Except ContextFault (TaskScheduler H) :=
  match s.taskHolder.first with
  | none => .ok s
  | some task =>
      ((calls task.task task.repeated).foldlM TaskContext.call
        (⟨task, false⟩, { s with
          taskHolder := s.taskHolder.pop
          invoked := s.invoked ++ [task] })).map Prod.snd

/-- The queue is not empty and its first task does not end later than this. -/
def dueBy (time : Int) (s : TaskScheduler H) : Bool :=
  match s.taskHolder.first with
  | none => false
  | some task => ! decide (time < task.endTime)

def dispatch (fuel : Nat) (s : TaskScheduler H) :
    Option (Except ContextFault (TaskScheduler H)) :=
  loop (fun s => s.dueBy s.now) (invokeFirst calls) fuel s

/-- `Update` with a difftime. -/
def update (fuel : Nat) (difftime : Nat) (s : TaskScheduler H) :
    Option (Except ContextFault (TaskScheduler H)) :=
  dispatch calls fuel { s with now := s.now + difftime }

/-- One `Update` after the other. -/
def updates (fuel : Nat) :
    List Nat → TaskScheduler H → Option (Except ContextFault (TaskScheduler H))
  | [], s => some (.ok s)
  | difftime :: difftimes, s =>
      match update calls fuel difftime s with
      | some (.ok s) => updates fuel difftimes s
      | r => r

end TaskScheduler

end Sunstrider.Utilities
