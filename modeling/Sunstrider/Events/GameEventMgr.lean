import Mathlib

/-!
# Quests of game events

An event of the game brings quests with it: while it runs, the givers listed for
it offer them besides their own. The lists of the events are loaded once, and
the tables of who offers what are changed in place each time an event starts or
stops. There is a list and a table for creatures and one of each for
gameobjects, and the code treats the two alike.

A `multimap` is read here as the quests of each giver in the order they were
added, which is how it keeps the elements of one key.
-/

namespace Sunstrider.Events

/-- Giver and quest. -/
abbrev QuestRelation := Nat × Nat

/-- The quests each giver offers, in the order of the multimap. -/
abbrev QuestRelations := Nat → List Nat

/-- The pairs listed for each event. -/
abbrev GameEventQuestMap := Nat → List QuestRelation

structure GameEventMgr where
  creatureQuests : GameEventQuestMap
  gameObjectQuests : GameEventQuestMap
  activeEvents : Finset Nat
  creatureQuestMap : QuestRelations
  goQuestMap : QuestRelations

/-- `insert` of a pair: it goes after the others of its giver. -/
def QuestRelations.insert (m : QuestRelations) (p : QuestRelation) : QuestRelations :=
  Function.update m p.1 (m p.1 ++ [p.2])

/-- The search from `find` to `upper_bound`, erasing the first pair with the quest. -/
def eraseQuest (quest : Nat) : List Nat → List Nat
  | [] => []
  | q :: qs => if q = quest then qs else q :: eraseQuest quest qs

def QuestRelations.remove (m : QuestRelations) (p : QuestRelation) : QuestRelations :=
  Function.update m p.1 (eraseQuest p.2 (m p.1))

/-- Whether an active event other than `eventId` lists the quest, for whatever giver. -/
def hasQuestActiveEventExcept (quests : GameEventQuestMap) (active : Finset Nat)
    (questId eventId : Nat) : Bool :=
  decide (∃ e ∈ active, e ≠ eventId ∧ ∃ p ∈ quests e, p.2 = questId)

/-- One of the two loops of `UpdateEventQuests`, over the list `l`; `except` tells
whether another active event has the quest. -/
def updateQuests (except : Nat → Bool) (activate : Bool) (l : List QuestRelation)
    (m : QuestRelations) : QuestRelations :=
  l.foldl
    (fun m p => if activate then m.insert p else if except p.2 then m else m.remove p) m

/-- What closes an event that must not start unless Hallow's End is on. -/
def hallowsEnd : Nat := 12

def wickermanFestival : Nat := 150

def horsenameRazorHill : Nat := 156

namespace GameEventMgr

def hasCreatureQuestActiveEventExcept (g : GameEventMgr) (questId eventId : Nat) : Bool :=
  hasQuestActiveEventExcept g.creatureQuests g.activeEvents questId eventId

def hasGameObjectQuestActiveEventExcept (g : GameEventMgr) (questId eventId : Nat) : Bool :=
  hasQuestActiveEventExcept g.gameObjectQuests g.activeEvents questId eventId

def updateEventQuests (g : GameEventMgr) (eventId : Nat) (activate : Bool) : GameEventMgr :=
  { g with
    creatureQuestMap :=
      updateQuests (fun q => g.hasCreatureQuestActiveEventExcept q eventId) activate
        (g.creatureQuests eventId) g.creatureQuestMap
    goQuestMap :=
      updateQuests (fun q => g.hasGameObjectQuestActiveEventExcept q eventId) activate
        (g.gameObjectQuests eventId) g.goQuestMap }

def isActiveEvent (g : GameEventMgr) (eventId : Nat) : Bool := decide (eventId ∈ g.activeEvents)

def addActiveEvent (g : GameEventMgr) (eventId : Nat) : GameEventMgr :=
  { g with activeEvents := insert eventId g.activeEvents }

def removeActiveEvent (g : GameEventMgr) (eventId : Nat) : GameEventMgr :=
  { g with activeEvents := g.activeEvents.erase eventId }

def applyNewEvent (g : GameEventMgr) (eventId : Nat) : GameEventMgr :=
  g.updateEventQuests eventId true

def unApplyEvent (g : GameEventMgr) (eventId : Nat) : GameEventMgr :=
  g.updateEventQuests eventId false

def startEvent (g : GameEventMgr) (eventId : Nat) : GameEventMgr :=
  if (wickermanFestival ≤ eventId ∧ eventId ≤ horsenameRazorHill) ∧
      ¬ g.isActiveEvent hallowsEnd then g
  else (g.addActiveEvent eventId).applyNewEvent eventId

def stopEvent (g : GameEventMgr) (eventId : Nat) : GameEventMgr :=
  (g.removeActiveEvent eventId).unApplyEvent eventId

end GameEventMgr

/-! ## Runs -/

inductive EventOp
  | start (eventId : Nat)
  | stop (eventId : Nat)
deriving DecidableEq, Repr

namespace GameEventMgr

def step (g : GameEventMgr) (op : EventOp) : GameEventMgr :=
  match op with
  | .start e => g.startEvent e
  | .stop e => g.stopEvent e

/-- Only an event that is off starts, and only one that is on stops. -/
def Legal (g : GameEventMgr) (op : EventOp) : Prop :=
  match op with
  | .start e => e ∉ g.activeEvents
  | .stop e => e ∈ g.activeEvents

instance (g : GameEventMgr) (op : EventOp) : Decidable (g.Legal op) :=
  match op with
  | .start e => inferInstanceAs (Decidable (e ∉ g.activeEvents))
  | .stop e => inferInstanceAs (Decidable (e ∈ g.activeEvents))

/-- Nothing is on and the tables are those of the database. -/
def loaded (creatureQuests gameObjectQuests : GameEventQuestMap)
    (creatureBase goBase : QuestRelations) : GameEventMgr :=
  ⟨creatureQuests, gameObjectQuests, ∅, creatureBase, goBase⟩

end GameEventMgr

end Sunstrider.Events

/-!
## When game events are on

An event of the normal kind is on between its start and its end for `length` minutes out
of every `occurence` minutes. `CheckOneGameEvent` tells whether it is on now, and
`NextCheck`, which was written apart from it, in how many seconds that may change. The
events of the world go through states of their own.

`Update` looks at every event, starts those that are to be on and are not, stops those
that are on and are not to be, and asks to be called again a second after the first
change it expects. What an event does to the world when it starts or stops is left out
here, none of it changes when events are on.

A time is a `time_t`, in seconds. Minutes are multiplied as `uint32`, and a delay is cut
off to one.
-/

namespace Sunstrider.Events

inductive GameEventState
  | normal
  | worldInactive
  | worldConditions
  | worldNextphase
  | worldFinished
  | internal
deriving DecidableEq, Repr

structure GameEventFinishCondition where
  reqNum : ℚ
  done : ℚ

structure GameEventData where
  start : Int
  stop : Int
  nextstart : Int
  occurence : Nat
  length : Nat
  state : GameEventState
  conditions : List GameEventFinishCondition
  prerequisiteEvents : List Nat

/-- `mGameEvent`, whose entries are used from one on, and the events that are on. -/
structure EventSchedule where
  events : Nat → GameEventData
  size : Nat
  activeEvents : Finset Nat

/-- `max_ge_check_delay`, a day. -/
def maxGeCheckDelay : Nat := 86400

/-- Minutes as seconds, a `uint32`. -/
def minutes (n : Nat) : Nat := n * 60 % 2 ^ 32

/-- The conversion of an `int64` to `uint32`. -/
def uint32 (n : Int) : Nat := (n % 2 ^ 32).toNat

namespace EventSchedule

variable (s : EventSchedule) (currenttime : Int)

/-- `CheckOneGameEvent`. -/
def checkOneGameEvent (entry : Nat) : Bool :=
  let data := s.events entry
  match data.state with
  | .normal =>
      decide (data.start < currenttime) && decide (currenttime < data.stop) &&
        decide ((currenttime - data.start) % (minutes data.occurence) < minutes data.length)
  | .worldConditions | .worldNextphase => true
  | .worldFinished | .internal => false
  | .worldInactive =>
      (data.prerequisiteEvents.all fun itr =>
        ((s.events itr).state = .worldNextphase || (s.events itr).state = .worldFinished) &&
          !decide (currenttime < (s.events itr).nextstart)) &&
        !data.prerequisiteEvents.isEmpty

/-- `NextCheck`. -/
def nextCheck (entry : Nat) : Nat :=
  let data := s.events entry
  if (data.state = .worldNextphase ∨ data.state = .worldFinished) ∧
      currenttime ≤ data.nextstart then
    uint32 (data.nextstart - currenttime)
  else if data.state = .worldConditions then
    if data.length ≠ 0 then minutes data.length else maxGeCheckDelay
  else if data.stop < currenttime then maxGeCheckDelay
  else if currenttime < data.start then uint32 (data.start - currenttime)
  else
    let passed := (currenttime - data.start) % (minutes data.occurence)
    let delay :=
      if passed < minutes data.length then uint32 (minutes data.length - passed)
      else uint32 (minutes data.occurence - passed)
    if data.stop < currenttime + delay then uint32 (data.stop - currenttime) else delay

def isActiveEvent (eventId : Nat) : Bool := decide (eventId ∈ s.activeEvents)

def addActiveEvent (eventId : Nat) : EventSchedule :=
  { s with activeEvents := insert eventId s.activeEvents }

def removeActiveEvent (eventId : Nat) : EventSchedule :=
  { s with activeEvents := s.activeEvents.erase eventId }

def modifyEvent (eventId : Nat) (f : GameEventData → GameEventData) : EventSchedule :=
  { s with events := Function.update s.events eventId (f (s.events eventId)) }

/-- `CheckOneGameEventConditions`. -/
def checkOneGameEventConditions (eventId : Nat) : EventSchedule × Bool :=
  if (s.events eventId).conditions.any fun itr => decide (itr.done < itr.reqNum) then (s, false)
  else
    (s.modifyEvent eventId fun data =>
      { data with
        state := .worldNextphase
        nextstart :=
          if data.nextstart = 0 then currenttime + minutes data.length else data.nextstart }, true)

/-- `StartEvent`, not from a command. -/
def startEvent (eventId : Nat) : EventSchedule × Bool :=
  if (wickermanFestival ≤ eventId ∧ eventId ≤ horsenameRazorHill) ∧
      ¬ s.isActiveEvent hallowsEnd then (s, false)
  else if (s.events eventId).state = .normal ∨ (s.events eventId).state = .internal then
    (s.addActiveEvent eventId, false)
  else
    let s :=
      if (s.events eventId).state = .worldInactive then
        s.modifyEvent eventId fun data => { data with state := .worldConditions }
      else s
    (s.addActiveEvent eventId).checkOneGameEventConditions currenttime eventId

/-- `StopEvent`, not from a command. -/
def stopEvent (eventId : Nat) : EventSchedule :=
  let data := s.events eventId
  let s := s.removeActiveEvent eventId
  if (data.state ≠ .normal ∧ data.state ≠ .internal) ∧ data.state ≠ .worldFinished then
    s.modifyEvent eventId fun data =>
      { data with
        nextstart := 0
        state := .worldInactive
        conditions := data.conditions.map fun itr => { itr with done := 0 } }
  else s

/-! ## Update -/

/-- Where the loop of `Update` over the events is. -/
structure Sweep where
  schedule : EventSchedule
  activate : List Nat
  deactivate : List Nat
  nextEventDelay : Nat

/-- The end of the body of the loop. -/
def Sweep.askNext (sweep : Sweep) (itr : Nat) : Sweep :=
  let calcDelay := sweep.schedule.nextCheck currenttime itr
  { sweep with
    nextEventDelay :=
      if calcDelay < sweep.nextEventDelay then calcDelay else sweep.nextEventDelay }

/-- The body of the loop. -/
def Sweep.visit (sweep : Sweep) (itr : Nat) : Sweep :=
  let data := sweep.schedule.events itr
  let active := sweep.schedule.isActiveEvent itr
  if sweep.schedule.checkOneGameEvent currenttime itr then
    if data.state = .worldNextphase ∧ data.nextstart ≤ currenttime then
      { sweep with
        schedule := sweep.schedule.modifyEvent itr fun data =>
          { data with state := .worldFinished, nextstart := 0 }
        deactivate := if active then sweep.deactivate ++ [itr] else sweep.deactivate }
    else
      Sweep.askNext currenttime
        { sweep with
          schedule :=
            if data.state = .worldConditions then
              (sweep.schedule.checkOneGameEventConditions currenttime itr).1
            else sweep.schedule
          activate := if active then sweep.activate else sweep.activate ++ [itr] } itr
  else
    Sweep.askNext currenttime
      { sweep with
        deactivate := if active then sweep.deactivate ++ [itr] else sweep.deactivate } itr

/-- The loop that starts what is to be on, with the delay as it is then. -/
def startAll (activate : List Nat) (nextEventDelay : Nat) : EventSchedule × Nat :=
  activate.foldl
    (fun e itr =>
      let (s, completed) := e.1.startEvent currenttime itr
      (s, if completed then 0 else e.2))
    (s, nextEventDelay)

/-- `Update`, with the delay to the next call in milliseconds. -/
def update : EventSchedule × Nat :=
  let sweep := (List.range' 1 (s.size - 1)).foldl (Sweep.visit currenttime)
    ⟨s, [], [], maxGeCheckDelay⟩
  let (s, nextEventDelay) :=
    sweep.schedule.startAll currenttime sweep.activate sweep.nextEventDelay
  (sweep.deactivate.foldl stopEvent s, (nextEventDelay + 1) * 1000)

/-- Before update `n`, each called when the delay of the one before is over: the schedule
and the time. -/
def moment (s : EventSchedule) (currenttime : Int) : Nat → EventSchedule × Int
  | 0 => (s, currenttime)
  | n + 1 =>
      let (s, currenttime) := moment s currenttime n
      let (s, delay) := s.update currenttime
      (s, currenttime + delay / 1000)

end EventSchedule

end Sunstrider.Events
