import Sunstrider.Lib.TimedQueue

/-!
# When instances are reset

The instance save manager keeps a queue of events by time. An event of type 0 resets one
instance. The others belong to a map and a difficulty, whose reset time is stored beside the
queue: types 1 to 3 warn the players, an hour, a quarter of an hour and five minutes ahead, and
schedule the next type; type 4, a minute ahead, resets every instance, moves the stored time
on and schedules the next first warning.

`Update` holds a reference to the first element of the queue while it handles the event, raises
its type in place, schedules a copy of it, and erases what is first then. So the queue is a list
of elements with an identity, `tag`, which the code does not have and nothing reads;
`handled` is a ghost as well: the events as they were when they were handled. What resets and
warnings do to saves, maps and players does not come back to the queue and is not here.
-/

namespace Sunstrider.Instances

open Lib

/-- A map and a difficulty, `MAKE_PAIR32`. -/
abbrev MapDifficulty := Nat × Nat

/-- There are event types. -/
scoped instance neZero_eventTypes : NeZero 5 := ⟨by decide⟩

/-- `InstanceSaveManager::InstResetEvent`. -/
structure InstResetEvent where
  type : Fin 5
  map : MapDifficulty
  instanceId : Nat
deriving DecidableEq, Repr

/-- An element of `m_resetTimeQueue`. -/
structure Scheduled where
  time : Int
  event : InstResetEvent
  tag : Nat
deriving DecidableEq, Repr

/-- `ResetTimeDelay`. -/
def resetTimeDelay : List Int := [3600, 900, 300, 60]

def minute : Int := 60
def day : Int := 86400

/-- What the maps and the configuration say: `MapEntry::Instanceable`, the reset period of a
map and a difficulty that has one, rated and in whole days, and the hour of the reset. -/
structure ResetConfig where
  instanceable : MapDifficulty → Bool
  resetPeriod : MapDifficulty → Option Nat
  resetHour : Nat

structure ResetState where
  queue : List Scheduled
  resetTimeByMapDifficulty : MapDifficulty → Option Int
  nextTag : Nat
  handled : List Scheduled

namespace ResetState

variable (env : ResetConfig) (now : Int)

/-- `GetResetTimeFor`. -/
def getResetTimeFor (s : ResetState) (map : MapDifficulty) : Int :=
  (s.resetTimeByMapDifficulty map).getD 0

/-- `SetResetTimeFor`; `none` is its assertion. -/
def setResetTimeFor (s : ResetState) (map : MapDifficulty) (t : Int) : Option ResetState :=
  match s.resetTimeByMapDifficulty map with
  | none => none
  | some _ => some { s with
      resetTimeByMapDifficulty := Function.update s.resetTimeByMapDifficulty map (some t) }

/-- `GetSubsequentResetTime`. -/
def getSubsequentResetTime (map : MapDifficulty) (resetTime : Int) : Int :=
  match env.resetPeriod map with
  | none => 0
  | some period =>
      (resetTime + minute).tdiv day * day + max (period : Int) day + (env.resetHour : Int) * 3600

/-- `ScheduleReset` with `add` set. -/
def scheduleReset (s : ResetState) (time : Int) (event : InstResetEvent) : ResetState :=
  { s with
    queue := insertTimed Scheduled.time ⟨time, event, s.nextTag⟩ s.queue
    nextTag := s.nextTag + 1 }

/-- `_ResetOrWarnAll`. -/
def resetOrWarnAll (s : ResetState) (map : MapDifficulty) (warn : Bool) (resetTime : Int) :
    Option ResetState :=
  if !env.instanceable map then some s
  else if warn then some s
  else
    let next := getSubsequentResetTime env map resetTime
    if next = 0 then some s
    else (s.setResetTimeFor map next).map fun s => s.scheduleReset (next - 3600) ⟨1, map, 0⟩

/-- `++event.type`, through the reference. -/
def raiseType (s : ResetState) (tag : Nat) : ResetState :=
  { s with
    queue := s.queue.map fun x =>
      if x.tag = tag then { x with event := { x.event with type := x.event.type + 1 } } else x }

/-- `erase(begin())`. -/
def eraseFirst (s : ResetState) : ResetState := { s with queue := s.queue.tail }

/-- The element that is first, if its time has come. -/
def firstDue (s : ResetState) : Option Scheduled := s.queue.head?.filter fun e => e.time < now

/-- The body of the loop of `Update`, for the first element. -/
def handle (s : ResetState) (e : Scheduled) : Option ResetState :=
  let s := { s with handled := s.handled ++ [e] }
  if e.event.type = 0 then some s.eraseFirst
  else
    let resetTime := s.getResetTimeFor e.event.map
    match s.resetOrWarnAll env e.event.map (decide (e.event.type ≠ 4)) resetTime with
    | none => none
    | some s =>
        if e.event.type ≠ 4 then
          let event := { e.event with type := e.event.type + 1 }
          let delay := (resetTimeDelay[event.type.val - 1]?).getD 0
          some ((s.raiseType e.tag).scheduleReset (resetTime - delay) event).eraseFirst
        else some s.eraseFirst

/-- How `Update` ends: it returns, an assertion fails, or it has not come to its end after the
given number of turns. -/
inductive Outcome
  | done (s : ResetState)
  | asserted
  | running

/-- `InstanceSaveManager::Update`, for a number of turns of its loop. -/
def update : Nat → ResetState → Outcome
  | 0, _ => .running
  | turns + 1, s =>
      match s.firstDue now with
      | none => .done s
      | some e =>
          match s.handle env e with
          | none => .asserted
          | some s => update turns s

end ResetState

end Sunstrider.Instances

/-!
## Instance saves and who is bound to them

An instance save lists the players and the groups that are bound to it, and each player and
each group knows, for every map and difficulty, the save it is bound to and whether the bind is
permanent. Whoever is unbound leaves the list, and a save with nobody on its lists unloads
itself, unless somebody is inside the map or the manager is at work and holds `lock_instLists`.

A global reset goes through the saves of a map and difficulty. It unbinds the players that
are not bound permanently and every group, and deletes a save with no permanent bind.

A save is known by its instance id; `order` is the order in which the hash map of the saves is
gone through. Assertions, and a loop that does not end, are `none`. The database and the packets
are left out.
-/

namespace Sunstrider.Instances

/-- `InstanceSave`. -/
structure InstanceSave (P G : Type) where
  mapDifficulty : MapDifficulty
  playerList : List P
  groupList : List G
  canReset : Bool
deriving Repr

/-- The maps: which difficulties have data at all. Those with a reset period are among them. -/
structure SaveConfig extends ResetConfig where
  hasMapDifficulty : MapDifficulty → Bool
  known : ∀ map, (resetPeriod map).isSome = true → hasMapDifficulty map = true

/-- `InstanceSaveManager`, with the binds of all loaded players and groups. -/
structure InstanceSaveMgr (P G : Type) where
  instanceSaveById : Nat → Option (InstanceSave P G)
  order : List Nat
  lockInstLists : Bool
  playerBinds : P → MapDifficulty → Option (Nat × Bool)
  groupBinds : G → MapDifficulty → Option (Nat × Bool)
  resets : ResetState

namespace InstanceSaveMgr

variable {P G : Type} [DecidableEq P] [DecidableEq G]

def init (resets : ResetState) : InstanceSaveMgr P G :=
  ⟨fun _ => none, [], false, fun _ _ => none, fun _ _ => none, resets⟩

/-! ## Saves -/

def mapSave (s : InstanceSaveMgr P G) (id : Nat) (f : InstanceSave P G → InstanceSave P G) :
    InstanceSaveMgr P G :=
  { s with instanceSaveById :=
      Function.update s.instanceSaveById id ((s.instanceSaveById id).map f) }

/-- `RemoveInstanceSave`, and the deletion that follows. -/
def removeInstanceSave (s : InstanceSaveMgr P G) (id : Nat) : InstanceSaveMgr P G :=
  { s with
    instanceSaveById := Function.update s.instanceSaveById id none
    order := s.order.filter (· ≠ id) }

/-- `InstanceSave::UnloadIfEmpty`; `havePlayers` says which maps have players inside. -/
def unloadIfEmpty (havePlayers : Nat → Bool) (s : InstanceSaveMgr P G) (id : Nat) :
    InstanceSaveMgr P G :=
  match s.instanceSaveById id with
  | none => s
  | some save =>
      if save.playerList.isEmpty && save.groupList.isEmpty then
        if havePlayers id then s
        else if s.lockInstLists then s
        else s.removeInstanceSave id
      else s

/-- `InstanceSave::RemovePlayer`. -/
def removePlayer (havePlayers : Nat → Bool) (s : InstanceSaveMgr P G) (id : Nat) (p : P) :
    InstanceSaveMgr P G :=
  (s.mapSave id fun save =>
    { save with playerList := save.playerList.filter (· ≠ p) }).unloadIfEmpty havePlayers id

/-- `InstanceSave::RemoveGroup`. -/
def removeGroup (havePlayers : Nat → Bool) (s : InstanceSaveMgr P G) (id : Nat) (g : G) :
    InstanceSaveMgr P G :=
  (s.mapSave id fun save =>
    { save with groupList := save.groupList.filter (· ≠ g) }).unloadIfEmpty havePlayers id

/-- `AddInstanceSave`, for a map and difficulty that exist and an id other than 0. -/
def addInstanceSave (s : InstanceSaveMgr P G) (map : MapDifficulty) (id : Nat)
    (canReset : Bool) : InstanceSaveMgr P G :=
  match s.instanceSaveById id with
  | some _ => s
  | none =>
      { s with
        instanceSaveById := Function.update s.instanceSaveById id (some ⟨map, [], [], canReset⟩)
        order := s.order ++ [id] }

/-! ## Players -/

def setPlayerBind (s : InstanceSaveMgr P G) (p : P) (map : MapDifficulty)
    (bind : Option (Nat × Bool)) : InstanceSaveMgr P G :=
  { s with playerBinds :=
      Function.update s.playerBinds p (Function.update (s.playerBinds p) map bind) }

/-- `Player::UnbindInstance`. -/
def playerUnbindInstance (havePlayers : Nat → Bool) (s : InstanceSaveMgr P G) (p : P)
    (map : MapDifficulty) : InstanceSaveMgr P G :=
  match s.playerBinds p map with
  | none => s
  | some (id, _) => (s.removePlayer havePlayers id p).setPlayerBind p map none

/-- `Player::BindToInstance`. -/
def playerBindToInstance (havePlayers : Nat → Bool) (s : InstanceSaveMgr P G) (p : P) (id : Nat)
    (permanent : Bool) : InstanceSaveMgr P G :=
  match s.instanceSaveById id with
  | none => s
  | some save =>
      let bind := s.playerBinds p save.mapDifficulty
      let s :=
        if bind.map Prod.fst = some id then s
        else
          (match bind with
            | some (old, _) => s.removePlayer havePlayers old p
            | none => s).mapSave id fun save => { save with playerList := save.playerList ++ [p] }
      let s := if permanent then s.mapSave id fun save => { save with canReset := false } else s
      s.setPlayerBind p save.mapDifficulty (some (id, permanent))

/-- `GetDownscaledMapDifficultyData`, with the difficulty it ends at. -/
def getDownscaledMapDifficulty (cfg : SaveConfig) (map : MapDifficulty) : Option MapDifficulty :=
  if cfg.hasMapDifficulty map then some map
  else if 0 < map.2 ∧ cfg.hasMapDifficulty (map.1, map.2 - 1) then some (map.1, map.2 - 1)
  else none

/-- `Player::GetBoundInstance`. -/
def getBoundInstance (cfg : SaveConfig) (s : InstanceSaveMgr P G) (p : P) (map : MapDifficulty) :
    Option (Nat × Bool) :=
  match getDownscaledMapDifficulty cfg map with
  | none => none
  | some map => s.playerBinds p map

/-! ## Groups -/

def setGroupBind (s : InstanceSaveMgr P G) (g : G) (map : MapDifficulty)
    (bind : Option (Nat × Bool)) : InstanceSaveMgr P G :=
  { s with groupBinds :=
      Function.update s.groupBinds g (Function.update (s.groupBinds g) map bind) }

/-- `Group::UnbindInstance`. -/
def groupUnbindInstance (havePlayers : Nat → Bool) (s : InstanceSaveMgr P G) (g : G)
    (map : MapDifficulty) : InstanceSaveMgr P G :=
  match s.groupBinds g map with
  | none => s
  | some (id, _) => (s.removeGroup havePlayers id g).setGroupBind g map none

/-- `Group::BindToInstance`; battleground and battlefield groups are not bound. -/
def groupBindToInstance (havePlayers : Nat → Bool) (s : InstanceSaveMgr P G) (g : G)
    (isBGGroup : Bool) (id : Nat) (permanent : Bool) : InstanceSaveMgr P G :=
  match s.instanceSaveById id with
  | none => s
  | some save =>
      if isBGGroup then s
      else
        let bind := s.groupBinds g save.mapDifficulty
        let s :=
          if bind.map Prod.fst = some id then s
          else
            (match bind with
              | some (old, _) => s.removeGroup havePlayers old g
              | none => s).mapSave id fun save => { save with groupList := save.groupList ++ [g] }
        s.setGroupBind g save.mapDifficulty (some (id, permanent))

/-! ## Resets -/

/-- The loop that unbinds the first group of the list until there is none. -/
def unbindGroups (havePlayers : Nat → Bool) (id : Nat) (map : MapDifficulty) :
    Nat → InstanceSaveMgr P G → Option (InstanceSaveMgr P G)
  | 0, s => if ((s.instanceSaveById id).any fun save => !save.groupList.isEmpty) then none else some s
  | fuel + 1, s =>
      match (s.instanceSaveById id).bind fun save => save.groupList.head? with
      | none => some s
      | some g => unbindGroups havePlayers id map fuel (s.groupUnbindInstance havePlayers g map)

/-- `_ResetSave`. -/
def resetSave (cfg : SaveConfig) (havePlayers : Nat → Bool) (s : InstanceSaveMgr P G) (id : Nat) :
    Option (InstanceSaveMgr P G) :=
  match s.instanceSaveById id with
  | none => some s
  | some save =>
      let map := save.mapDifficulty
      let s := { s with lockInstLists := true }
      -- `ASSERT(bind->save == itr->second)`
      if save.playerList.any fun p =>
          (s.getBoundInstance cfg p map).any fun bind => decide (bind.1 ≠ id) then none
      else
        let kept := fun p => (s.getBoundInstance cfg p map).any Prod.snd
        let shouldDelete := !save.playerList.any kept
        let temp := save.playerList.filter fun p => !kept p
        let s := temp.foldl (fun s p => s.playerUnbindInstance havePlayers p map) s
        match unbindGroups havePlayers id map save.groupList.length s with
        | none => none
        | some s =>
            if shouldDelete then
              -- the destructor's assertion
              if (s.instanceSaveById id).any fun save =>
                  !(save.playerList.isEmpty && save.groupList.isEmpty) then none
              else some { s.removeInstanceSave id with lockInstLists := false }
            else some { s with lockInstLists := false }

/-- The loop of `_ResetOrWarnAll` over the saves. -/
def resetSaves (cfg : SaveConfig) (havePlayers : Nat → Bool) (map : MapDifficulty) :
    List Nat → InstanceSaveMgr P G → Option (InstanceSaveMgr P G)
  | [], s => some s
  | id :: ids, s =>
      if (s.instanceSaveById id).any fun save => decide (save.mapDifficulty = map) then
        match s.resetSave cfg havePlayers id with
        | none => none
        | some s => resetSaves cfg havePlayers map ids s
      else resetSaves cfg havePlayers map ids s

/-- `_ResetOrWarnAll`. -/
def resetOrWarnAll (cfg : SaveConfig) (havePlayers : Nat → Bool) (s : InstanceSaveMgr P G)
    (map : MapDifficulty) (warn : Bool) (resetTime : Int) : Option (InstanceSaveMgr P G) :=
  if !cfg.instanceable map then some s
  else if warn then some s
  else
    let next := ResetState.getSubsequentResetTime cfg.toResetConfig map resetTime
    if next = 0 then some s
    else
      match resetSaves cfg havePlayers map s.order s with
      | none => none
      | some s =>
          match s.resets.setResetTimeFor map next with
          | none => none
          | some resets =>
              some { s with resets := resets.scheduleReset (next - 3600) ⟨1, map, 0⟩ }

/-! ## Runs -/

inductive Op (P G : Type)
  | addInstanceSave (map : MapDifficulty) (id : Nat) (canReset : Bool)
  | playerBindToInstance (p : P) (id : Nat) (permanent : Bool)
  | playerUnbindInstance (p : P) (map : MapDifficulty)
  | groupBindToInstance (g : G) (isBGGroup : Bool) (id : Nat) (permanent : Bool)
  | groupUnbindInstance (g : G) (map : MapDifficulty)
  | resetOrWarnAll (map : MapDifficulty) (warn : Bool) (resetTime : Int)

/-- One call, `none` when the server stops. -/
def step (cfg : SaveConfig) (s : InstanceSaveMgr P G) (call : (Nat → Bool) × Op P G) :
    Option (InstanceSaveMgr P G) :=
  match call.2 with
  | .addInstanceSave map id canReset => some (s.addInstanceSave map id canReset)
  | .playerBindToInstance p id permanent =>
      some (s.playerBindToInstance call.1 p id permanent)
  | .playerUnbindInstance p map => some (s.playerUnbindInstance call.1 p map)
  | .groupBindToInstance g isBGGroup id permanent =>
      some (s.groupBindToInstance call.1 g isBGGroup id permanent)
  | .groupUnbindInstance g map => some (s.groupUnbindInstance call.1 g map)
  | .resetOrWarnAll map warn resetTime => s.resetOrWarnAll cfg call.1 map warn resetTime

def run (cfg : SaveConfig) (s : InstanceSaveMgr P G) (calls : List ((Nat → Bool) × Op P G)) :
    Option (InstanceSaveMgr P G) := calls.foldlM (step cfg) s

end InstanceSaveMgr

end Sunstrider.Instances
