import Sunstrider.Guilds.Guild

/-!
# Guild logs

A guild keeps one log of its events and one of what happens in each tab of its bank. Each log
has room for a fixed number of entries, and each entry has a GUID, which runs round modulo that
number. An entry goes to the end of the list in memory, from whose front the oldest one drops
out, and to a row of the database, where it replaces the row with the same GUID. When the
server starts, the rows are read back newest first and put to the front one by one; the GUID
of the first of them is where the numbers go on.

Rows of every log are in one table, and a row belongs to the log of its key: the guild for the
event log, the guild and the tab for the bank. The tables are lists in the order of the writes.
`written` is a ghost: every entry ever made, in order.
-/

namespace Sunstrider.Guilds

/-- `Guild::LogEntry`; what the two kinds of entries hold besides is `event`. -/
structure LogEntry (E : Type) where
  guid : UInt32
  timestamp : Nat
  event : E
deriving DecidableEq, Repr

/-- `GUILD_EVENT_LOG_GUID_UNDEFINED`. -/
def guildEventLogGuidUndefined : UInt32 := 0xFFFFFFFF

/-- `Guild::LogHolder`. -/
structure LogHolder (E : Type) where
  log : List (LogEntry E)
  maxRecords : UInt32
  nextGUID : UInt32
deriving DecidableEq, Repr

namespace LogHolder

variable {E : Type}

def new (maxRecords : UInt32) : LogHolder E := ⟨[], maxRecords, guildEventLogGuidUndefined⟩

def canInsert (h : LogHolder E) : Bool := decide (h.log.length < h.maxRecords.toNat)

def loadEvent (h : LogHolder E) (entry : LogEntry E) : LogHolder E :=
  { h with
    nextGUID := if h.nextGUID = guildEventLogGuidUndefined then entry.guid else h.nextGUID
    log := entry :: h.log }

def addEvent (h : LogHolder E) (entry : LogEntry E) : LogHolder E :=
  { h with
    log := (if h.maxRecords.toNat ≤ h.log.length then h.log.tail else h.log) ++ [entry] }

/-- `GetNextGUID`, which also moves on. -/
def getNextGUID (h : LogHolder E) : LogHolder E × UInt32 :=
  let guid :=
    if h.nextGUID = guildEventLogGuidUndefined then 0 else (h.nextGUID + 1) % h.maxRecords
  ({ h with nextGUID := guid }, guid)

end LogHolder

/-- A row of `guild_eventlog` or `guild_bank_eventlog`. -/
structure LogRow (K E : Type) where
  holder : K
  entry : LogEntry E
deriving DecidableEq, Repr

/-- The logs of one kind and the table they are saved in. -/
structure Logs (K E : Type) where
  maxRecords : UInt32
  holders : K → LogHolder E
  table : List (LogRow K E)
  written : List (LogRow K E)

namespace Logs

variable {K E : Type} [DecidableEq K]

/-- The server starts for the first time. -/
def init (maxRecords : UInt32) : Logs K E :=
  ⟨maxRecords, fun _ => LogHolder.new maxRecords, [], []⟩

/-- The two statements of `SaveToDB`: the row with this key is deleted and a new one inserted. -/
def saveToDB (table : List (LogRow K E)) (row : LogRow K E) : List (LogRow K E) :=
  table.filter (fun r => !(decide (r.holder = row.holder) &&
    decide (r.entry.guid = row.entry.guid))) ++ [row]

/-- `AddEvent` of a new entry with the next GUID, as `_LogEvent` and `_LogBankEvent` call it. -/
def logEvent (s : Logs K E) (holder : K) (time : Nat) (event : E) : Logs K E :=
  let (h, guid) := (s.holders holder).getNextGUID
  let entry : LogEntry E := ⟨guid, time, event⟩
  { s with
    holders := Function.update s.holders holder (h.addEvent entry)
    table := saveToDB s.table ⟨holder, entry⟩
    written := s.written ++ [⟨holder, entry⟩] }

/-- `ORDER BY TimeStamp DESC, LogGuid DESC`. -/
def before (a b : LogRow K E) : Prop :=
  b.entry.timestamp < a.entry.timestamp ∨
    (a.entry.timestamp = b.entry.timestamp ∧ b.entry.guid ≤ a.entry.guid)

instance : DecidableRel (before (K := K) (E := E)) := fun _ _ => inferInstanceAs (Decidable (_ ∨ _))

def selectRows (table : List (LogRow K E)) : List (LogRow K E) := table.insertionSort before

/-- One row goes to its log: `LoadEventLogFromDB`, or `LoadBankEventLogFromDB`, which looks at
the tab and the kind of event (`accepts`) besides. -/
def loadRow (accepts : K → E → Bool) (holders : K → LogHolder E) (row : LogRow K E) :
    K → LogHolder E :=
  if accepts row.holder row.entry.event && (holders row.holder).canInsert then
    Function.update holders row.holder ((holders row.holder).loadEvent row.entry)
  else holders

/-- `DELETE … WHERE LogGuid > maxRecords`, before the rows are read. -/
def trimTable (s : Logs K E) : List (LogRow K E) :=
  s.table.filter fun r => decide (r.entry.guid ≤ s.maxRecords)

/-- The server starts again. -/
def reload (accepts : K → E → Bool) (s : Logs K E) : Logs K E :=
  { s with
    holders := (selectRows s.trimTable).foldl (loadRow accepts)
      fun _ => LogHolder.new s.maxRecords
    table := s.trimTable }

inductive Op (K E : Type)
  | logEvent (holder : K) (time : Nat) (event : E)
  | reload

def step (accepts : K → E → Bool) (s : Logs K E) : Op K E → Logs K E
  | .logEvent holder time event => s.logEvent holder time event
  | .reload => s.reload accepts

end Logs

/-! ## The logs of the bank -/

/-- `GuildBankEventLogTypes`. -/
inductive GuildBankEventLogType
  | depositItem
  | withdrawItem
  | moveItem
  | depositMoney
  | withdrawMoney
  | repairMoney
  | moveItem2
  | unk1
  | buySlot
deriving DecidableEq, Repr

/-- `BankEventLogEntry::IsMoneyEvent`. -/
def GuildBankEventLogType.isMoneyEvent : GuildBankEventLogType → Bool
  | .depositMoney | .withdrawMoney | .repairMoney => true
  | _ => false

/-- What a `BankEventLogEntry` holds besides its tab. -/
structure BankEvent where
  eventType : GuildBankEventLogType
  playerGuid : Nat
  itemOrMoney : Nat
  itemStackCount : Nat
  destTabId : Nat
deriving DecidableEq, Repr

/-- `GUILD_BANK_MONEY_LOGS_TAB`. -/
def guildBankMoneyLogsTab : Nat := 100

/-- The guild and the tab in the database. -/
abbrev BankLogKey := Nat × Nat

/-- `Guild::_LogBankEvent`. -/
def logBankEvent (s : Logs BankLogKey BankEvent) (guild time tabId : Nat) (event : BankEvent) :
    Logs BankLogKey BankEvent :=
  if guildBankMaxTabs < tabId then s
  else if event.eventType = .moveItem ∧ tabId = event.destTabId then s
  else
    let dbTabId := if event.eventType.isMoneyEvent then guildBankMoneyLogsTab else tabId
    s.logEvent (guild, dbTabId) time event

/-- What `LoadBankEventLogFromDB` asks of a row, `purchasedTabs` being what each guild has
bought. -/
def bankAccepts (purchasedTabs : Nat → Nat) (key : BankLogKey) (event : BankEvent) : Bool :=
  let isMoneyTab := decide (key.2 = guildBankMoneyLogsTab)
  (decide (key.2 < purchasedTabs key.1) || isMoneyTab) &&
    (if event.eventType.isMoneyEvent then isMoneyTab else !isMoneyTab)

end Sunstrider.Guilds
