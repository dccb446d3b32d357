import Sunstrider.Lib.Ledger

/-!
# Reputation

A character stands somewhere with every faction that has a place in the reputation
list. The base value follows from race and class, the standing is what was earned
on top of it, and their sum decides the rank. Next to the states the manager keeps
four counters, of the visible factions and of those from honored, revered and
exalted on, and no operation ever counts again: each reports the rank it found and
the rank it leaves.

The counters have eight bits and wrap. Flags have eight bits, and sixteen in the
database. Standings are small enough for 32 bits. What is only sent to the client
is left out.
-/

namespace Sunstrider.Reputation

open Lib

inductive ReputationRank
  | hated | hostile | unfriendly | neutral | friendly | honored | revered | exalted
deriving DecidableEq

namespace ReputationRank

def toNat : ReputationRank → Nat
  | hated => 0
  | hostile => 1
  | unfriendly => 2
  | neutral => 3
  | friendly => 4
  | honored => 5
  | revered => 6
  | exalted => 7

instance : LE ReputationRank := ⟨fun a b => a.toNat ≤ b.toNat⟩

instance (a b : ReputationRank) : Decidable (a ≤ b) := inferInstanceAs (Decidable (a.toNat ≤ b.toNat))

end ReputationRank

def reputationCap : Int := 42999
def reputationBottom : Int := -42000

/-- `PointsInRank`, from the highest rank down. -/
def pointsInRank : List (ReputationRank × Int) :=
  [(.exalted, 1000), (.revered, 21000), (.honored, 12000), (.friendly, 6000), (.neutral, 3000),
    (.unfriendly, 3000), (.hostile, 3000), (.hated, 36000)]

/-- The loop of `ReputationToRank`. -/
def rankBelow (standing : Int) : Int → List (ReputationRank × Int) → ReputationRank
  | _, [] => .hated
  | limit, (rank, points) :: ranks =>
      if limit - points ≤ standing then rank else rankBelow standing (limit - points) ranks

/-- `ReputationMgr::ReputationToRank`. -/
def reputationToRank (standing : Int) : ReputationRank :=
  rankBelow standing (reputationCap + 1) pointsInRank

/-! ## Factions -/

inductive FactionFlag
  | visible | atWar | hidden | invisibleForced | peaceForced | inactive | rival
deriving DecidableEq

/-- The bit of a flag. -/
def FactionFlag.bit : FactionFlag → Nat
  | visible => 0
  | atWar => 1
  | hidden => 2
  | invisibleForced => 3
  | peaceForced => 4
  | inactive => 5
  | rival => 6

abbrev Flags := BitVec 8

def hasFlag {w : Nat} (flags : BitVec w) (flag : FactionFlag) : Bool := flags.getLsbD flag.bit

/-- One of the four columns of base reputation. -/
structure BaseRep where
  raceMask : Nat
  classMask : Nat
  value : Int
  flags : BitVec 32

structure FactionEntry where
  id : Nat
  reputationListID : Int
  baseRep : Fin 4 → BaseRep
  listID_ge : -2 ^ 31 ≤ reputationListID
  listID_lt : reputationListID < 2 ^ 31

/-- `FactionEntry::CanHaveReputation`. -/
def FactionEntry.canHaveReputation (e : FactionEntry) : Bool := 0 ≤ e.reputationListID

/-- The list id as the key of a map, a `uint32`. -/
def FactionEntry.repListID (e : FactionEntry) : Nat := (e.reputationListID % 2 ^ 32).toNat

/-- The faction table. Ids are positive, and no two factions have one place in the
reputation list. -/
structure FactionStore where
  entries : List FactionEntry
  sorted : entries.Pairwise (·.id < ·.id)
  pos : ∀ e ∈ entries, 0 < e.id
  distinct : ∀ e ∈ entries, ∀ e' ∈ entries, e.canHaveReputation →
    e.reputationListID = e'.reputationListID → e = e'

def FactionStore.lookupEntry (s : FactionStore) (id : Nat) : Option FactionEntry :=
  s.entries.find? fun e => e.id = id

structure Player where
  raceMask : Nat
  classMask : Nat

structure Config where
  store : FactionStore
  player : Player
  /-- What `RATE_REPUTATION_GAIN` makes of a gain, rounded. -/
  gain : Int → Int
  /-- `OnPlayerReputationChange` may put another standing in the place of the one it
  is given. -/
  onPlayerReputationChange : Nat → Int → Bool → Int

namespace Config

variable (c : Config) (e : FactionEntry)

/-- The column for the race and class of the player. -/
def baseRep? : Option BaseRep :=
  ((List.finRange 4).map e.baseRep).find? fun b =>
    (b.raceMask &&& c.player.raceMask ≠ 0 ∨ (b.raceMask = 0 ∧ b.classMask ≠ 0)) ∧
    (b.classMask &&& c.player.classMask ≠ 0 ∨ b.classMask = 0)

def getBaseReputation : Int := (c.baseRep? e).elim 0 (·.value)

def getBaseRank : ReputationRank := reputationToRank (c.getBaseReputation e)

def getDefaultStateFlags : BitVec 32 := (c.baseRep? e).elim 0 (·.flags)

end Config

structure FactionState where
  id : Nat
  reputationListID : Nat
  standing : Int
  flags : Flags
  needSave : Bool
  needDelete : Bool

namespace FactionState

variable (f : FactionState)

def has (flag : FactionFlag) : Bool := hasFlag f.flags flag

def set (flag : FactionFlag) : FactionState := { f with flags := f.flags ||| .twoPow 8 flag.bit }

def clear (flag : FactionFlag) : FactionState :=
  { f with flags := f.flags &&& ~~~ .twoPow 8 flag.bit }

/-- `SetAtWar(FactionState*, bool)`. -/
def setAtWar (atWar : Bool) : FactionState :=
  if atWar ∧ f.has .peaceForced ∧ ¬ f.has .rival then f
  else if f.has .atWar = atWar then f
  else { (if atWar then f.set .atWar else f.clear .atWar) with needSave := true }

/-- `SetInactive(FactionState*, bool)`. -/
def setInactive (inactive : Bool) : FactionState :=
  if inactive ∧ ((f.has .invisibleForced ∨ f.has .hidden) ∨ ¬ f.has .visible) then f
  else if f.has .inactive = inactive then f
  else { (if inactive then f.set .inactive else f.clear .inactive) with needSave := true }

end FactionState

/-! ## The manager -/

structure ReputationMgr where
  factions : Ledger Nat FactionState
  visibleFactionCount : UInt8
  honoredFactionCount : UInt8
  reveredFactionCount : UInt8
  exaltedFactionCount : UInt8

/-- A row of `character_reputation`. -/
structure SavedRow where
  faction : Nat
  standing : Int
  flags : BitVec 16

/-- A counter of the ranks from `limit` on, after a faction went from one rank to
another. -/
def recount (count : UInt8) (limit oldRank newRank : ReputationRank) : UInt8 :=
  let count := if limit ≤ oldRank then count - 1 else count
  if limit ≤ newRank then count + 1 else count

namespace ReputationMgr

variable (c : Config) (m : ReputationMgr)

/-- The constructor. -/
def new : ReputationMgr where
  factions := ∅
  visibleFactionCount := 0
  honoredFactionCount := 0
  reveredFactionCount := 0
  exaltedFactionCount := 0

def updateRankCounters (oldRank newRank : ReputationRank) : ReputationMgr :=
  { m with
    exaltedFactionCount := recount m.exaltedFactionCount .exalted oldRank newRank
    reveredFactionCount := recount m.reveredFactionCount .revered oldRank newRank
    honoredFactionCount := recount m.honoredFactionCount .honored oldRank newRank }

def getState (e : FactionEntry) : Option FactionState :=
  if e.canHaveReputation then m.factions.lookup e.repListID else none

def getReputation (e : FactionEntry) : Int :=
  match m.getState e with
  | some state => c.getBaseReputation e + state.standing
  | none => 0

def getRank (e : FactionEntry) : ReputationRank := reputationToRank (m.getReputation c e)

def updateState (repListID : Nat) (f : FactionState → FactionState) : ReputationMgr :=
  match m.factions.lookup repListID with
  | none => m
  | some state => { m with factions := m.factions.insert repListID (f state) }

/-- `SetVisible(FactionState*)`. -/
def setVisibleState (repListID : Nat) : ReputationMgr :=
  match m.factions.lookup repListID with
  | none => m
  | some state =>
      if state.has .invisibleForced ∨ state.has .hidden then m
      else if state.has .visible then m
      else
        { m with
          factions := m.factions.insert repListID { state.set .visible with needSave := true }
          visibleFactionCount := m.visibleFactionCount + 1 }

/-! ### Loading -/

/-- One round of the loop of `Initialize`. -/
def initializeFaction (m : ReputationMgr) (e : FactionEntry) : ReputationMgr :=
  if e.canHaveReputation then
    let newFaction : FactionState :=
      { id := e.id
        reputationListID := e.repListID
        standing := 0
        flags := (c.getDefaultStateFlags e).setWidth 8
        needSave := true
        needDelete := false }
    let m :=
      if newFaction.has .visible then
        { m with visibleFactionCount := m.visibleFactionCount + 1 }
      else m
    let m := m.updateRankCounters .hostile (c.getBaseRank e)
    { m with factions := m.factions.insert newFaction.reputationListID newFaction }
  else m

def initializeFactions : ReputationMgr := c.store.entries.foldl (initializeFaction c) new

/-- What `_factions[]` makes where there is no state yet. -/
def noState : FactionState := ⟨0, 0, 0, 0, false, false⟩

/-- The flags of a row, the ones the checks let through. -/
def loadFlags (m : ReputationMgr) (e : FactionEntry) (flags : BitVec 16) : ReputationMgr :=
  let k := e.repListID
  let m := if hasFlag flags .visible then m.setVisibleState k else m
  let m := if hasFlag flags .inactive then m.updateState k (·.setInactive true) else m
  let m :=
    if hasFlag flags .atWar then m.updateState k (·.setAtWar true)
    else if (m.factions.lookup k).any (·.has .visible) then m.updateState k (·.setAtWar false)
    else m
  if m.getRank c e ≤ .hostile then m.updateState k (·.setAtWar true) else m

/-- One round of the loop of `LoadFromDB`. -/
def loadRow (m : ReputationMgr) (row : SavedRow) : ReputationMgr :=
  match c.store.lookupEntry row.faction with
  | none => m
  | some e =>
      if e.canHaveReputation then
        let k := e.repListID
        let faction := (m.factions.lookup k).getD noState
        let m :=
          { m with factions := m.factions.insert k { faction with standing := row.standing } }
        let baseRep := c.getBaseReputation e
        let m := m.updateRankCounters (reputationToRank baseRep)
          (reputationToRank (baseRep + row.standing))
        let m := m.loadFlags c e row.flags
        m.updateState k fun faction =>
          if faction.flags.toNat = row.flags.toNat then { faction with needSave := false }
          else faction
      else m

def loadFromDB (rows : List SavedRow) : ReputationMgr := rows.foldl (loadRow c) (initializeFactions c)

/-! ### Changing -/

def setOneFactionReputation (e : FactionEntry) (standing : Int) (incremental : Bool) :
    ReputationMgr × Bool :=
  let k := e.repListID
  match m.factions.lookup k with
  | none => (m, false)
  | some state =>
      let baseRep := c.getBaseReputation e
      let standing :=
        if incremental then c.gain standing + (state.standing + baseRep) else standing
      let standing :=
        if reputationCap < standing then reputationCap
        else if standing < reputationBottom then reputationBottom
        else standing
      let oldRank := reputationToRank (state.standing + baseRep)
      let newRank := reputationToRank standing
      let m := m.updateState k fun state =>
        { state with standing := standing - baseRep, needSave := true }
      let m := m.setVisibleState k
      let m := if newRank ≤ .hostile then m.updateState k (·.setAtWar true) else m
      (m.updateRankCounters oldRank newRank, true)

def setReputation (e : FactionEntry) (standing : Int) (incremental spillOverOnly : Bool) :
    ReputationMgr × Bool :=
  let standing := c.onPlayerReputationChange e.id standing incremental
  match m.factions.lookup e.repListID with
  | none => (m, false)
  | some _ =>
      if spillOverOnly then (m, false) else m.setOneFactionReputation c e standing incremental

def dropFactionReputation (factionId : Nat) : ReputationMgr :=
  m.updateState factionId fun state => { state with needDelete := true, standing := 0 }

def swapFactionReputation (fromFactionId toFactionId : Nat) : ReputationMgr :=
  match c.store.lookupEntry fromFactionId, c.store.lookupEntry toFactionId with
  | some fromFaction, some toFaction =>
      let fromRep := m.getReputation c fromFaction
      let toRep := m.getReputation c toFaction
      let m := (m.setReputation c fromFaction toRep false false).1
      (m.setReputation c toFaction fromRep false false).1
  | _, _ => m

/-- `SetVisible(FactionEntry const*)`. -/
def setVisible (e : FactionEntry) : ReputationMgr :=
  if e.reputationListID < 0 then m else m.setVisibleState e.repListID

/-- `SetVisible(FactionTemplateEntry const*)`, with the faction of the template. The
factions of the other team are not shown. -/
def setVisibleTemplate (faction : Nat) : ReputationMgr :=
  if faction = 0 then m
  else
    match c.store.lookupEntry faction with
    | none => m
    | some e =>
        if (e.baseRep 1).raceMask &&& c.player.raceMask ≠ 0 ∧
            (e.baseRep 1).value = reputationBottom then m
        else m.setVisible e

def setAtWar (repListID : Nat) (on : Bool) : ReputationMgr :=
  m.updateState repListID fun state =>
    if state.has .invisibleForced ∨ state.has .hidden then state else state.setAtWar on

def setInactive (repListID : Nat) (on : Bool) : ReputationMgr :=
  m.updateState repListID (·.setInactive on)

/-! ### Saving -/

inductive Statement
  | delete (faction : Nat)
  | insert (row : SavedRow)

/-- What `SaveToDB` writes for a state. -/
def statements (state : FactionState) : List Statement :=
  if state.needDelete then [.delete state.id]
  else if state.needSave then
    [.delete state.id, .insert ⟨state.id, state.standing, state.flags.setWidth 16⟩]
  else []

def saved (state : FactionState) : FactionState :=
  if state.needDelete then { state with needDelete := false }
  else { state with needSave := false }

def saveToDB : ReputationMgr × List Statement :=
  (m.factions.keys.foldl (fun m k => m.updateState k saved) m,
    m.factions.entries.flatMap fun e => statements e.2)

end ReputationMgr

/-! ## Runs -/

inductive Op
  | load (rows : List SavedRow)
  | setReputation (faction : Nat) (standing : Int) (incremental spillOverOnly : Bool)
  | swap (fromFactionId toFactionId : Nat)
  | drop (factionId : Nat)
  | setVisible (faction : Nat)
  | setVisibleTemplate (faction : Nat)
  | setAtWar (repListID : Nat) (on : Bool)
  | setInactive (repListID : Nat) (on : Bool)
  | save

def step (c : Config) (m : ReputationMgr) : Op → ReputationMgr
  | .load rows => ReputationMgr.loadFromDB c rows
  | .setReputation faction standing incremental spillOverOnly =>
      match c.store.lookupEntry faction with
      | none => m
      | some e => (m.setReputation c e standing incremental spillOverOnly).1
  | .swap fromFactionId toFactionId => m.swapFactionReputation c fromFactionId toFactionId
  | .drop factionId => m.dropFactionReputation factionId
  | .setVisible faction =>
      match c.store.lookupEntry faction with
      | none => m
      | some e => m.setVisible e
  | .setVisibleTemplate faction => m.setVisibleTemplate c faction
  | .setAtWar repListID on => m.setAtWar repListID on
  | .setInactive repListID on => m.setInactive repListID on
  | .save => m.saveToDB.1

def run (c : Config) (m : ReputationMgr) (ops : List Op) : ReputationMgr := ops.foldl (step c) m

end Sunstrider.Reputation

/-!
## Reputation and its rows

The rows of `character_reputation` of one character, as the statements of `SaveToDB` leave
them, next to the states in memory. A character comes into the game, changes its
reputations, is saved from time to time, and comes in again with the rows there are then.
A faction goes into a statement as a `uint16`.
-/

namespace Sunstrider.Reputation

namespace ReputationMgr

def Statement.execute (rows : List SavedRow) : Statement → List SavedRow
  | .delete faction => rows.filter fun row => row.faction ≠ faction % 2 ^ 16
  | .insert row => rows ++ [{ row with faction := row.faction % 2 ^ 16 }]

/-- The transaction of `SaveToDB`. -/
def executeAll (rows : List SavedRow) (statements : List Statement) : List SavedRow :=
  statements.foldl Statement.execute rows

end ReputationMgr

/-- The states in memory, and the rows of the character. -/
structure Session where
  mgr : ReputationMgr
  rows : List SavedRow

namespace Session

/-- What may happen to the reputations of a character; factions are given by id, list
places as such. -/
inductive Op
  | setReputation (faction : Nat) (standing : Int) (incremental spillOverOnly : Bool)
  | setVisible (faction : Nat)
  | setAtWar (repListID : Nat) (on : Bool)
  | setInactive (repListID : Nat) (on : Bool)
  | drop (repListID : Nat)
  | save
  | load

def load (c : Config) (rows : List SavedRow) : Session := ⟨.loadFromDB c rows, rows⟩

def save (s : Session) : Session :=
  ⟨s.mgr.saveToDB.1, ReputationMgr.executeAll s.rows s.mgr.saveToDB.2⟩

def step (c : Config) (s : Session) : Op → Session
  | .setReputation faction standing incremental spillOverOnly =>
      ⟨Reputation.step c s.mgr (.setReputation faction standing incremental spillOverOnly), s.rows⟩
  | .setVisible faction => ⟨Reputation.step c s.mgr (.setVisible faction), s.rows⟩
  | .setAtWar repListID on => ⟨s.mgr.setAtWar repListID on, s.rows⟩
  | .setInactive repListID on => ⟨s.mgr.setInactive repListID on, s.rows⟩
  | .drop repListID => ⟨s.mgr.dropFactionReputation repListID, s.rows⟩
  | .save => s.save
  | .load => load c s.rows

end Session

end Sunstrider.Reputation
