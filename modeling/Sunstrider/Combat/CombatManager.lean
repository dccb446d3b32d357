import Mathlib

/-!
# Combat references

`CombatManager.h` keeps one heap-allocated `CombatReference` per pair of units
in combat, and a pointer to it in the maps of both. The model keeps the same
three things: a heap of references addressed by `RefId`, a manager with two
maps for every unit, and the `UNIT_FLAG_IN_COMBAT` bit the managers are
supposed to maintain.

`std::unordered_map` is an `AList`: unique keys, and an order of iteration
that the code may not rely on. Units are their GUIDs. The AI callbacks of the
source are left out; what the world around the managers looks like (who is
alive, who is in range of whom) comes in through a `UnitView`, which may be a
different one at every operation.
-/

namespace Sunstrider.Combat

variable {U : Type} [DecidableEq U]

/-- The address of a heap-allocated reference. -/
abbrev RefId := Nat

/-- `std::unordered_map<ObjectGuid, Ref*>`. -/
abbrev RefMap (U : Type) := AList fun _ : U => RefId

/-- `PvPCombatReference::PVP_COMBAT_TIMEOUT`. -/
def pvpCombatTimeout : Nat := 5250

/-- What `PvPCombatReference` adds to its base. -/
structure PvPPart where
  combatTimer : Nat
  suppressFirst : Bool
  suppressSecond : Bool
deriving DecidableEq, Repr

/-- `CombatReference`, a `PvPCombatReference` when `pvp` is there. -/
structure CombatReference (U : Type) where
  first : U
  second : U
  pvp : Option PvPPart
deriving DecidableEq, Repr

namespace CombatReference

/-- `_isPvP`. -/
def isPvP (ref : CombatReference U) : Bool := ref.pvp.isSome

def getOther (ref : CombatReference U) (me : U) : U :=
  if ref.first = me then ref.second else ref.first

/-- `IsSuppressedFor`; a PvE reference is suppressed for nobody. -/
def isSuppressedFor (ref : CombatReference U) (who : U) : Bool :=
  match ref.pvp with
  | none => false
  | some p => if who = ref.first then p.suppressFirst else p.suppressSecond

/-- `PvPCombatReference::Suppress`. -/
def suppress (ref : CombatReference U) (who : U) : CombatReference U :=
  { ref with pvp := ref.pvp.map fun p =>
      if who = ref.first then { p with suppressFirst := true }
      else { p with suppressSecond := true } }

/-- `PvPCombatReference::Update`: `none` is the `false` of an expired timer. -/
def update (ref : CombatReference U) (tdiff : Nat) : Option (CombatReference U) :=
  match ref.pvp with
  | none => some ref
  | some p =>
      if p.combatTimer ≤ tdiff then none
      else some { ref with pvp := some { p with combatTimer := p.combatTimer - tdiff } }

end CombatReference

/-- The two maps of a `CombatManager`. -/
structure CombatManager (U : Type) where
  pveRefs : RefMap U
  pvpRefs : RefMap U

namespace CombatManager

def empty : CombatManager U := ⟨∅, ∅⟩

/-- The map a reference of the given kind lives in. -/
def refs (m : CombatManager U) (isPvP : Bool) : RefMap U :=
  if isPvP then m.pvpRefs else m.pveRefs

/-- `PutReference`. -/
def putReference (m : CombatManager U) (guid : U) (r : RefId) (isPvP : Bool) :
    CombatManager U :=
  if isPvP then { m with pvpRefs := m.pvpRefs.insert guid r }
  else { m with pveRefs := m.pveRefs.insert guid r }

/-- `PurgeReference`. -/
def purgeReference (m : CombatManager U) (guid : U) (isPvP : Bool) :
    CombatManager U :=
  if isPvP then { m with pvpRefs := m.pvpRefs.erase guid }
  else { m with pveRefs := m.pveRefs.erase guid }

def isInCombatWith (m : CombatManager U) (guid : U) : Bool :=
  (m.pveRefs.lookup guid).isSome || (m.pvpRefs.lookup guid).isSome

end CombatManager

/-- The part of the world the combat managers own. -/
structure CombatState (U : Type) where
  refs : RefId → Option (CombatReference U)
  nextRef : RefId
  manager : U → CombatManager U
  /-- `UNIT_FLAG_IN_COMBAT`. -/
  inCombat : U → Bool

/-- What `CanBeginCombat` and its callers read from the units. -/
structure UnitView (U : Type) where
  isInWorld : U → Bool
  isAlive : U → Bool
  sameMap : U → U → Bool
  inSamePhase : U → U → Bool
  isEvading : U → Bool
  isInFlight : U → Bool
  isFriendlyTo : U → U → Bool
  isGameMaster : U → Bool
  isControlledByPlayer : U → Bool
  isPlayerControlled : U → Bool
  isImmuneToPC : U → Bool
  isImmuneToNPC : U → Bool
  isWithinDistInMap : U → U → Bool

/-- `CombatManager::CanBeginCombat`. -/
def canBeginCombat (view : UnitView U) (a b : U) : Bool :=
  decide (a ≠ b) && view.isInWorld a && view.isInWorld b &&
  view.isAlive a && view.isAlive b && view.sameMap a b &&
  view.inSamePhase a b && !(view.isEvading a || view.isEvading b) &&
  !(view.isInFlight a || view.isInFlight b) &&
  !(view.isFriendlyTo a b || view.isFriendlyTo b a) &&
  !(view.isGameMaster a || view.isGameMaster b)

namespace CombatState

def init : CombatState U :=
  ⟨fun _ => none, 0, fun _ => CombatManager.empty, fun _ => false⟩

/-- The reference `a` holds for `b` among those of one kind. -/
def find (s : CombatState U) (isPvP : Bool) (a b : U) : Option RefId :=
  ((s.manager a).refs isPvP).lookup b

def setManager (s : CombatState U) (a : U) (m : CombatManager U) : CombatState U :=
  { s with manager := Function.update s.manager a m }

def setRef (s : CombatState U) (r : RefId) (ref : CombatReference U) :
    CombatState U :=
  { s with refs := Function.update s.refs r (some ref) }

/-- `delete this`. -/
def freeRef (s : CombatState U) (r : RefId) : CombatState U :=
  { s with refs := Function.update s.refs r none }

def putReference (s : CombatState U) (a guid : U) (r : RefId) (isPvP : Bool) :
    CombatState U :=
  s.setManager a ((s.manager a).putReference guid r isPvP)

def purgeReference (s : CombatState U) (a guid : U) (isPvP : Bool) :
    CombatState U :=
  s.setManager a ((s.manager a).purgeReference guid isPvP)

def hasPvECombat (s : CombatState U) (a : U) : Bool :=
  !(s.manager a).pveRefs.entries.isEmpty

/-- Some PvP reference of `a` is not suppressed on `a`'s side. -/
def hasPvPCombat (s : CombatState U) (a : U) : Bool :=
  (s.manager a).pvpRefs.entries.any fun e =>
    match s.refs e.2 with
    | none => false
    | some ref => !ref.isSuppressedFor a

def hasCombat (s : CombatState U) (a : U) : Bool :=
  s.hasPvECombat a || s.hasPvPCombat a

/-- `UpdateOwnerCombatState`; its answer only selects AI callbacks. -/
def updateOwnerCombatState (s : CombatState U) (a : U) : CombatState U :=
  if s.hasCombat a = s.inCombat a then s
  else { s with inCombat := Function.update s.inCombat a (s.hasCombat a) }

/-- The part of `CombatReference::EndCombat` after the threat is cleared. -/
def endCombat (s : CombatState U) (r : RefId) : CombatState U :=
  match s.refs r with
  | none => s
  | some ref =>
      let s := s.purgeReference ref.first ref.second ref.isPvP
      let s := s.purgeReference ref.second ref.first ref.isPvP
      let s := s.updateOwnerCombatState ref.first
      let s := s.updateOwnerCombatState ref.second
      s.freeRef r

/-- `PvPCombatReference::Refresh`. -/
def refresh (s : CombatState U) (r : RefId) : CombatState U :=
  match s.refs r with
  | none => s
  | some ref =>
      match ref.pvp with
      | none => s
      | some p =>
          let p := { p with combatTimer := pvpCombatTimeout }
          let s := s.setRef r { ref with pvp := some p }
          let q := { p with suppressFirst := false }
          let s :=
            if p.suppressFirst then
              (s.setRef r { ref with pvp := some q }).updateOwnerCombatState ref.first
            else s
          if q.suppressSecond then
            (s.setRef r { ref with pvp := some { q with suppressSecond := false } })
              |>.updateOwnerCombatState ref.second
          else s

/-- `PvPCombatReference::SuppressFor`. -/
def suppressFor (s : CombatState U) (r : RefId) (who : U) : CombatState U :=
  match s.refs r with
  | none => s
  | some ref => (s.setRef r (ref.suppress who)).updateOwnerCombatState who

/-- `CombatManager::SetInCombatWith` without its answer. -/
def setInCombatWith (view : UnitView U) (s : CombatState U) (a who : U) :
    CombatState U :=
  match s.find true a who with
  | some r => s.refresh r
  | none =>
      if (s.find false a who).isSome then s
      else if !canBeginCombat view a who then s
      else
        let isPvP := view.isControlledByPlayer a && view.isControlledByPlayer who
        let ref : CombatReference U :=
          ⟨a, who, if isPvP then some ⟨pvpCombatTimeout, false, false⟩ else none⟩
        let r := s.nextRef
        let s := { s with refs := Function.update s.refs r (some ref), nextRef := r + 1 }
        let s := s.putReference a who r isPvP
        let s := s.putReference who a r isPvP
        let s := s.updateOwnerCombatState a
        s.updateOwnerCombatState who

/-- The loop of `CombatManager::SuppressPvPCombat`. -/
def suppressAll (a : U) : List (Sigma fun _ : U => RefId) → CombatState U →
    CombatState U
  | [], s => s
  | ⟨_, r⟩ :: rest, s =>
      match s.refs r with
      | none => suppressAll a rest s
      | some ref => suppressAll a rest (s.setRef r (ref.suppress a))

/-- `CombatManager::SuppressPvPCombat`. -/
def suppressPvPCombat (s : CombatState U) (a : U) : CombatState U :=
  (suppressAll a (s.manager a).pvpRefs.entries s).updateOwnerCombatState a

end CombatState

end Sunstrider.Combat
