import Sunstrider.Combat.CombatManager
import Sunstrider.Lib.MutableHeap

/-!
# Threat lists

A `ThreatReference` says that a creature (its owner) may attack a victim, and
how much it would like to. One object sits in three containers at once: the
owner's heap, the owner's victim-keyed map and the victim's
`_threatenedByMe`; two more pointers of the owner, the current victim and the
fixate target, may name it as well.

The heap is boost's mutable heap, which is not part of the repository: the
model is stated over any `MutableHeap`. Its comparator reads the references
through the pointers, so here it is computed from the state at every call.
Every write to a field the comparator reads, and every notification the code
sends to the heap, also goes to `log`, a ghost list the code does not have
and no function reads.

Threat is a C++ `float`. `ThreatAmount` asks of it what rounded arithmetic on
finite values gives, monotonicity, and not the exactness it does not.
-/

namespace Sunstrider.Combat

open Lib MutableHeap

/-- The arithmetic threat is counted in. -/
class ThreatAmount (F : Type) extends LinearOrder F, Zero F, One F, Add F, Sub F,
    Mul F, IntCast F where
  mul_one' (x : F) : x * 1 = x
  zero_mul' (x : F) : 0 * x = 0
  le_add {x y : F} : 0 ≤ y → x ≤ x + y
  add_le {x y : F} : y ≤ 0 → x + y ≤ x
  add_mono {x x' y y' : F} : x ≤ x' → y ≤ y' → x + y ≤ x' + y'
  mul_nonneg' {x y : F} : 0 ≤ x → 0 ≤ y → 0 ≤ x * y
  le_mul {x y : F} : 0 ≤ x → 1 ≤ y → x ≤ x * y
  mul_le {x y : F} : 0 ≤ x → y ≤ 1 → x * y ≤ x
  intCast_mono {m n : Int} : m ≤ n → (m : F) ≤ (n : F)

/-- Exact arithmetic is one instance. -/
scoped instance : ThreatAmount Int where
  mul_one' := Int.mul_one
  zero_mul' := Int.zero_mul
  le_add h := by omega
  add_le h := by omega
  add_mono h h' := by omega
  mul_nonneg' := Int.mul_nonneg
  le_mul h h' := by
    have := Int.mul_le_mul_of_nonneg_left h' h
    omega
  mul_le h h' := by
    have := Int.mul_le_mul_of_nonneg_left h' h
    omega
  intCast_mono h := h

scoped instance : ThreatAmount Rat where
  mul_one' := mul_one
  zero_mul' := zero_mul
  le_add h := le_add_of_nonneg_right h
  add_le h := add_le_of_nonpos_right h
  add_mono h h' := add_le_add h h'
  mul_nonneg' := mul_nonneg
  le_mul h h' := le_mul_of_one_le_right h h'
  mul_le h h' := mul_le_of_le_one_right h h'
  intCast_mono h := by exact_mod_cast h

variable {U : Type} [DecidableEq U] {F : Type} [ThreatAmount F]
variable {H : Type} [MutableHeap H RefId]

/-- `ThreatReference::OnlineState`. -/
inductive OnlineState
  | offline
  | suppressed
  | online
deriving DecidableEq, Repr

def OnlineState.toNat : OnlineState → Nat
  | .offline => 0
  | .suppressed => 1
  | .online => 2

/-- `TAUNT_STATE_DETAUNT`, `TAUNT_STATE_NONE` and `TAUNT_STATE_TAUNT`; later
taunts count up from the last. -/
def tauntStateDetaunt : Int := -1

def tauntStateNone : Int := 0

def tauntStateTaunt : Int := 1

structure ThreatReference (U F : Type) where
  owner : U
  victim : U
  online : OnlineState
  baseAmount : F
  tempModifier : Int
  taunted : Int

namespace ThreatReference

def getThreat (ref : ThreatReference U F) : F :=
  max (ref.baseAmount + (ref.tempModifier : F)) 0

def isOnline (ref : ThreatReference U F) : Bool := ref.online = .online

def isAvailable (ref : ThreatReference U F) : Bool := ref.online ≠ .offline

def isSuppressed (ref : ThreatReference U F) : Bool := ref.online = .suppressed

def isOffline (ref : ThreatReference U F) : Bool := ref.online = .offline

def isTaunting (ref : ThreatReference U F) : Bool :=
  decide (tauntStateTaunt ≤ ref.taunted)

end ThreatReference

/-- `ThreatManager::CompareReferencesLT`. -/
def compareReferencesLT (a b : ThreatReference U F) (aWeight : F) : Bool :=
  if a.online ≠ b.online then a.online.toNat < b.online.toNat
  else if a.taunted ≠ b.taunted then a.taunted < b.taunted
  else a.getThreat * aWeight < b.getThreat

/-- Which way a heap notification points. -/
inductive Direction
  | increased
  | decreased
deriving DecidableEq, Repr

/-- What happened to the heaps: a comparator field written, or a
`HeapNotifyIncreased`/`HeapNotifyDecreased`. -/
inductive HeapEvent (U F : Type)
  | changed (r : RefId) (old new : ThreatReference U F)
  | notified (r : RefId) (dir : Direction)

/-- The fields of a `ThreatManager` the combat and threat rules read. -/
structure ThreatManager (U H : Type) where
  ownerCanHaveThreatList : Bool
  ownerEngaged : Bool
  needClientUpdate : Bool
  sortedThreatList : H
  myThreatListEntries : RefMap U
  currentVictimRef : Option RefId
  fixateRef : Option RefId
  threatenedByMe : RefMap U
  /-- `_redirectInfo`: redirection targets and percentages. -/
  redirectInfo : List (U × Nat)

/-- The part of the world the threat managers own. -/
structure ThreatState (U F H : Type) where
  refs : RefId → Option (ThreatReference U F)
  nextRef : RefId
  manager : U → ThreatManager U H
  log : List (HeapEvent U F)

/-- What the threat rules read from the units around them, besides what the
combat rules read: `ShouldBeOffline` and `ShouldBeSuppressed` by their
conditions (owner first), the auras, and the object accessor. -/
structure ThreatView (U F : Type) extends UnitView U where
  canSeeOrDetect : U → U → Bool
  isTargetAcceptable : U → U → Bool
  canCreatureAttack : U → U → Bool
  isTrigger : U → Bool
  isImmunedToMelee : U → U → Bool
  hasConfuse : U → Bool
  hasBreakableStun : U → Bool
  hasDetauntFrom : U → U → Bool
  isWithinMeleeRange : U → U → Bool
  /-- `ObjectAccessor::GetUnit` finds the unit. -/
  canGetUnit : U → Bool
  /-- `CalculateModifiedThreat`: spell modifiers and school auras. -/
  calculateModifiedThreat : F → U → F
  /-- `CalculatePct`. -/
  calculatePct : F → Nat → F
  /-- What the constructor of a reference reads as `_taunted` before that
  member is initialised. -/
  uninitialisedTaunt : Int

/-- The two attributes of a spell that `AddThreat` looks at. -/
structure SpellThreatInfo where
  noThreat : Bool
  noInitialAggro : Bool
deriving DecidableEq, Repr

/-- `ThreatReference::FlagsAllowFighting`. -/
def flagsAllowFighting (view : ThreatView U F) (a b : U) : Bool :=
  if view.isTrigger a then false
  else if view.isPlayerControlled a then !view.isImmuneToPC b
  else !view.isImmuneToNPC b

/-- `ThreatReference::ShouldBeOffline`. -/
def shouldBeOffline (view : ThreatView U F) (owner victim : U) : Bool :=
  !view.canSeeOrDetect owner victim ||
  (!view.isTargetAcceptable owner victim || !view.canCreatureAttack owner victim) ||
  (!flagsAllowFighting view owner victim || !flagsAllowFighting view victim owner)

/-- `ThreatReference::ShouldBeSuppressed`, given `IsTaunting()`. -/
def shouldBeSuppressed (view : ThreatView U F) (owner victim : U)
    (isTaunting : Bool) : Bool :=
  !isTaunting && (view.isImmunedToMelee owner victim || view.hasConfuse victim ||
    view.hasBreakableStun victim)

/-- The weights `1.1f` and `1.3f`. -/
structure VictimWeights (F : Type) where
  w110 : F
  w130 : F

namespace ThreatState

def init (canHaveThreatList : U → Bool) : ThreatState U F H where
  refs _ := none
  nextRef := 0
  manager a :=
    { ownerCanHaveThreatList := canHaveThreatList a
      ownerEngaged := false
      needClientUpdate := false
      sortedThreatList := empty
      myThreatListEntries := ∅
      currentVictimRef := none
      fixateRef := none
      threatenedByMe := ∅
      redirectInfo := [] }
  log := []

def setManager (t : ThreatState U F H) (a : U) (m : ThreatManager U H) :
    ThreatState U F H :=
  { t with manager := Function.update t.manager a m }

/-- The heap's comparator, as the references stand. -/
def less (t : ThreatState U F H) (r₁ r₂ : RefId) : Bool :=
  match t.refs r₁, t.refs r₂ with
  | some a, some b => compareReferencesLT a b 1
  | none, some _ => true
  | _, none => false

/-- Write the fields of a live reference. -/
def writeRef (t : ThreatState U F H) (r : RefId) (old new : ThreatReference U F) :
    ThreatState U F H :=
  { t with
    refs := Function.update t.refs r (some new)
    log := t.log ++ [.changed r old new] }

/-- `HeapNotifyIncreased` and `HeapNotifyDecreased`. -/
def heapNotify (t : ThreatState U F H) (owner : U) (r : RefId) (dir : Direction) :
    ThreatState U F H :=
  let m := t.manager owner
  let h := match dir with
    | .increased => increase t.less m.sortedThreatList r
    | .decreased => decrease t.less m.sortedThreatList r
  { t.setManager owner { m with sortedThreatList := h } with
    log := t.log ++ [.notified r dir] }

/-- A write and the notification after it. -/
def writeNotify (t : ThreatState U F H) (r : RefId) (old new : ThreatReference U F)
    (dir : Direction) : ThreatState U F H :=
  (t.writeRef r old new).heapNotify old.owner r dir

def setNeedClientUpdate (t : ThreatState U F H) (a : U) : ThreatState U F H :=
  t.setManager a { t.manager a with needClientUpdate := true }

/-- `ThreatReference::AddThreat`. -/
def refAddThreat (t : ThreatState U F H) (r : RefId) (amount : F) :
    ThreatState U F H :=
  match t.refs r with
  | none => t
  | some ref =>
      if amount = 0 then t
      else
        let new := { ref with baseAmount := max (ref.baseAmount + amount) 0 }
        let dir := if 0 < amount then Direction.increased else .decreased
        (t.writeNotify r ref new dir).setNeedClientUpdate ref.owner

/-- `ThreatReference::ScaleThreat`. -/
def refScaleThreat (t : ThreatState U F H) (r : RefId) (factor : F) :
    ThreatState U F H :=
  match t.refs r with
  | none => t
  | some ref =>
      if factor = 1 then t
      else
        let new := { ref with baseAmount := ref.baseAmount * factor }
        let dir := if 1 < factor then Direction.increased else .decreased
        (t.writeNotify r ref new dir).setNeedClientUpdate ref.owner

/-- `ThreatReference::UpdateOffline`. -/
def updateOffline (view : ThreatView U F) (t : ThreatState U F H) (r : RefId) :
    ThreatState U F H :=
  match t.refs r with
  | none => t
  | some ref =>
      let off := shouldBeOffline view ref.owner ref.victim
      if off = ref.isOffline then t
      else if off then t.writeNotify r ref { ref with online := .offline } .decreased
      else
        let state :=
          if shouldBeSuppressed view ref.owner ref.victim ref.isTaunting then
            OnlineState.suppressed
          else .online
        t.writeNotify r ref { ref with online := state } .increased

/-- `ThreatReference::UpdateTauntState`. -/
def updateTauntState (view : ThreatView U F) (t : ThreatState U F H) (r : RefId)
    (state : Int) : ThreatState U F H :=
  match t.refs r with
  | none => t
  | some ref =>
      let state :=
        if state < tauntStateTaunt ∧ view.hasDetauntFrom ref.victim ref.owner then
          tauntStateDetaunt
        else state
      if state = ref.taunted then t
      else
        let dir := if state < ref.taunted then Direction.decreased else .increased
        (t.writeNotify r ref { ref with taunted := state } dir).setNeedClientUpdate
          ref.owner

/-- The body of the loop of `EvaluateSuppressed`. -/
def evaluateSuppressedRef (view : ThreatView U F) (canExpire : Bool)
    (t : ThreatState U F H) (r : RefId) : ThreatState U F H :=
  match t.refs r with
  | none => t
  | some ref =>
      let sup := shouldBeSuppressed view ref.owner ref.victim ref.isTaunting
      if ref.isOnline && sup then
        t.writeNotify r ref { ref with online := .suppressed } .decreased
      else if canExpire && ref.isSuppressed && !sup then
        t.writeNotify r ref { ref with online := .online } .increased
      else t

/-- Run a reference operation over the entries of a map, in its order. -/
def forEach (f : ThreatState U F H → RefId → ThreatState U F H)
    (l : List (Sigma fun _ : U => RefId)) (t : ThreatState U F H) :
    ThreatState U F H :=
  l.foldl (fun t e => f t e.2) t

/-- `ThreatManager::EvaluateSuppressed`. -/
def evaluateSuppressed (view : ThreatView U F) (t : ThreatState U F H) (a : U)
    (canExpire : Bool) : ThreatState U F H :=
  t.forEach (evaluateSuppressedRef view canExpire) (t.manager a).threatenedByMe.entries

/-- The map `TauntUpdate` builds from its taunt auras, last one highest. -/
def tauntStates (casters : List U) : AList fun _ : U => Int :=
  (casters.foldl (fun (acc : Int × AList fun _ : U => Int) c =>
    (acc.1 + 1, acc.2.insert c acc.1)) (tauntStateTaunt, ∅)).2

/-- `ThreatManager::TauntUpdate`; `casters` are the casters of the owner's
taunt auras in order. -/
def tauntUpdate (view : ThreatView U F) (t : ThreatState U F H) (a : U)
    (casters : List U) : ThreatState U F H :=
  let states := tauntStates casters
  let t := (t.manager a).myThreatListEntries.entries.foldl (fun t e =>
    t.updateTauntState view e.2 ((states.lookup e.1).getD tauntStateNone)) t
  t.evaluateSuppressed view a true

/-- The body of the loop of `UpdateMyTempModifiers`. -/
def tempModifierRef (mod : Int) (dir : Direction) (t : ThreatState U F H)
    (r : RefId) : ThreatState U F H :=
  match t.refs r with
  | none => t
  | some ref => t.writeNotify r ref { ref with tempModifier := mod } dir

/-- The direction `UpdateMyTempModifiers` reads off the first reference. -/
def tempModifierGuess (t : ThreatState U F H) (a : U) (mod : Int) : Direction :=
  match (t.manager a).threatenedByMe.entries with
  | [] => .decreased
  | ⟨_, r⟩ :: _ =>
      match t.refs r with
      | none => .decreased
      | some ref => if ref.tempModifier < mod then .increased else .decreased

/-- `ThreatManager::UpdateMyTempModifiers`; `mod` is the sum over the auras. -/
def updateMyTempModifiers (t : ThreatState U F H) (a : U) (mod : Int) :
    ThreatState U F H :=
  t.forEach (tempModifierRef mod (t.tempModifierGuess a mod))
    (t.manager a).threatenedByMe.entries

/-- `ThreatManager::ScaleThreat`. -/
def scaleThreat (t : ThreatState U F H) (a target : U) (factor : F) :
    ThreatState U F H :=
  match (t.manager a).myThreatListEntries.lookup target with
  | none => t
  | some r => t.refScaleThreat r (max factor 0)

/-- `ThreatManager::ResetAllThreat`. -/
def resetAllThreat (t : ThreatState U F H) (a : U) : ThreatState U F H :=
  t.forEach (fun t r => t.refScaleThreat r 0) (t.manager a).myThreatListEntries.entries

/-- The scan at the end of `ReselectVictim`. -/
def scanOrdered (view : ThreatView U F) (t : ThreatState U F H) (owner : U)
    (old : RefId) (oldRef : ThreatReference U F) (w110 : F) :
    List RefId → Option RefId
  | [] => none
  | next :: rest =>
      if next = old then some next
      else
        match t.refs next with
        | none => none
        | some ref =>
            if !compareReferencesLT oldRef ref w110 then some old
            else if view.isWithinMeleeRange owner ref.victim then some next
            else scanOrdered view t owner old oldRef w110 rest

/-- `ThreatManager::ReselectVictim` after its `UpdateOffline` loop. -/
def chooseVictim (view : ThreatView U F) (w : VictimWeights F)
    (t : ThreatState U F H) (a : U) : Option RefId :=
  let m := t.manager a
  let fixated := match m.fixateRef with
    | none => none
    | some r => match t.refs r with
      | none => none
      | some ref => if ref.isAvailable then some r else none
  match fixated with
  | some r => some r
  | none =>
      match top m.sortedThreatList with
      | none => none
      | some highest =>
          match t.refs highest with
          | none => none
          | some high =>
              if !high.isAvailable then none
              else
                match m.currentVictimRef with
                | none => some highest
                | some old =>
                    match t.refs old with
                    | none => some highest
                    | some oldRef =>
                        if oldRef.isOffline || highest = old then some highest
                        else if !compareReferencesLT oldRef high w.w110 then some old
                        else if compareReferencesLT oldRef high w.w130 then some highest
                        else if view.isWithinMeleeRange a high.victim then some highest
                        else scanOrdered view t a old oldRef w.w110
                          (ordered t.less m.sortedThreatList)

/-- `ThreatManager::UpdateVictim` (and `ReselectVictim` before it). -/
def updateVictim (view : ThreatView U F) (w : VictimWeights F)
    (t : ThreatState U F H) (a : U) : ThreatState U F H :=
  if (elems (t.manager a).sortedThreatList).isEmpty then
    let m := t.manager a
    t.setManager a { m with currentVictimRef := none, needClientUpdate := false }
  else
    let t := t.forEach (updateOffline view) (t.manager a).myThreatListEntries.entries
    let newVictim := t.chooseVictim view w a
    let m := t.manager a
    t.setManager a { m with currentVictimRef := newVictim, needClientUpdate := false }

/-- `ThreatManager::PutThreatListRef`. -/
def putThreatListRef (t : ThreatState U F H) (a guid : U) (r : RefId) :
    ThreatState U F H :=
  let m := t.manager a
  t.setManager a
    { m with
      needClientUpdate := true
      myThreatListEntries := m.myThreatListEntries.insert guid r
      sortedThreatList := push t.less m.sortedThreatList r }

/-- `ThreatManager::PurgeThreatListRef`. -/
def purgeThreatListRef (t : ThreatState U F H) (a guid : U) : ThreatState U F H :=
  let m := t.manager a
  match m.myThreatListEntries.lookup guid with
  | none => t
  | some r =>
      t.setManager a
        { m with
          myThreatListEntries := m.myThreatListEntries.erase guid
          sortedThreatList := erase t.less m.sortedThreatList r
          fixateRef := if m.fixateRef = some r then none else m.fixateRef
          currentVictimRef :=
            if m.currentVictimRef = some r then none else m.currentVictimRef }

/-- `ThreatManager::PutThreatenedByMeRef`. -/
def putThreatenedByMeRef (t : ThreatState U F H) (a guid : U) (r : RefId) :
    ThreatState U F H :=
  let m := t.manager a
  t.setManager a { m with threatenedByMe := m.threatenedByMe.insert guid r }

/-- `ThreatManager::PurgeThreatenedByMeRef`. -/
def purgeThreatenedByMeRef (t : ThreatState U F H) (a guid : U) :
    ThreatState U F H :=
  let m := t.manager a
  t.setManager a { m with threatenedByMe := m.threatenedByMe.erase guid }

/-- `ThreatReference::UnregisterAndFree`. -/
def unregisterAndFree (t : ThreatState U F H) (r : RefId) : ThreatState U F H :=
  match t.refs r with
  | none => t
  | some ref =>
      let t := t.purgeThreatListRef ref.owner ref.victim
      let t := t.purgeThreatenedByMeRef ref.victim ref.owner
      { t with refs := Function.update t.refs r none }

/-- `ThreatManager::ClearThreat(ThreatReference*)`. -/
def clearThreatRef (view : ThreatView U F) (w : VictimWeights F)
    (t : ThreatState U F H) (a : U) (r : RefId) : ThreatState U F H :=
  let t := t.unregisterAndFree r
  if (t.manager a).currentVictimRef = none then t.updateVictim view w a else t

/-- `ThreatManager::ClearThreat(Unit*)`. -/
def clearThreat (view : ThreatView U F) (w : VictimWeights F)
    (t : ThreatState U F H) (a target : U) : ThreatState U F H :=
  match (t.manager a).myThreatListEntries.lookup target with
  | none => t
  | some r => t.clearThreatRef view w a r

/-- The `do ... while` of `ClearAllThreat`, `n` rounds of it at most. -/
def clearAllLoop (a : U) : Nat → ThreatState U F H → ThreatState U F H
  | 0, t => t
  | n + 1, t =>
      match (t.manager a).myThreatListEntries.entries with
      | [] => t
      | ⟨_, r⟩ :: _ => clearAllLoop a n (t.unregisterAndFree r)

/-- `ThreatManager::ClearAllThreat`. -/
def clearAllThreat (t : ThreatState U F H) (a : U) : ThreatState U F H :=
  let t := t.setManager a { t.manager a with ownerEngaged := false }
  clearAllLoop a (t.manager a).myThreatListEntries.entries.length t

/-- The loop of `RemoveMeFromThreatLists`, `n` rounds of it at most. -/
def removeMeLoop (view : ThreatView U F) (w : VictimWeights F) (a : U) :
    Nat → ThreatState U F H → ThreatState U F H
  | 0, t => t
  | n + 1, t =>
      match (t.manager a).threatenedByMe.entries with
      | [] => t
      | ⟨_, r⟩ :: _ =>
          match t.refs r with
          | none => t
          | some ref => removeMeLoop view w a n (t.clearThreat view w ref.owner a)

/-- `ThreatManager::RemoveMeFromThreatLists`. -/
def removeMeFromThreatLists (view : ThreatView U F) (w : VictimWeights F)
    (t : ThreatState U F H) (a : U) : ThreatState U F H :=
  removeMeLoop view w a (t.manager a).threatenedByMe.entries.length t

/-- `ThreatManager::FixateTarget`; `none` is the null pointer. -/
def fixateTarget (t : ThreatState U F H) (a : U) (target : Option U) :
    ThreatState U F H :=
  let m := t.manager a
  t.setManager a
    { m with fixateRef := target.bind fun v => m.myThreatListEntries.lookup v }

/-- A new reference on `a`'s list for `target`, in all its containers. -/
def createThreatRef (view : ThreatView U F) (t : ThreatState U F H)
    (a target : U) : ThreatState U F H :=
  let ref : ThreatReference U F :=
    { owner := a
      victim := target
      online :=
        if shouldBeSuppressed view a target
            (decide (tauntStateTaunt ≤ view.uninitialisedTaunt)) then .suppressed
        else .online
      baseAmount := 0
      tempModifier := 0
      taunted := tauntStateNone }
  let r := t.nextRef
  let t := { t with refs := Function.update t.refs r (some ref), nextRef := r + 1 }
  (t.putThreatListRef a target r).putThreatenedByMeRef target a r

/-- The part of `ThreatManager::AddThreat` that runs once the two units are
known to be in combat. -/
def applyThreat (view : ThreatView U F) (w : VictimWeights F)
    (t : ThreatState U F H) (a target : U) (amount : F) : ThreatState U F H :=
  match (t.manager a).myThreatListEntries.lookup target with
  | some r =>
      match t.refs r with
      | none => t
      | some ref =>
          let t :=
            if ref.isSuppressed &&
                !shouldBeSuppressed view ref.owner ref.victim ref.isTaunting then
              t.writeNotify r ref { ref with online := .online } .increased
            else t
          match t.refs r with
          | none => t
          | some ref => if ref.isOnline then t.refAddThreat r amount else t
  | none =>
      let r := t.nextRef
      let t := (t.createThreatRef view a target).updateOffline view r
      let t := match t.refs r with
        | none => t
        | some ref => if ref.isOnline then t.refAddThreat r amount else t
      if (t.manager a).ownerEngaged then t
      else
        (t.setManager a { t.manager a with ownerEngaged := true }).updateVictim view w a

end ThreatState

end Sunstrider.Combat
