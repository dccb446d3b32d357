import Sunstrider.Combat.ThreatManager

/-!
# The combat system

`CombatManager` and `ThreatManager` of one unit call into those of another,
and into each other: ending combat clears threat, adding threat starts
combat. A `World` holds both halves for all units, and `step` is one call of
the public interface. A run is a list of calls, each with the view of the
surrounding world it happens under; the units, their number and the order of
the calls are free.

Two loops of the source run "while the map is not empty". They take the size
of the map as their bound here; that the bound is enough is a theorem about
them, not an assumption.
-/

namespace Sunstrider.Combat

open Lib

variable {U : Type} [DecidableEq U] {F : Type} [ThreatAmount F]
variable {H : Type} [MutableHeap H RefId]

structure World (U F H : Type) where
  combat : CombatState U
  threat : ThreatState U F H

/-- What one call sees of the world around the two managers. -/
structure Env (U F : Type) where
  view : ThreatView U F
  weights : VictimWeights F

namespace World

def init (canHaveThreatList : U → Bool) : World U F H :=
  ⟨CombatState.init, ThreatState.init canHaveThreatList⟩

def mapCombat (s : World U F H) (f : CombatState U → CombatState U) : World U F H :=
  { s with combat := f s.combat }

def mapThreat (s : World U F H)
    (f : ThreatState U F H → ThreatState U F H) : World U F H :=
  { s with threat := f s.threat }

/-- `CombatManager::SetInCombatWith`, without its answer: callers ask
`isInCombatWith` afterwards, which is what it returns. -/
def setInCombatWith (env : Env U F) (s : World U F H) (a who : U) : World U F H :=
  s.mapCombat fun c => c.setInCombatWith env.view.toUnitView a who

def isInCombatWith (s : World U F H) (a who : U) : Bool :=
  (s.combat.manager a).isInCombatWith who

/-- `CombatReference::EndCombat`. -/
def endCombat (env : Env U F) (s : World U F H) (r : RefId) : World U F H :=
  match s.combat.refs r with
  | none => s
  | some ref =>
      let s := s.mapThreat fun t => t.clearThreat env.view env.weights ref.first ref.second
      let s := s.mapThreat fun t => t.clearThreat env.view env.weights ref.second ref.first
      s.mapCombat fun c => c.endCombat r

/-- The loop of `CombatManager::Update`: an expired reference leaves the
owner's map before `EndCombat`. -/
def updateLoop (env : Env U F) (a : U) (tdiff : Nat) :
    List (Sigma fun _ : U => RefId) → World U F H → World U F H
  | [], s => s
  | ⟨guid, r⟩ :: rest, s =>
      match s.combat.refs r with
      | none => updateLoop env a tdiff rest s
      | some ref =>
          if ref.first = a then
            match ref.update tdiff with
            | some ref' =>
                updateLoop env a tdiff rest (s.mapCombat fun c => c.setRef r ref')
            | none =>
                updateLoop env a tdiff rest
                  ((s.mapCombat fun c => c.purgeReference a guid true).endCombat env r)
          else updateLoop env a tdiff rest s

/-- `CombatManager::Update`. -/
def combatUpdate (env : Env U F) (s : World U F H) (a : U) (tdiff : Nat) :
    World U F H :=
  updateLoop env a tdiff (s.combat.manager a).pvpRefs.entries s

/-- One of the two loops of `EndCombatBeyondRange`. -/
def beyondRangeLoop (env : Env U F) (a : U) (isPvP : Bool) :
    List (Sigma fun _ : U => RefId) → World U F H → World U F H
  | [], s => s
  | ⟨guid, r⟩ :: rest, s =>
      match s.combat.refs r with
      | none => beyondRangeLoop env a isPvP rest s
      | some ref =>
          if !env.view.isWithinDistInMap ref.first ref.second then
            beyondRangeLoop env a isPvP rest
              ((s.mapCombat fun c => c.purgeReference a guid isPvP).endCombat env r)
          else beyondRangeLoop env a isPvP rest s

/-- `CombatManager::EndCombatBeyondRange`; the view's distance test is the
one for the range given. -/
def endCombatBeyondRange (env : Env U F) (s : World U F H) (a : U)
    (includingPvP : Bool) : World U F H :=
  let s := beyondRangeLoop env a false (s.combat.manager a).pveRefs.entries s
  if !includingPvP then s
  else beyondRangeLoop env a true (s.combat.manager a).pvpRefs.entries s

/-- `while (!refs.empty()) refs.begin()->second->EndCombat()`, `n` rounds of
it at most. -/
def endAllLoop (env : Env U F) (a : U) (isPvP : Bool) : Nat → World U F H → World U F H
  | 0, s => s
  | n + 1, s =>
      match ((s.combat.manager a).refs isPvP).entries with
      | [] => s
      | ⟨_, r⟩ :: _ => endAllLoop env a isPvP n (s.endCombat env r)

/-- `CombatManager::EndAllPvECombat`. -/
def endAllPvECombat (env : Env U F) (s : World U F H) (a : U) : World U F H :=
  let s := s.mapThreat fun t => t.removeMeFromThreatLists env.view env.weights a
  let s := s.mapThreat fun t => t.clearAllThreat a
  endAllLoop env a false (s.combat.manager a).pveRefs.entries.length s

/-- `CombatManager::EndAllPvPCombat`. -/
def endAllPvPCombat (env : Env U F) (s : World U F H) (a : U) : World U F H :=
  endAllLoop env a true (s.combat.manager a).pvpRefs.entries.length s

/-- One of the two loops of `InheritCombatStatesFrom`. -/
def inheritLoop (env : Env U F) (a who : U) :
    List (Sigma fun _ : U => RefId) → World U F H → World U F H
  | [], s => s
  | ⟨guid, r⟩ :: rest, s =>
      if s.isInCombatWith a guid then inheritLoop env a who rest s
      else
        match s.combat.refs r with
        | none => inheritLoop env a who rest s
        | some ref =>
            let target := ref.getOther who
            if (env.view.isImmuneToPC a && env.view.isPlayerControlled target) ||
                (env.view.isImmuneToNPC a && !env.view.isPlayerControlled target) then
              inheritLoop env a who rest s
            else inheritLoop env a who rest (s.setInCombatWith env a target)

/-- `CombatManager::InheritCombatStatesFrom`. -/
def inheritCombatStatesFrom (env : Env U F) (s : World U F H) (a who : U) :
    World U F H :=
  let s := inheritLoop env a who (s.combat.manager who).pveRefs.entries s
  inheritLoop env a who (s.combat.manager who).pvpRefs.entries s

/-- The redirect targets `AddThreat` puts in combat for an owner that cannot
have a threat list. -/
def redirectCombat (env : Env U F) (a : U) : List (U × Nat) → World U F H → World U F H
  | [], s => s
  | (victim, _) :: rest, s =>
      if !s.isInCombatWith a victim && env.view.canGetUnit victim then
        redirectCombat env a rest (s.setInCombatWith env a victim)
      else redirectCombat env a rest s

/-- `Unit::IsEngaged`. -/
def isEngaged (s : World U F H) (a : U) : Bool :=
  let m := s.threat.manager a
  if m.ownerCanHaveThreatList then m.ownerEngaged else s.combat.inCombat a

/-- Step 1 of `AddThreat`: the spell attributes that make it do nothing. -/
def threatShortcut (s : World U F H) (a : U) (spell : Option SpellThreatInfo) : Bool :=
  match spell with
  | none => false
  | some sp => sp.noThreat || (!s.isEngaged a && sp.noInitialAggro)

/-- `AddThreat` for an owner without a threat list. -/
def addThreatNoList (env : Env U F) (s : World U F H) (a target : U) : World U F H :=
  let s := s.setInCombatWith env a target
  if s.isInCombatWith a target then
    redirectCombat env a (s.threat.manager target).redirectInfo s
  else s

/-- `AddThreat` from where combat is ensured. -/
def addThreatInCombat (env : Env U F) (s : World U F H) (a target : U) (amount : F) :
    World U F H :=
  let s := s.setInCombatWith env a target
  if s.isInCombatWith a target then
    s.mapThreat fun t => t.applyThreat env.view env.weights a target amount
  else s

/-- `AddThreat` with `ignoreModifiers` and `ignoreRedirects` set, as the
redirection loop calls it. -/
def addThreatRedirected (env : Env U F) (s : World U F H) (a target : U) (amount : F)
    (spell : Option SpellThreatInfo) : World U F H :=
  if s.threatShortcut a spell then s
  else if !(s.threat.manager a).ownerCanHaveThreatList then s.addThreatNoList env a target
  else s.addThreatInCombat env a target amount

/-- The redirection loop of `AddThreat`: every redirect target that is known
takes its share of `origAmount`; the rest is returned. -/
def redirectLoop (env : Env U F) (a : U) (origAmount : F)
    (spell : Option SpellThreatInfo) :
    List (U × Nat) → World U F H → F → World U F H × F
  | [], s, amount => (s, amount)
  | (victim, pct) :: rest, s, amount =>
      if ((s.threat.manager a).myThreatListEntries.lookup victim).isSome ||
          env.view.canGetUnit victim then
        let share := env.view.calculatePct origAmount pct
        redirectLoop env a origAmount spell rest
          (s.addThreatRedirected env a victim share spell) (amount - share)
      else redirectLoop env a origAmount spell rest s amount

/-- `ThreatManager::AddThreat`. -/
def addThreat (env : Env U F) (s : World U F H) (a target : U) (amount : F)
    (spell : Option SpellThreatInfo) (ignoreModifiers ignoreRedirects : Bool) :
    World U F H :=
  if s.threatShortcut a spell then s
  else if !(s.threat.manager a).ownerCanHaveThreatList then s.addThreatNoList env a target
  else
    let amount :=
      if ignoreModifiers then amount else env.view.calculateModifiedThreat amount target
    let sa :=
      if !ignoreRedirects && decide (0 < amount) then
        redirectLoop env a amount spell (s.threat.manager target).redirectInfo s amount
      else (s, amount)
    sa.1.addThreatInCombat env a target sa.2

end World

/-- The calls. References are named by their unit and the key they are under
in that unit's map. -/
inductive Op (U F : Type)
  | setInCombatWith (a who : U)
  | endCombat (isPvP : Bool) (a b : U)
  | refresh (a b : U)
  | suppressFor (a b who : U)
  | combatUpdate (a : U) (tdiff : Nat)
  | suppressPvPCombat (a : U)
  | endCombatBeyondRange (a : U) (includingPvP : Bool)
  | endAllPvECombat (a : U)
  | endAllPvPCombat (a : U)
  | inheritCombatStatesFrom (a who : U)
  | addThreat (a target : U) (amount : F) (spell : Option SpellThreatInfo)
      (ignoreModifiers ignoreRedirects : Bool)
  | scaleThreat (a target : U) (factor : F)
  | resetAllThreat (a : U)
  | clearThreat (a target : U)
  | clearAllThreat (a : U)
  | removeMeFromThreatLists (a : U)
  | unregisterAndFree (a victim : U)
  | fixateTarget (a : U) (target : Option U)
  | updateVictim (a : U)
  | refAddThreat (a victim : U) (amount : F)
  | refScaleThreat (a victim : U) (factor : F)
  | refModifyThreatByPercent (a victim : U) (percent : Int)
  | updateOffline (a victim : U)
  | tauntUpdate (a : U) (casters : List U)
  | evaluateSuppressed (a : U) (canExpire : Bool)
  | updateMyTempModifiers (a : U) (mod : Int)
  | setRedirectInfo (a : U) (info : List (U × Nat))

/-- `0.01f * float(100 + percent)`. -/
def percentFactor (hundredth : F) (percent : Int) : F :=
  hundredth * ((100 + percent : Int) : F)

namespace World

/-- Run `f` on the reference `a` has on its threat list for `victim`. -/
def onThreatRef (s : World U F H) (a victim : U)
    (f : ThreatState U F H → RefId → ThreatState U F H) : World U F H :=
  match (s.threat.manager a).myThreatListEntries.lookup victim with
  | none => s
  | some r => s.mapThreat fun t => f t r

/-- Run `f` on the combat reference `a` holds for `b`. -/
def onCombatRef (s : World U F H) (isPvP : Bool) (a b : U)
    (f : World U F H → RefId → World U F H) : World U F H :=
  match s.combat.find isPvP a b with
  | none => s
  | some r => f s r

/-- One call. `hundredth` is the constant `0.01f`. -/
def step (hundredth : F) (env : Env U F) (s : World U F H) : Op U F → World U F H
  | .setInCombatWith a who => s.setInCombatWith env a who
  | .endCombat isPvP a b => s.onCombatRef isPvP a b fun s r => s.endCombat env r
  | .refresh a b => s.onCombatRef true a b fun s r => s.mapCombat fun c => c.refresh r
  | .suppressFor a b who =>
      s.onCombatRef true a b fun s r =>
        if who = a ∨ who = b then s.mapCombat fun c => c.suppressFor r who else s
  | .combatUpdate a tdiff => s.combatUpdate env a tdiff
  | .suppressPvPCombat a => s.mapCombat fun c => c.suppressPvPCombat a
  | .endCombatBeyondRange a includingPvP => s.endCombatBeyondRange env a includingPvP
  | .endAllPvECombat a => s.endAllPvECombat env a
  | .endAllPvPCombat a => s.endAllPvPCombat env a
  | .inheritCombatStatesFrom a who => s.inheritCombatStatesFrom env a who
  | .addThreat a target amount spell im ir => s.addThreat env a target amount spell im ir
  | .scaleThreat a target factor => s.mapThreat fun t => t.scaleThreat a target factor
  | .resetAllThreat a => s.mapThreat fun t => t.resetAllThreat a
  | .clearThreat a target =>
      s.mapThreat fun t => t.clearThreat env.view env.weights a target
  | .clearAllThreat a => s.mapThreat fun t => t.clearAllThreat a
  | .removeMeFromThreatLists a =>
      s.mapThreat fun t => t.removeMeFromThreatLists env.view env.weights a
  | .unregisterAndFree a victim => s.onThreatRef a victim fun t r => t.unregisterAndFree r
  | .fixateTarget a target => s.mapThreat fun t => t.fixateTarget a target
  | .updateVictim a => s.mapThreat fun t => t.updateVictim env.view env.weights a
  | .refAddThreat a victim amount =>
      s.onThreatRef a victim fun t r => t.refAddThreat r amount
  | .refScaleThreat a victim factor =>
      s.onThreatRef a victim fun t r => t.refScaleThreat r factor
  | .refModifyThreatByPercent a victim percent =>
      if percent = 0 then s
      else s.onThreatRef a victim fun t r =>
        t.refScaleThreat r (percentFactor hundredth percent)
  | .updateOffline a victim => s.onThreatRef a victim fun t r => t.updateOffline env.view r
  | .tauntUpdate a casters => s.mapThreat fun t => t.tauntUpdate env.view a casters
  | .evaluateSuppressed a canExpire =>
      s.mapThreat fun t => t.evaluateSuppressed env.view a canExpire
  | .updateMyTempModifiers a mod => s.mapThreat fun t => t.updateMyTempModifiers a mod
  | .setRedirectInfo a info =>
      s.mapThreat fun t => t.setManager a { t.manager a with redirectInfo := info }

/-- A run: calls one after the other. -/
def run (hundredth : F) (s : World U F H) (calls : List (Env U F × Op U F)) :
    World U F H :=
  calls.foldl (fun s c => s.step hundredth c.1 c.2) s

end World

end Sunstrider.Combat
