import Mathlib

/-!
# Spell history

A unit keeps one entry for each of its spells that is on cooldown, and for each
category of spells a pointer to an entry, the one that was added last for it.
Entries are added when a spell is cast, when a school is locked, when the
cooldowns come from the database and when those of before a duel come back; they
go when they are reset or, at the next update, once they are over.

A pointer is written here as the spell whose entry it was taken from: the entries
are nodes of a hash map and do not move. Following a pointer whose entry is gone
is `none`. Times are clock ticks.
-/

namespace Sunstrider.Spells

/-- Ticks of the system clock in a millisecond. -/
def msTicks : Int := 1000000

def inMilliseconds : Nat := 1000

def minute : Nat := 60

def month : Nat := 30 * 24 * 60 * minute

def maxSpellSchool : Nat := 7

structure CooldownEntry where
  spellId : Nat
  cooldownEnd : Int
  itemId : Nat
  categoryId : Nat
  categoryEnd : Int
  onHold : Bool
deriving DecidableEq, Repr, Inhabited

/-- What `CooldownEntry()` is before it is assigned. -/
def CooldownEntry.fresh : CooldownEntry := ⟨0, 0, 0, 0, 0, false⟩

abbrev CooldownStorage := AList fun _ : Nat => CooldownEntry

abbrev CategoryCooldownStorage := AList fun _ : Nat => Nat

/-- The fields of a spell that its cooldown depends on. -/
structure SpellInfo where
  id : Nat
  recoveryTime : Nat
  categoryRecoveryTime : Nat
  category : Nat
  isCooldownStartedOnEvent : Bool
  preventedBySilence : Bool
  schoolMask : Nat
  isAutoRepeatRangedSpell : Bool
  ignoresCategoryCooldownMods : Bool
deriving DecidableEq, Repr

structure ItemSpell where
  spellId : Nat
  spellCooldown : Int
  spellCategory : Nat
  spellCategoryCooldown : Int
deriving DecidableEq, Repr

/-- The stores a history looks up: spells, and the spells of item templates. -/
structure SpellStores where
  spellInfo : Nat → SpellInfo
  hasSpellInfo : Nat → Bool
  itemTemplate : Nat → Option (List ItemSpell)

/-- What a history asks its owner. `spellMod` is the cooldown modifier of the owner's
spell mod owner, when it has one. -/
structure Owner where
  isPlayer : Bool
  hasPlayerOwner : Bool
  playerOwnerHasSpell : Nat → Bool
  rangedAttackTime : Int
  spellMod : Option (Nat → Int → Int)
  cooldownMod : Int
  knownSpells : List Nat

structure SpellHistory where
  spellCooldowns : CooldownStorage
  spellCooldownsBeforeDuel : CooldownStorage
  categoryCooldowns : CategoryCooldownStorage
  schoolLockouts : Nat → Int
  globalCooldowns : AList fun _ : Nat => Int

/-- One row of the cooldown table; the times are in seconds. -/
structure CooldownRow where
  spellId : Nat
  itemId : Nat
  time : Nat
  categoryId : Nat
  categoryEnd : Nat
deriving DecidableEq, Repr

/-- `Clock::from_time_t`. -/
def fromTimeT (t : Nat) : Int := t * (inMilliseconds * msTicks)

/-- `GetCooldownDurations`: cooldown, category and category cooldown. -/
def getCooldownDurations (st : SpellStores) (spellInfo : SpellInfo) (itemId : Nat) :
    Int × Nat × Int :=
  -- some special item spells have their cooldown in the item prototype
  let tmp : Int × Nat × Int :=
    match if itemId ≠ 0 then st.itemTemplate itemId else none with
    | none => (-1, 0, -1)
    | some spells =>
        match spells.find? (fun s => s.spellId = spellInfo.id) with
        | none => (-1, 0, -1)
        | some s => (s.spellCooldown, s.spellCategory, s.spellCategoryCooldown)
  if tmp.1 < 0 ∧ tmp.2.2 < 0 then
    (spellInfo.recoveryTime, spellInfo.category, spellInfo.categoryRecoveryTime)
  else tmp

namespace SpellHistory

def empty : SpellHistory := ⟨∅, ∅, ∅, fun _ => 0, ∅⟩

def eraseCooldown (h : SpellHistory) (spellId : Nat) (e : CooldownEntry) : SpellHistory :=
  { h with
    categoryCooldowns := h.categoryCooldowns.erase e.categoryId
    spellCooldowns := h.spellCooldowns.erase spellId }

def addCooldown (h : SpellHistory) (spellId itemId : Nat) (cooldownEnd : Int)
    (categoryId : Nat) (categoryEnd : Int) (onHold : Bool) : SpellHistory :=
  { h with
    spellCooldowns :=
      h.spellCooldowns.insert spellId
        ⟨spellId, cooldownEnd, itemId, categoryId, categoryEnd, onHold⟩
    categoryCooldowns :=
      if categoryId ≠ 0 then h.categoryCooldowns.insert categoryId spellId
      else h.categoryCooldowns }

/-- `LoadFromDB`, for one row. -/
def loadRow (st : SpellStores) (h : SpellHistory) (row : CooldownRow) : SpellHistory :=
  if st.hasSpellInfo row.spellId then
    h.addCooldown row.spellId row.itemId (fromTimeT row.time) row.categoryId
      (fromTimeT row.categoryEnd) false
  else h

def loadFromDB (st : SpellStores) (h : SpellHistory) (rows : List CooldownRow) : SpellHistory :=
  rows.foldl (loadRow st) h

/-- The first loop of `Update`, over the pointers `l`. -/
def expireCategories (now : Int) :
    List ((_ : Nat) × Nat) → SpellHistory → Option SpellHistory
  | [], h => some h
  | ⟨category, spellId⟩ :: l, h =>
      match h.spellCooldowns.lookup spellId with
      | none => none
      | some e =>
          expireCategories now l
            (if e.categoryEnd < now then
              { h with categoryCooldowns := h.categoryCooldowns.erase category }
            else h)

/-- A loop over the entries `l` that erases those with the property `p`. -/
def eraseWhere (p : Nat → CooldownEntry → Bool) (l : List ((_ : Nat) × CooldownEntry))
    (h : SpellHistory) : SpellHistory :=
  l.foldl (fun h x => if p x.1 x.2 then h.eraseCooldown x.1 x.2 else h) h

def update (h : SpellHistory) (now : Int) : Option SpellHistory :=
  (expireCategories now h.categoryCooldowns.entries h).map fun h =>
    h.eraseWhere (fun _ e => e.cooldownEnd < now) h.spellCooldowns.entries

def resetCooldown (h : SpellHistory) (spellId : Nat) : SpellHistory :=
  match h.spellCooldowns.lookup spellId with
  | none => h
  | some e => h.eraseCooldown spellId e

def resetCooldowns (h : SpellHistory) (predicate : Nat → CooldownEntry → Bool) : SpellHistory :=
  h.eraseWhere predicate h.spellCooldowns.entries

def resetAllCooldowns (h : SpellHistory) : SpellHistory :=
  { h with categoryCooldowns := ∅, spellCooldowns := ∅, globalCooldowns := ∅ }

def hasCooldown (st : SpellStores) (h : SpellHistory) (spellInfo : SpellInfo) (itemId : Nat)
    (ignoreCategoryCooldown : Bool) : Bool :=
  if (h.spellCooldowns.lookup spellInfo.id).isSome then true
  else if ignoreCategoryCooldown then false
  else
    let category := (getCooldownDurations st spellInfo itemId).2.1
    if category = 0 then false else (h.categoryCooldowns.lookup category).isSome

/-- `GetRemainingCooldown` up to a given end. -/
def remainingUntil (now finish : Int) : Nat :=
  if finish < now then 0 else ((finish - now) / msTicks).toNat % 2 ^ 32

def getRemainingCooldown (h : SpellHistory) (spellInfo : SpellInfo) (now : Int) : Option Nat :=
  match h.spellCooldowns.lookup spellInfo.id with
  | some e => some (remainingUntil now e.cooldownEnd)
  | none =>
      match h.categoryCooldowns.lookup spellInfo.category with
      | none => some 0
      | some spellId =>
          (h.spellCooldowns.lookup spellId).map fun e => remainingUntil now e.categoryEnd

/-- The end, category and category end that `StartCooldown` passes to `AddCooldown`,
when it gets there. -/
def cooldownToStart (st : SpellStores) (o : Owner) (now : Int) (spellInfo : SpellInfo)
    (itemId : Nat) (onHold : Bool) : Option (Int × Nat × Int) :=
  let (cooldown, categoryId, categoryCooldown) := getCooldownDurations st spellInfo itemId
  let ends : Option (Int × Int) :=
    if onHold then
      let infinity := month * inMilliseconds * msTicks
      let catrecTime := if 0 < categoryCooldown then now + infinity else now
      some (if 0 < cooldown then now + infinity else catrecTime, catrecTime)
    else
      -- shoot spells use the equipped item's cooldown
      let cooldown :=
        if cooldown ≤ 0 ∧ categoryCooldown ≤ 0 ∧
            (categoryId = 76 ∨ spellInfo.isAutoRepeatRangedSpell ∧ spellInfo.id ≠ 75) then
          o.rangedAttackTime
        else cooldown
      let mod (b : Bool) (v : Int) : Int :=
        match o.spellMod with
        | none => v
        | some f => if 0 ≤ v ∧ b then f spellInfo.id v else v
      let cooldown := mod true cooldown
      let categoryCooldown := mod (! spellInfo.ignoresCategoryCooldownMods) categoryCooldown
      let cooldown :=
        if o.cooldownMod ≠ 0 ∧ (! o.hasPlayerOwner || o.playerOwnerHasSpell spellInfo.id) then
          cooldown + o.cooldownMod * inMilliseconds
        else cooldown
      let cooldown := if cooldown < 0 then 0 else cooldown
      let categoryCooldown := if categoryCooldown < 0 then 0 else categoryCooldown
      if cooldown = 0 ∧ categoryCooldown = 0 then none
      else
        let catrecTime :=
          if categoryCooldown ≠ 0 then now + categoryCooldown * msTicks else now
        some (if cooldown ≠ 0 then now + cooldown * msTicks else catrecTime, catrecTime)
  match ends with
  | none => none
  | some (recTime, catrecTime) =>
      if recTime ≠ now then some (recTime, categoryId, catrecTime) else none

def startCooldown (st : SpellStores) (o : Owner) (now : Int) (h : SpellHistory)
    (spellInfo : SpellInfo) (itemId : Nat) (onHold : Bool) : SpellHistory :=
  match cooldownToStart st o now spellInfo itemId onHold with
  | none => h
  | some (recTime, categoryId, catrecTime) =>
      h.addCooldown spellInfo.id itemId recTime categoryId catrecTime onHold

/-- The spell that holds the category of `SendCooldownEvent`, when it is another one:
the `SpellId` of the entry the category points at. -/
def otherOfCategory (st : SpellStores) (h : SpellHistory) (spellInfo : SpellInfo)
    (itemId : Nat) : Option (Option Nat) :=
  match h.categoryCooldowns.lookup (getCooldownDurations st spellInfo itemId).2.1 with
  | none => some none
  | some spellId =>
      (h.spellCooldowns.lookup spellId).map fun e =>
        if e.spellId ≠ spellInfo.id then some e.spellId else none

/-- The part of `SendCooldownEvent` that starts the cooldown of that other spell. -/
def startOther (st : SpellStores) (o : Owner) (now : Int) (h : SpellHistory)
    (spellInfo : SpellInfo) (itemId : Nat) (start : Bool) : Option SpellHistory :=
  if o.hasPlayerOwner then
    match otherOfCategory st h spellInfo itemId with
    | none => none
    | some none => some h
    | some (some spellId) =>
        some (if start then startCooldown st o now h (st.spellInfo spellId) itemId false else h)
  else some h

def sendCooldownEvent (st : SpellStores) (o : Owner) (now : Int) (h : SpellHistory)
    (spellInfo : SpellInfo) (itemId : Nat) (start : Bool) : Option SpellHistory :=
  (startOther st o now h spellInfo itemId start).map fun h =>
    if start then startCooldown st o now h spellInfo itemId false else h

/-- Whether a lockout is for this spell. -/
def lockable (spellInfo : SpellInfo) (schoolMask : Nat) : Bool :=
  ! spellInfo.isCooldownStartedOnEvent && spellInfo.preventedBySilence &&
    decide (schoolMask &&& spellInfo.schoolMask ≠ 0)

/-- The loop of `LockSpellSchool` over the known spells. -/
def lockSpells (st : SpellStores) (now : Int) (schoolMask lockoutTime : Nat) :
    List Nat → SpellHistory → Option SpellHistory
  | [], h => some h
  | spellId :: l, h =>
      if lockable (st.spellInfo spellId) schoolMask then
        match h.getRemainingCooldown (st.spellInfo spellId) now with
        | none => none
        | some remaining =>
            lockSpells st now schoolMask lockoutTime l
              (if remaining < lockoutTime then
                h.addCooldown spellId 0 (now + lockoutTime * msTicks) 0 now false
              else h)
      else lockSpells st now schoolMask lockoutTime l h

/-- The lockouts that `LockSpellSchool` sets. -/
def lockSchools (h : SpellHistory) (now : Int) (schoolMask lockoutTime : Nat) : SpellHistory :=
  { h with
    schoolLockouts := fun i =>
      if i < maxSpellSchool ∧ schoolMask.testBit i then now + lockoutTime * msTicks
      else h.schoolLockouts i }

def lockSpellSchool (st : SpellStores) (o : Owner) (now : Int) (h : SpellHistory)
    (schoolMask lockoutTime : Nat) : Option SpellHistory :=
  lockSpells st now schoolMask lockoutTime o.knownSpells
    (h.lockSchools now schoolMask lockoutTime)

def saveCooldownStateBeforeDuel (h : SpellHistory) : SpellHistory :=
  { h with spellCooldownsBeforeDuel := h.spellCooldowns }

/-- A spell of professions: its cooldown is kept through a duel. -/
def keptThroughDuel (spellInfo : SpellInfo) : Bool :=
  decide (10 * minute * inMilliseconds < spellInfo.recoveryTime) ||
    decide (10 * minute * inMilliseconds < spellInfo.categoryRecoveryTime)

/-- The first loop of `RestoreCooldownStateAfterDuel`, over the entries `l`. -/
def keepProfessions (st : SpellStores) (l : List ((_ : Nat) × CooldownEntry))
    (before : CooldownStorage) : CooldownStorage :=
  l.foldl (fun b x => if keptThroughDuel (st.spellInfo x.1) then b.insert x.1 x.2 else b) before

/-- The second loop, over the entries `l` of before the duel. -/
def restoreEntries : List ((_ : Nat) × CooldownEntry) → CooldownStorage → CooldownStorage
  | [], m => m
  | x :: l, m =>
      restoreEntries l
        (if ! x.2.onHold && ! ((m.lookup x.1).getD .fresh).onHold then m.insert x.1 x.2 else m)

def restoreCooldownStateAfterDuel (st : SpellStores) (o : Owner) (h : SpellHistory) :
    SpellHistory :=
  if o.isPlayer then
    let before := keepProfessions st h.spellCooldowns.entries h.spellCooldownsBeforeDuel
    { h with
      spellCooldownsBeforeDuel := before
      spellCooldowns := restoreEntries before.entries h.spellCooldowns }
  else h

end SpellHistory

/-! ## Runs -/

inductive SpellOp
  | addCooldown (spellId itemId : Nat) (cooldownEnd : Int) (categoryId : Nat)
      (categoryEnd : Int) (onHold : Bool)
  | startCooldown (o : Owner) (now : Int) (spellId itemId : Nat) (onHold : Bool)
  | sendCooldownEvent (o : Owner) (now : Int) (spellId itemId : Nat) (start : Bool)
  | lockSpellSchool (o : Owner) (now : Int) (schoolMask lockoutTime : Nat)
  | update (now : Int)
  | resetCooldown (spellId : Nat)
  | resetCooldowns (predicate : Nat → CooldownEntry → Bool)
  | resetAllCooldowns
  | loadFromDB (rows : List CooldownRow)
  | saveCooldownStateBeforeDuel
  | restoreCooldownStateAfterDuel (o : Owner)

namespace SpellHistory

def step (st : SpellStores) (h : SpellHistory) (op : SpellOp) : Option SpellHistory :=
  match op with
  | .addCooldown spellId itemId cooldownEnd categoryId categoryEnd onHold =>
      some (h.addCooldown spellId itemId cooldownEnd categoryId categoryEnd onHold)
  | .startCooldown o now spellId itemId onHold =>
      some (startCooldown st o now h (st.spellInfo spellId) itemId onHold)
  | .sendCooldownEvent o now spellId itemId start =>
      sendCooldownEvent st o now h (st.spellInfo spellId) itemId start
  | .lockSpellSchool o now schoolMask lockoutTime =>
      lockSpellSchool st o now h schoolMask lockoutTime
  | .update now => h.update now
  | .resetCooldown spellId => some (h.resetCooldown spellId)
  | .resetCooldowns predicate => some (h.resetCooldowns predicate)
  | .resetAllCooldowns => some h.resetAllCooldowns
  | .loadFromDB rows => some (loadFromDB st h rows)
  | .saveCooldownStateBeforeDuel => some h.saveCooldownStateBeforeDuel
  | .restoreCooldownStateAfterDuel o => some (restoreCooldownStateAfterDuel st o h)

end SpellHistory

end Sunstrider.Spells
