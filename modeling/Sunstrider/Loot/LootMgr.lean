import Sunstrider.Loot.Loot
import Sunstrider.Pools.PoolGroup

/-!
# Loot templates

A row of a loot table gives an item or the number of a template in the reference
table. `LoadLootTable` skips the rows that make no sense and files the others by
entry; in a template, rows of a group that give an item go to the group and all
others stand together, in the order of the table. What a row refers to is not
looked at when a table is loaded. `CheckLootRefs` reports what does not exist, and
that is all.

`Process` rolls each row in turn. A row that comes up and refers to a template
has that one processed, as many times as it says and only the group it names if it
names one. Then each group gives one item at most. Recursion is on `fuel`, the
number of calls that may be open at once; `none` means that it was not enough.

Chances and rates are C++ floats, counted in any `Chance`. Random numbers come in
by how many were drawn before; a percentage is never negative.
-/

namespace Sunstrider.Looting

open Pools

variable {P F : Type} [Chance F]

/-- `LootStoreItem`. -/
structure LootRow (F : Type) extends LootStoreItem where
  reference : Nat
  chance : F
  lootmode : Nat
  groupid : Nat
  mincount : Nat
  maxcount : Nat

/-- The templates of items, and the rates of the configuration. -/
structure LootWorld (P F : Type) extends LootEnv P where
  rateDropItem : Nat → F
  rateDropItemReferenced : F

structure Rolls (F : Type) [Chance F] where
  randChance : Nat → F
  randChance_nonneg : ∀ n, 0 ≤ randChance n
  urand : Nat → Nat → Nat → Nat

/-- A loot being filled, and how many random numbers have been drawn for it. -/
structure Filling (P : Type) where
  loot : Loot P
  drawn : Nat

structure LootTemplateGroup (F : Type) where
  explicitlyChanced : List (LootRow F)
  equalChanced : List (LootRow F)

structure LootTemplate (F : Type) where
  entries : List (LootRow F)
  groups : List (Option (LootTemplateGroup F))

abbrev LootTemplateMap (F : Type) := AList fun _ : Nat => LootTemplate F

/-! ## Loading -/

/-- `LootStoreItem::IsValid`. -/
def LootRow.isValid (world : LootWorld P F) (item : LootRow F) : Bool :=
  if item.mincount = 0 then false
  else if item.reference = 0 then
    if (world.template item.itemid).isNone then false
    else if item.chance = 0 ∧ item.groupid = 0 then false
    else if item.chance ≠ 0 ∧ item.chance < ((1 : Nat) : F) / ((1000000 : Nat) : F) then false
    else if item.maxcount < item.mincount then false
    else true
  else if item.needsQuest then true
  else decide (item.chance ≠ 0)

def LootTemplateGroup.addEntry (group : LootTemplateGroup F) (item : LootRow F) :
    LootTemplateGroup F :=
  if item.chance ≠ 0 then
    { group with explicitlyChanced := group.explicitlyChanced ++ [item] }
  else { group with equalChanced := group.equalChanced ++ [item] }

/-- `resize(groupid, nullptr)` where `groupid` is not less than the size. -/
def resizeGroups (groupid : Nat) (groups : List (Option (LootTemplateGroup F))) :
    List (Option (LootTemplateGroup F)) :=
  if groups.length ≤ groupid then groups ++ List.replicate (groupid - groups.length) none
  else groups

def LootTemplate.addEntry (template : LootTemplate F) (item : LootRow F) : LootTemplate F :=
  if 0 < item.groupid ∧ item.reference = 0 then
    { template with
      groups := (resizeGroups item.groupid template.groups).modify (item.groupid - 1)
        fun group => some ((group.getD ⟨[], []⟩).addEntry item) }
  else { template with entries := template.entries ++ [item] }

/-- One row of the table, with the entry it is for. -/
def loadRow (world : LootWorld P F) (store : LootTemplateMap F) (row : Nat × LootRow F) :
    LootTemplateMap F :=
  if row.2.isValid world then
    store.insert row.1 (((store.lookup row.1).getD ⟨[], []⟩).addEntry row.2)
  else store

def loadLootTable (world : LootWorld P F) (rows : List (Nat × LootRow F)) : LootTemplateMap F :=
  rows.foldl (loadRow world) ∅

/-! ## Rolling -/

variable (world : LootWorld P F) (rolls : Rolls F)

/-- The chance of a row, with its rate. -/
def LootRow.ratedChance (rate : Bool) (item : LootRow F) : F :=
  if 0 < item.reference then
    item.chance * if rate then world.rateDropItemReferenced else ((1 : Nat) : F)
  else
    item.chance * match world.template item.itemid with
      | some proto => world.rateDropItem proto.quality
      | none => ((1 : Nat) : F)

/-- `LootStoreItem::Roll`. -/
def LootRow.roll (rate : Bool) (item : LootRow F) (s : Filling P) : Bool × Filling P :=
  if ((100 : Nat) : F) ≤ item.chance then (true, s)
  else
    (decide (rolls.randChance s.drawn < item.ratedChance world rate),
      { s with drawn := s.drawn + 1 })

/-- `Loot::AddItem`. -/
def Filling.addItem (item : LootRow F) (s : Filling P) : Filling P :=
  match world.template item.itemid with
  | none => s
  | some _ =>
      let count := rolls.urand s.drawn item.mincount item.maxcount
      ⟨s.loot.addItem world.toLootEnv item.toLootStoreItem count, s.drawn + 1⟩

/-- `LootGroupInvalidSelector`; no loot has another `maxDuplicates` than one. -/
def LootRow.isInvalid (lootMode : Nat) (loot : Loot P) (item : LootRow F) : Bool :=
  decide (item.lootmode &&& lootMode = 0) || loot.items.any fun i => i.itemid = item.itemid

/-- The explicitly chanced entry that `roll` falls on. -/
def findExplicit : F → List (LootRow F) → Option (LootRow F)
  | _, [] => none
  | roll, item :: possibleLoot =>
      if ((100 : Nat) : F) ≤ item.chance then some item
      else
        let roll := roll - item.chance
        if roll < 0 then some item else findExplicit roll possibleLoot

/-- `LootGroup::Roll`. -/
def LootTemplateGroup.roll (lootMode : Nat) (group : LootTemplateGroup F) (s : Filling P) :
    Option (LootRow F) × Filling P :=
  let possibleLoot := group.explicitlyChanced.filter fun item => !item.isInvalid lootMode s.loot
  let equalLoot := group.equalChanced.filter fun item => !item.isInvalid lootMode s.loot
  let (item, s) :=
    if possibleLoot.isEmpty then (none, s)
    else (findExplicit (rolls.randChance s.drawn) possibleLoot, { s with drawn := s.drawn + 1 })
  match item with
  | some item => (some item, s)
  | none =>
      if equalLoot.isEmpty then (none, s)
      else
        (equalLoot[rolls.urand s.drawn 0 (equalLoot.length - 1)]?,
          { s with drawn := s.drawn + 1 })

/-- `LootGroup::Process`. -/
def LootTemplateGroup.process (lootMode : Nat) (group : LootTemplateGroup F) (s : Filling P) :
    Filling P :=
  match group.roll rolls lootMode s with
  | (some item, s) => s.addItem world rolls item
  | (none, s) => s

/-- The loop over `Groups`. -/
def processGroups (lootMode : Nat) (groups : List (Option (LootTemplateGroup F)))
    (s : Filling P) : Filling P :=
  groups.foldl
    (fun s group =>
      match group with
      | some group => group.process world rolls lootMode s
      | none => s) s

/-- The loop that processes a referenced template `maxcount` times. -/
def processTimes (process : Filling P → Option (Filling P)) :
    Nat → Filling P → Option (Filling P)
  | 0, s => some s
  | loops + 1, s => do
      let s ← process s
      processTimes process loops s

/-- The loop over `Entries`; `process` is the recursive call. -/
def processEntries (references : LootTemplateMap F) (rate : Bool) (lootMode : Nat)
    (process : LootTemplate F → Nat → Filling P → Option (Filling P)) :
    List (LootRow F) → Filling P → Option (Filling P)
  | [], s => some s
  | item :: entries, s =>
      let next := processEntries references rate lootMode process entries
      if item.lootmode &&& lootMode = 0 then next s
      else
        match item.roll world rolls rate s with
        | (false, s) => next s
        | (true, s) =>
            if 0 < item.reference then
              match references.lookup item.reference with
              | none => next s
              | some referenced => do
                  let s ← processTimes (process referenced item.groupid) item.maxcount s
                  next s
            else next (s.addItem world rolls item)

/-- `LootTemplate::Process`. -/
def LootTemplate.process (references : LootTemplateMap F) (rate : Bool) (lootMode : Nat) :
    Nat → LootTemplate F → Nat → Filling P → Option (Filling P)
  | 0, _, _, _ => none
  | fuel + 1, template, groupId, s =>
      if 0 < groupId then
        match template.groups[groupId - 1]? with
        | some (some group) => some (group.process world rolls lootMode s)
        | _ => some s
      else do
        let s ← processEntries world rolls references rate lootMode
          (LootTemplate.process references rate lootMode fuel) template.entries s
        some (processGroups world rolls lootMode template.groups s)

end Sunstrider.Looting
