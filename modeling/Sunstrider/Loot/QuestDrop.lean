import Sunstrider.Loot.LootMgr

/-!
# Whether a template has something for a quest

`HasQuestDrop` goes through a template as `Process` does and looks at what each row
says, not at what it rolls. It looks references up in the store it was called with,
`Process` looks them up in the reference table. A group slot may be empty;
`HasQuestDropForPlayer` asks, `HasQuestDrop` goes on with a null pointer.

Apart from that the two differ in what they want of a row only. `hasDrop` is both.
-/

namespace Sunstrider.Looting

open Pools

variable {F : Type} [Chance F]

/-- How a walk through the templates fails to answer. -/
inductive DropFault
  /-- `Groups[groupId-1]` is null. -/
  | nullGroup
  /-- More calls would be open at once than there is fuel. -/
  | depth
deriving DecidableEq, Repr

def LootTemplateGroup.hasDrop (wants : LootRow F → Bool) (group : LootTemplateGroup F) : Bool :=
  group.explicitlyChanced.any wants || group.equalChanced.any wants

/-- The loop over `Entries`; `walk` is the recursive call. -/
def hasDropEntries (wants : LootRow F → Bool) (store : LootTemplateMap F)
    (walk : LootTemplate F → Nat → Except DropFault Bool) :
    List (LootRow F) → Except DropFault Bool
  | [] => .ok false
  | item :: entries =>
      if 0 < item.reference then
        match store.lookup item.reference with
        | none => hasDropEntries wants store walk entries
        | some referenced =>
            match walk referenced item.groupid with
            | .error fault => .error fault
            | .ok true => .ok true
            | .ok false => hasDropEntries wants store walk entries
      else if wants item then .ok true
      else hasDropEntries wants store walk entries

/-- What `HasQuestDrop` and `HasQuestDropForPlayer` have in common; `nullGroup` is what
comes of a group slot that is empty. -/
def LootTemplate.hasDrop (wants : LootRow F → Bool) (nullGroup : Except DropFault Bool)
    (store : LootTemplateMap F) : Nat → LootTemplate F → Nat → Except DropFault Bool
  | 0, _, _ => .error .depth
  | fuel + 1, template, groupId =>
      if 0 < groupId then
        match template.groups[groupId - 1]? with
        | none => .ok false
        | some none => nullGroup
        | some (some group) => .ok (group.hasDrop wants)
      else
        match hasDropEntries wants store (LootTemplate.hasDrop wants nullGroup store fuel)
            template.entries with
        | .error fault => .error fault
        | .ok true => .ok true
        | .ok false =>
            .ok (template.groups.any fun group =>
              match group with
              | some group => group.hasDrop wants
              | none => false)

/-- `LootTemplate::HasQuestDrop`. -/
def LootTemplate.hasQuestDrop (store : LootTemplateMap F) (fuel : Nat) (template : LootTemplate F)
    (groupId : Nat) : Except DropFault Bool :=
  template.hasDrop (fun item => item.needsQuest) (.error .nullGroup) store fuel groupId

/-- `LootStore::HaveQuestLootFor`. -/
def haveQuestLootFor (store : LootTemplateMap F) (fuel lootId : Nat) : Except DropFault Bool :=
  match store.lookup lootId with
  | none => .ok false
  | some template => template.hasQuestDrop store fuel 0

end Sunstrider.Looting
