import Sunstrider.Groups.Group

/-!
# Whose turn it is to loot

Outside free for all a group has a looter, the member whom the next corpse
belongs to. `UpdateLooterGuid` passes the turn on. It looks for the slot of the
current looter, then for a member near enough among the slots behind that one,
then from the first slot up to and with his own. A looter who has left the group
has no slot; then the first scan has nothing to look at and the second all.

A kill asks twice. Before the loot is rolled the looter keeps his turn if he is
near, that is the `ifneed` mode, and the corpse is his; if the creature had
anything on it the turn is passed on afterwards. The packets that tell the
members are left out.
-/

namespace Sunstrider.Groups

open Looting

variable {P : Type} [DecidableEq P]

/-- A group with what its loot rules read. The looter is `none` where the GUID
is empty. -/
structure LootingGroup (P : Type) extends Group P where
  lootMethod : LootMethod
  looterGuid : Option P

/-- The looted object, as `UpdateLooterGuid` asks about it. -/
structure LootedObject (P : Type) where
  /-- `ObjectAccessor::FindPlayer` finds him. -/
  findPlayer : P → Bool
  isAtGroupRewardDistance : P → Bool

/-- A member who can be given the turn. -/
def LootedObject.isNear (pLootedObject : LootedObject P) (guid : P) : Bool :=
  pLootedObject.findPlayer guid && pLootedObject.isAtGroupRewardDistance guid

namespace LootingGroup

/-- `_getMemberCSlot`, as a position; one past the last slot is `end()`. -/
def getMemberCSlot (group : LootingGroup P) (guid : Option P) : Nat :=
  group.memberSlots.findIdx fun slot => some slot.guid = guid

/-- One of the two scans, over the slots it goes through. -/
def findLooter (pLootedObject : LootedObject P) (slots : List (MemberSlot P)) : Option P :=
  (slots.find? fun slot => pLootedObject.isNear slot.guid).map (·.guid)

/-- The scan behind `guidItr`, and the one from the start if that found nobody. -/
def newLooter (pLootedObject : LootedObject P) (group : LootingGroup P) (guidItr : Nat) :
    Option P :=
  match findLooter pLootedObject (group.memberSlots.drop guidItr) with
  | some player => some player
  | none => findLooter pLootedObject (group.memberSlots.take guidItr)

def updateLooterGuid (pLootedObject : LootedObject P) (ifneed : Bool) (group : LootingGroup P) :
    LootingGroup P :=
  if group.lootMethod = .freeForAll then
    group
  else
    let guidItr := group.getMemberCSlot group.looterGuid
    match group.memberSlots[guidItr]? with
    | some slot =>
        if ifneed && pLootedObject.isNear slot.guid then
          group
        else
          { group with looterGuid := group.newLooter pLootedObject (guidItr + 1) }
    | none => { group with looterGuid := group.newLooter pLootedObject guidItr }

/-- What `Unit::Kill` does about the turn: whose the corpse is, and the group
afterwards. -/
def kill (pLootedObject : LootedObject P) (lootEmpty : Bool) (group : LootingGroup P) :
    Option P × LootingGroup P :=
  let needed := group.updateLooterGuid pLootedObject true
  (needed.looterGuid,
    if lootEmpty then needed else needed.updateLooterGuid pLootedObject false)

/-- Kills one after the other, each with loot or without: who had the turns. A
corpse without loot costs nobody his turn. -/
def turns (pLootedObject : LootedObject P) (group : LootingGroup P) : List Bool → List (Option P)
  | [] => []
  | true :: kills => turns pLootedObject (group.kill pLootedObject true).2 kills
  | false :: kills =>
      (group.kill pLootedObject false).1 ::
        turns pLootedObject (group.kill pLootedObject false).2 kills

end LootingGroup

end Sunstrider.Groups
