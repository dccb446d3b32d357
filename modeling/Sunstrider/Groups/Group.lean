import Sunstrider.Loot.Roll

/-!
# A group

A `Group` is a party, a raid, or the raid a battleground makes of one side. It
keeps a slot for each member, online or not, the players it has invited, the
rolls it holds for loot, and, once it is a raid, an 8-bit count of the members
in each subgroup. The counts are a second record of what the slots say, kept up
to date by hand. A group whose leader is still alone with the invitees has no
slots yet; it becomes one when the first invitee accepts.

What is here concerns one group. Who is online, which group a player refers to
and which groups there are belongs to the `World`. Instance binds, target
icons, difficulty, loot method and the database fields of a group are left out.
-/

namespace Sunstrider.Groups

open Looting

variable {P : Type} [LinearOrder P]

/-- Membership in a list of players is decided by their order. -/
scoped instance lawfulBEq_players : LawfulBEq P := inferInstance

/-- `MAXGROUPSIZE`. -/
def maxGroupSize : Nat := 5

/-- `MAXRAIDSIZE`. -/
def maxRaidSize : Nat := 40

/-- `MAX_RAID_SUBGROUPS`. -/
def maxRaidSubgroups : Nat := maxRaidSize / maxGroupSize

/-- `MEMBER_FLAG_ASSISTANT`. -/
def memberFlagAssistant : Nat := 1

structure MemberSlot (P : Type) where
  guid : P
  name : String
  group : Nat
  flags : Nat
deriving DecidableEq

/-- A `Roll` of the group, with the identity of the item and the loot it is
linked to. -/
structure GroupRoll (P : Type) where
  itemGUID : Nat
  loot : Nat
  roll : Roll P

structure Group (P : Type) where
  memberSlots : List (MemberSlot P)
  invitees : List P
  leaderGuid : P
  isRaidGroup : Bool
  /-- The battleground whose raid this is. -/
  bgGroup : Option Nat
  subGroupsCounts : Option (List Nat)
  rolls : List (GroupRoll P)

namespace Group

/-! ## Reading -/

/-- `new Group`, as soon as it has a leader. -/
def new (leader : P) (bgGroup : Option Nat) : Group P where
  memberSlots := []
  invitees := []
  leaderGuid := leader
  isRaidGroup := false
  bgGroup := bgGroup
  subGroupsCounts := none
  rolls := []

def isBGGroup (G : Group P) : Bool := G.bgGroup.isSome

def getMembersCount (G : Group P) : Nat := G.memberSlots.length

def isCreated (G : Group P) : Bool := decide (0 < G.getMembersCount)

def isFull (G : Group P) : Bool :=
  if G.isRaidGroup then decide (maxRaidSize ≤ G.memberSlots.length)
  else decide (maxGroupSize ≤ G.memberSlots.length)

/-- `_getMemberCSlot`. -/
def getMemberSlot (G : Group P) (guid : P) : Option (MemberSlot P) :=
  G.memberSlots.find? fun s => s.guid = guid

def isMember (G : Group P) (guid : P) : Bool := (G.getMemberSlot guid).isSome

def isLeader (G : Group P) (guid : P) : Bool := decide (G.leaderGuid = guid)

def isAssistant (G : Group P) (guid : P) : Bool :=
  match G.getMemberSlot guid with
  | none => false
  | some s => decide (s.flags &&& memberFlagAssistant = memberFlagAssistant)

/-- `GetMemberGUID`. -/
def getMemberGUID (G : Group P) (name : String) : Option P :=
  (G.memberSlots.find? fun s => s.name = name).map MemberSlot.guid

/-- `GetMemberGroup`. -/
def getMemberGroup (G : Group P) (guid : P) : Nat :=
  match G.getMemberSlot guid with
  | none => maxRaidSubgroups + 1
  | some s => s.group

/-- The least a group may have: a battleground raid may be one player. -/
def least (G : Group P) : Nat := if G.isBGGroup then 1 else 2

def hasFreeSlotSubGroup (G : Group P) (subgroup : Nat) : Bool :=
  match G.subGroupsCounts with
  | none => false
  | some counts => decide (counts.getD subgroup 0 < maxGroupSize)

/-! ## The counts -/

def subGroupCounterIncrease (subgroup : Nat) (G : Group P) : Group P :=
  { G with subGroupsCounts := G.subGroupsCounts.map fun counts => counts.modify subgroup incr8 }

def subGroupCounterDecrease (subgroup : Nat) (G : Group P) : Group P :=
  { G with subGroupsCounts := G.subGroupsCounts.map fun counts => counts.modify subgroup decr8 }

/-- `_initRaidSubGroupsCounter`. -/
def initRaidSubGroupsCounter (G : Group P) : Group P :=
  let counts := G.memberSlots.foldl (fun counts s => counts.modify s.group incr8)
    (List.replicate maxRaidSubgroups 0)
  { G with subGroupsCounts := some counts }

/-- The subgroup `AddMember` puts a new member into, if there is one. -/
def freeSubGroup (G : Group P) : Option Nat :=
  match G.subGroupsCounts with
  | none => some 0
  | some counts =>
      (List.range maxRaidSubgroups).find? fun g => decide (counts.getD g 0 < maxGroupSize)

/-! ## Changing the slots -/

/-- The slot `AddMember` and `LoadMemberFromDB` push. -/
def pushSlot (s : MemberSlot P) (G : Group P) : Group P :=
  subGroupCounterIncrease s.group { G with memberSlots := G.memberSlots ++ [s] }

/-- What `RemoveMember` does to the rolls. The vote is gone when the code then
votes once more for the member with no choice, and nothing comes of it. -/
def removeFromRolls (guid : P) (G : Group P) : Group P :=
  { G with rolls := G.rolls.map fun r => { r with roll := r.roll.removeMember guid } }

/-- What `RemoveMember` does to the slots. -/
def eraseSlot (guid : P) (G : Group P) : Group P :=
  match G.getMemberSlot guid with
  | none => G
  | some s =>
      { G.subGroupCounterDecrease s.group with
        memberSlots := G.memberSlots.eraseP fun s => s.guid = guid }

/-- The slot of `guid`, changed. -/
def modifySlot (guid : P) (f : MemberSlot P → MemberSlot P) (G : Group P) : Group P :=
  match G.memberSlots.findIdx? fun s => s.guid = guid with
  | none => G
  | some i => { G with memberSlots := G.memberSlots.modify i f }

/-- `ToggleGroupMemberFlag`. -/
def toggleGroupMemberFlag (guid : P) (flag : Nat) (apply : Bool) (G : Group P) : Group P :=
  G.modifySlot guid fun s =>
    { s with flags := if apply then s.flags ||| flag else s.flags &&& (255 ^^^ flag) }

/-- `SetGroupMemberFlag` for assistants. -/
def setGroupMemberFlag (guid : P) (apply : Bool) (G : Group P) : Group P :=
  if G.isRaidGroup then G.toggleGroupMemberFlag guid memberFlagAssistant apply else G

def convertToRaid (G : Group P) : Group P :=
  initRaidSubGroupsCounter { G with isRaidGroup := true }

/-- `ChangeMembersGroup`. The new subgroup gains a member before the old one
loses it. -/
def changeMembersGroup (guid : P) (group : Nat) (G : Group P) : Group P :=
  if !G.isRaidGroup then G
  else
    match G.getMemberSlot guid with
    | none => G
    | some s =>
        if s.group = group then G
        else
          ((G.modifySlot guid fun s => { s with group := group }).subGroupCounterIncrease
            group).subGroupCounterDecrease s.group

/-- `Create`, up to the slot of the leader. -/
def create (leader : P) (G : Group P) : Group P :=
  let G := { G with leaderGuid := leader, isRaidGroup := G.isBGGroup }
  if G.isRaidGroup then G.initRaidSubGroupsCounter else G

end Group

end Sunstrider.Groups
