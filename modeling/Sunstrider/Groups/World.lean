import Sunstrider.Groups.Group

/-!
# Players and groups

The `World` has the connected players, the groups, and the references between
them. A player refers to a group with `m_group` and, while in a battleground, to
the group outside with `m_originalGroup`; each reference is also an element of
the list `m_memberMgr` of the group it points to, newest first. Here both are
read off one list of links, so the two ends of a reference cannot disagree.
An invitation is stored twice in earnest: in the set of the group, and as a
pointer in the player.

`removeMember` and `disband` are where a group can end. A group of the world is
there from `new Group` until it is deleted, with slots or without.
-/

namespace Sunstrider.Groups

open Looting

variable {P : Type} [LinearOrder P]

structure PlayerInfo where
  name : String
  /-- `FindConnectedPlayer` finds the player. -/
  connected : Bool
  /-- `FindPlayer` does too. -/
  inWorld : Bool
  groupInvite : Option Nat
  inBattleground : Bool

/-- A `GroupReference` that is linked: `m_group` of a player, or
`m_originalGroup`. -/
structure Link (P : Type) where
  player : P
  original : Bool
  group : Nat
deriving DecidableEq

structure World (P : Type) where
  players : P → PlayerInfo
  /-- Every group there has been, `none` once it is deleted. -/
  groupObjects : List (Option (Group P))
  links : List (Link P)
  /-- The rows of `group_member`. -/
  memberRows : P → Option Nat
  /-- `GetBgRaid`, for each side of each battleground. -/
  bgRaids : Nat → Option Nat
  loots : Nat → Option (Loot P)
  nextItemGUID : Nat

namespace World

/-- The group at an address. -/
def groups (w : World P) (g : Nat) : Option (Group P) := w.groupObjects[g]?.join

/-- The address of the next `new Group`. -/
def nextGroup (w : World P) : Nat := w.groupObjects.length

/-! ## References -/

def findConnectedPlayer (w : World P) (p : P) : Bool := (w.players p).connected

def findPlayer (w : World P) (p : P) : Bool :=
  (w.players p).connected && (w.players p).inWorld

def getRef (w : World P) (original : Bool) (p : P) : Option Nat :=
  (w.links.find? fun l => l.player = p && l.original = original).map Link.group

def getGroup (w : World P) (p : P) : Option Nat := w.getRef false p

def getOriginalGroup (w : World P) (p : P) : Option Nat := w.getRef true p

/-- The list from `GetFirstMember` on. -/
def members (w : World P) (g : Nat) : List P :=
  (w.links.filter fun l => l.group = g).map Link.player

def unlink (original : Bool) (p : P) (w : World P) : World P :=
  { w with links := w.links.filter fun l => !(l.player = p && l.original = original) }

def link (original : Bool) (p : P) (g : Nat) (w : World P) : World P :=
  let w := w.unlink original p
  { w with links := ⟨p, original, g⟩ :: w.links }

def setRef (original : Bool) (g : Option Nat) (p : P) (w : World P) : World P :=
  match g with
  | none => w.unlink original p
  | some g => w.link original p g

/-- `Player::SetGroup`. -/
def setGroup (g : Option Nat) (p : P) (w : World P) : World P := w.setRef false g p

def setOriginalGroup (g : Option Nat) (p : P) (w : World P) : World P := w.setRef true g p

/-- `Player::SetBattlegroundRaid`. -/
def setBattlegroundRaid (g : Nat) (p : P) (w : World P) : World P :=
  (w.setOriginalGroup (w.getGroup p) p).link false p g

/-- `Player::RemoveFromBattlegroundRaid`. -/
def removeFromBattlegroundRaid (p : P) (w : World P) : World P :=
  ((w.unlink false p).setGroup (w.getOriginalGroup p) p).setOriginalGroup none p

/-- `Group::DelinkMember`. -/
def delinkMember (g : Nat) (guid : P) (w : World P) : World P :=
  { w with links := w.links.eraseP fun l => l.group = g && l.player = guid }

/-- How `RemoveMember` and `Disband` make a connected player let go of a group. -/
def leaveGroup (g : Nat) (bg : Bool) (p : P) (w : World P) : World P :=
  if bg then w.removeFromBattlegroundRaid p
  else if w.getOriginalGroup p = some g then w.setOriginalGroup none p
  else w.setGroup none p

/-! ## Writing to a group or a player -/

def modifyGroup (g : Nat) (f : Group P → Group P) (w : World P) : World P :=
  { w with groupObjects := w.groupObjects.modify g (Option.map f) }

def setPlayer (p : P) (i : PlayerInfo) (w : World P) : World P :=
  { w with players := Function.update w.players p i }

/-- `Player::SetGroupInvite`. -/
def setGroupInvite (g : Option Nat) (p : P) (w : World P) : World P :=
  w.setPlayer p { w.players p with groupInvite := g }

/-- `new Group`. -/
def newGroup (leader : P) (bgGroup : Option Nat) (w : World P) : World P :=
  { w with groupObjects := w.groupObjects ++ [some (Group.new leader bgGroup)] }

/-- `delete group`: the destructor drops the rolls, the references to the group,
and the link of its battleground. -/
def deleteGroup (g : Nat) (w : World P) : World P :=
  { w with
    groupObjects := w.groupObjects.set g none
    links := w.links.filter fun l => l.group ≠ g
    bgRaids := fun b => if w.bgRaids b = some g then none else w.bgRaids b }

def isBGGroup (w : World P) (g : Nat) : Bool :=
  match w.groups g with
  | none => false
  | some G => G.isBGGroup

/-- The group of a player, or the one outside when that is a battleground's. -/
def partyOf (w : World P) (p : P) : Option Nat :=
  match w.getGroup p with
  | none => none
  | some g => if w.isBGGroup g then w.getOriginalGroup p else some g

/-! ## Invitations -/

def removeInvite (g : Nat) (p : P) (w : World P) : World P :=
  (w.modifyGroup g fun G => { G with invitees := G.invitees.filter (· ≠ p) }).setGroupInvite
    none p

/-- `RemoveAllInvites`: whoever is in the set loses the invitation. -/
def removeAllInvites (g : Nat) (w : World P) : World P :=
  match w.groups g with
  | none => w
  | some G =>
      { w.modifyGroup g fun G => { G with invitees := [] } with
        players := fun p =>
          if p ∈ G.invitees then { w.players p with groupInvite := none } else w.players p }

/-- `AddInvite`. -/
def addInvite (g : Nat) (p : P) (w : World P) : Option (World P) :=
  if (w.players p).groupInvite.isSome then none
  else if (w.partyOf p).isSome then none
  else
    some <| ((w.removeInvite g p).modifyGroup g fun G =>
      { G with invitees := p :: G.invitees }).setGroupInvite (some g) p

/-! ## Members -/

/-- The slot of a new member. -/
def newSlot (w : World P) (p : P) (group : Nat) : MemberSlot P :=
  ⟨p, (w.players p).name, group, 0⟩

/-- `AddMember`; `none` when no subgroup has room. -/
def addMember (g : Nat) (p : P) (w : World P) : Option (World P) :=
  match w.groups g with
  | none => none
  | some G =>
      match G.freeSubGroup with
      | none => none
      | some subGroup =>
          let w := w.modifyGroup g (Group.pushSlot (w.newSlot p subGroup))
          let w := w.setGroupInvite none p
          if (w.getGroup p).isSome then
            if G.isBGGroup then some (w.setBattlegroundRaid g p)
            else some (w.setOriginalGroup (some g) p)
          else some (w.setGroup (some g) p)

/-- `Create`: the leader becomes the first member. -/
def create (g : Nat) (leader : P) (w : World P) : Option (World P) :=
  (w.modifyGroup g (Group.create leader)).addMember g leader

/-- `ChangeLeader`: the new leader has a slot and is connected. -/
def changeLeader (g : Nat) (guid : P) (w : World P) : World P :=
  match w.groups g with
  | none => w
  | some G =>
      if G.isMember guid && w.findConnectedPlayer guid then
        w.modifyGroup g fun G =>
          { G with leaderGuid := guid }.toggleGroupMemberFlag guid memberFlagAssistant false
      else w

/-- `ChangeLeaderToFirstOnlineMember`. -/
def changeLeaderToFirstOnlineMember (g : Nat) (w : World P) : World P :=
  match w.groups g with
  | none => w
  | some G =>
      match (w.members g).find? fun p => (w.players p).inWorld && p ≠ G.leaderGuid with
      | none => w
      | some p => w.changeLeader g p

/-- `Disband`. -/
def disband (g : Nat) (w : World P) : World P :=
  match w.groups g with
  | none => w
  | some G =>
      let w := G.memberSlots.foldl (fun w s =>
        if w.findConnectedPlayer s.guid then w.leaveGroup g G.isBGGroup s.guid else w) w
      let w := w.modifyGroup g fun G => { G with memberSlots := [] }
      let w := w.removeAllInvites g
      let w :=
        if G.isBGGroup then w
        else { w with memberRows := fun p =>
          if w.memberRows p = some g then none else w.memberRows p }
      w.deleteGroup g

/-- What a member who is removed refers to afterwards. -/
def unlinkMember (g : Nat) (bg : Bool) (guid : P) (w : World P) : World P :=
  let w := if w.findConnectedPlayer guid then w.leaveGroup g bg guid else w
  if bg then w
  else
    { w with memberRows := Function.update w.memberRows guid none }.delinkMember g guid

/-- The leader `RemoveMember` picks: the first member who is connected. -/
def pickLeader (g : Nat) (w : World P) : World P :=
  match w.groups g with
  | none => w
  | some G =>
      match G.memberSlots.find? fun s => w.findConnectedPlayer s.guid with
      | none => w
      | some s => w.changeLeader g s.guid

/-- `RemoveMember`. A group that is small already, or has too few members
online afterwards, is disbanded. -/
def removeMember (g : Nat) (guid : P) (w : World P) : World P :=
  match w.groups g with
  | none => w
  | some G =>
      if G.getMembersCount ≤ G.least then w.disband g
      else
        let w := w.unlinkMember g G.isBGGroup guid
        let w := w.modifyGroup g fun G => (G.removeFromRolls guid).eraseSlot guid
        let w := if G.isLeader guid then w.pickLeader g else w
        if (w.members g).length < G.least then w.disband g else w

/-- `Player::UninviteFromGroup`. -/
def uninviteFromGroup (p : P) (w : World P) : World P :=
  match (w.players p).groupInvite with
  | none => w
  | some g =>
      let w := w.removeInvite g p
      match w.groups g with
      | none => w
      | some G =>
          if G.isCreated then
            if G.getMembersCount ≤ 1 then w.disband g else w
          else if G.invitees.length ≤ 1 then (w.removeAllInvites g).deleteGroup g
          else w

end World

end Sunstrider.Groups
