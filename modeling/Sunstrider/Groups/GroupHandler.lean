import Sunstrider.Groups.GroupLoot

/-!
# Group handlers

What players, battlegrounds, the looking-for-group tool, game masters and timers
do to groups, one operation each; `step` performs one, and a run is a fold over
a list. Operations of a player need a connected player.

The by-name and the by-GUID request to uninvite somebody are two handlers; each
is a decision, which `applyUninvite` then carries out. A name is normalised and
looked up by a `Realm`. Packets, and the rules about factions, instances and
ignored players that an invitation has to pass, are left out: `allowed` says
whether it passes them.
-/

namespace Sunstrider.Groups

open Looting

variable {P : Type} [LinearOrder P]

/-- Names: `normalizePlayerName`, and `FindConnectedPlayerByName` or else the
character cache. -/
structure Realm (P : Type) where
  normalizePlayerName : String → Option String
  guidByName : String → Option P

inductive PartyResult
  | ok
  | notInYourParty
  | youNotInGroup
  | youNotLeader
  | inviteRestricted
deriving DecidableEq, Repr

/-- What a request to uninvite comes to. -/
inductive UninviteDecision (P : Type)
  | ignore
  | answer (res : PartyResult)
  | removeFromGroup (group : Nat) (guid : P)
  | uninviteFromGroup (player : P)
deriving DecidableEq

namespace World

/-! ## Invitations -/

/-- The end of `_HandleGroupInviteOpcode`: the group of the inviter, or a new one
that is not created before somebody joins. -/
def inviteTo (inviter target : P) (w : World P) : World P :=
  match w.partyOf inviter with
  | some g =>
      match w.groups g with
      | none => w
      | some G =>
          if !G.isLeader inviter && !G.isAssistant inviter then w
          else if G.isFull then w
          else (w.addInvite g target).getD w
  | none =>
      -- a group that cannot invite both is deleted again
      let g := w.nextGroup
      match (w.newGroup inviter none).addInvite g inviter with
      | none => w
      | some w' => (w'.addInvite g target).getD w

/-- `_HandleGroupInviteOpcode`. -/
def handleGroupInvite (inviter target : P) (allowed : Bool) (w : World P) : World P :=
  if inviter = target then w
  else if !w.findConnectedPlayer target || !allowed then w
  else if (w.partyOf target).isSome || (w.players target).groupInvite.isSome then w
  else w.inviteTo inviter target

/-- The rows of new members, when their transaction is committed. A member has
one row; the rows of battleground raids are not kept. -/
def commitRows (g : Nat) (new : List P) (w : World P) : World P :=
  if w.isBGGroup g then w
  else
    { w with memberRows := fun p =>
        if p ∈ new ∧ w.memberRows p = none then some g else w.memberRows p }

/-- `HandleGroupAcceptOpcode` for a group that has to be created first. -/
def acceptFirst (g : Nat) (leader p : P) (w : World P) : World P :=
  if !w.findPlayer leader then w.removeAllInvites g
  else
    let w := w.removeInvite g leader
    match w.create g leader with
    | none => w
    | some w =>
        match w.addMember g p with
        | none => w
        | some w => w.commitRows g [leader, p]

/-- `HandleGroupAcceptOpcode`. -/
def handleGroupAccept (p : P) (w : World P) : World P :=
  match (w.players p).groupInvite with
  | none => w
  | some g =>
      match w.groups g with
      | none => w
      | some G =>
          if G.isLeader p then w
          else
            let w := w.removeInvite g p
            if G.isFull then w
            else if G.isCreated then
              match w.addMember g p with
              | none => w
              | some w => w.commitRows g [p]
            else w.acceptFirst g G.leaderGuid p

/-- `HandleGroupDeclineOpcode`. -/
def handleGroupDecline (p : P) (w : World P) : World P :=
  match (w.players p).groupInvite with
  | none => w
  | some g =>
      match w.groups g with
      | none => w
      | some G =>
          if !w.findConnectedPlayer G.leaderGuid then w
          else
            let w := if G.isCreated then w else (w.removeAllInvites g).deleteGroup g
            w.setGroupInvite none p

/-! ## Uninviting -/

/-- `Player::CanUninviteFromGroup`. -/
def canUninviteFromGroup (p : P) (w : World P) : PartyResult :=
  match (w.getGroup p).bind w.groups with
  | none => .youNotInGroup
  | some G =>
      if !G.isLeader p && !G.isAssistant p then .youNotLeader
      else if (w.players p).inBattleground then .inviteRestricted
      else .ok

/-- `Group::GetInvited`. -/
def getInvited (G : Group P) (is : P → Bool) : Option P := G.invitees.find? is

/-- `HandleGroupUninviteGuidOpcode`. -/
def uninviteGuid (p guid : P) (w : World P) : UninviteDecision P :=
  if guid = p then .ignore
  else
    let res := w.canUninviteFromGroup p
    if res ≠ .ok then .answer res
    else
      match w.getGroup p with
      | none => .ignore
      | some g =>
          match w.groups g with
          | none => .ignore
          | some G =>
              if G.isMember guid then .removeFromGroup g guid
              else
                match getInvited G fun q => q = guid with
                | some q => .uninviteFromGroup q
                | none => .answer .notInYourParty

/-- `HandleGroupUninviteOpcode`. -/
def uninviteName (realm : Realm P) (p : P) (name : String) (w : World P) :
    UninviteDecision P :=
  match realm.normalizePlayerName name with
  | none => .ignore
  | some membername =>
      if (w.players p).name = membername then .ignore
      else
        let res := w.canUninviteFromGroup p
        if res ≠ .ok then .answer res
        else
          match w.getGroup p with
          | none => .ignore
          | some g =>
              match w.groups g with
              | none => .ignore
              | some G =>
                  match G.getMemberGUID membername with
                  | some guid =>
                      if G.isLeader guid then .ignore else .removeFromGroup g guid
                  | none =>
                      match getInvited G fun q => (w.players q).name = membername with
                      | some q => .uninviteFromGroup q
                      | none => .answer .notInYourParty

def applyUninvite (d : UninviteDecision P) (w : World P) : World P :=
  match d with
  | .ignore => w
  | .answer _ => w
  | .removeFromGroup g guid => w.removeMember g guid
  | .uninviteFromGroup q => w.uninviteFromGroup q

/-! ## Members and leaders -/

/-- A change to the group of a player. -/
def onGroupOf (p : P) (f : Nat → Group P → World P → World P) (w : World P) : World P :=
  match w.getGroup p with
  | none => w
  | some g =>
      match w.groups g with
      | none => w
      | some G => f g G w

/-- `HandleGroupDisbandOpcode`: the player leaves. -/
def handleGroupDisband (p : P) (w : World P) : World P :=
  w.onGroupOf p fun g _ w =>
    if (w.players p).inBattleground then w else w.removeMember g p

/-- `HandleGroupSetLeaderOpcode`. -/
def handleGroupSetLeader (p guid : P) (w : World P) : World P :=
  w.onGroupOf p fun g G w =>
    if !w.findConnectedPlayer guid || !G.isLeader p || w.getGroup guid ≠ some g then w
    else w.changeLeader g guid

/-- `HandleGroupRaidConvertOpcode`. -/
def handleGroupRaidConvert (p : P) (w : World P) : World P :=
  w.onGroupOf p fun g G w =>
    if (w.players p).inBattleground then w
    else if !G.isLeader p || decide (G.getMembersCount < 2) then w
    else w.modifyGroup g Group.convertToRaid

/-- `HandleGroupChangeSubGroupOpcode`. -/
def handleGroupChangeSubGroup (realm : Realm P) (p : P) (name : String) (groupNr : Nat)
    (w : World P) : World P :=
  w.onGroupOf p fun g G w =>
    match realm.normalizePlayerName name with
    | none => w
    | some name =>
        if maxRaidSubgroups ≤ groupNr then w
        else if !G.isLeader p && !G.isAssistant p then w
        else if !G.hasFreeSlotSubGroup groupNr then w
        else
          match realm.guidByName name with
          | none => w
          | some guid => w.modifyGroup g (Group.changeMembersGroup guid groupNr)

/-- `HandleGroupSwapSubGroupOpcode`. -/
def handleGroupSwapSubGroup (realm : Realm P) (p : P) (name1 name2 : String) (w : World P) :
    World P :=
  match (realm.normalizePlayerName name1).bind realm.guidByName,
      (realm.normalizePlayerName name2).bind realm.guidByName with
  | some guid1, some guid2 =>
      w.onGroupOf p fun g G w =>
        if !G.isRaidGroup then w
        else if !G.isLeader p && !G.isAssistant p then w
        else
          let groupId1 := G.getMemberGroup guid1
          let groupId2 := G.getMemberGroup guid2
          if groupId1 = maxRaidSubgroups + 1 ∨ groupId2 = maxRaidSubgroups + 1 then w
          else if groupId1 = groupId2 then w
          else
            w.modifyGroup g fun G =>
              (G.changeMembersGroup guid1 groupId2).changeMembersGroup guid2 groupId1
  | _, _ => w

/-- `HandleGroupAssistantLeaderOpcode`. -/
def handleGroupAssistantLeader (p guid : P) (apply : Bool) (w : World P) : World P :=
  w.onGroupOf p fun g G w =>
    if !G.isLeader p then w else w.modifyGroup g (Group.setGroupMemberFlag guid apply)

/-! ## Looking for group -/

/-- A player without a group, or the leader of one, takes in somebody without a
group. -/
def lfgAdd (owner p : P) (w : World P) : Option (World P) :=
  match w.getGroup owner with
  | some g => w.addMember g p
  | none =>
      let g := w.nextGroup
      match (w.newGroup owner none).create g owner with
      | none => none
      | some w => w.addMember g p

/-- The players `AttemptJoin` and `AttemptAddMore` do not skip. -/
def lfgPair (owner p : P) (w : World P) : Bool :=
  owner ≠ p && w.findConnectedPlayer owner && w.findConnectedPlayer p &&
    (w.getGroup p).isNone &&
    match (w.getGroup owner).bind w.groups with
    | none => (w.getGroup owner).isNone
    | some G => G.isLeader owner

/-- `AttemptJoin` for one candidate. It leaves the loop before it would commit. -/
def attemptJoin (p owner : P) (w : World P) : World P :=
  if w.lfgPair owner p then (w.lfgAdd owner p).getD w else w

/-- `AttemptAddMore` for one candidate. -/
def attemptAddMore (owner p : P) (w : World P) : World P :=
  if w.lfgPair owner p then
    match w.lfgAdd owner p with
    | none => w
    | some w' =>
        match w'.getGroup owner with
        | none => w'
        | some g => w'.commitRows g (if (w.getGroup owner).isNone then [owner, p] else [p])
  else w

/-! ## Battlegrounds -/

/-- A member of a battleground raid who leads the group outside leads the raid
too. -/
def leadFromOutside (g : Nat) (p : P) (w : World P) : World P :=
  match (w.getOriginalGroup p).bind w.groups with
  | none => w
  | some O => if O.isLeader p then w.changeLeader g p else w

/-- `Battleground::AddOrSetPlayerToCorrectBgGroup`. -/
def addOrSetPlayerToCorrectBgGroup (p : P) (b : Nat) (w : World P) : World P :=
  match w.bgRaids b with
  | none =>
      let g := w.nextGroup
      let w := w.newGroup p (some b)
      let w := { w with bgRaids := Function.update w.bgRaids b (some g) }
      (w.create g p).getD w
  | some g =>
      match w.groups g with
      | none => w
      | some G =>
          if G.isMember p then w.setBattlegroundRaid g p
          else ((w.addMember g p).getD w).leadFromOutside g p

def setInBattleground (p : P) (b : Bool) (w : World P) : World P :=
  w.setPlayer p { w.players p with inBattleground := b }

/-- What `Battleground::RemovePlayerAtLeave` does to the raid. -/
def leaveBattleground (p : P) (b : Nat) (w : World P) : World P :=
  let w := match w.bgRaids b with
    | none => w
    | some g => w.removeMember g p
  w.setInBattleground p false

/-! ## Coming and going -/

/-- `Player::_LoadGroup` of a new player object. -/
def login (p : P) (w : World P) : World P :=
  if w.findConnectedPlayer p then w
  else
    let w := w.setPlayer p ⟨(w.players p).name, true, true, none, false⟩
    match w.memberRows p with
    | none => w
    | some g => if (w.groups g).isSome then w.setGroup (some g) p else w

/-- `WorldSession::LogoutPlayer`; the references go with the player object. -/
def logout (p : P) (w : World P) : World P :=
  let w := w.uninviteFromGroup p
  let w := w.setPlayer p ⟨(w.players p).name, false, false, (w.players p).groupInvite, false⟩
  { w with links := w.links.filter fun l => l.player ≠ p }

def setInWorld (p : P) (b : Bool) (w : World P) : World P :=
  w.setPlayer p { w.players p with inWorld := b }

/-- `LoadGroupFromDB`, then `LoadMemberFromDB` for each row. -/
def loadGroup (leader : P) (raid : Bool) (rows : List (MemberSlot P)) (w : World P) :
    World P :=
  let g := w.nextGroup
  let w := w.newGroup leader none
  let w := w.modifyGroup g fun G => if raid then G.convertToRaid else G
  let w := w.modifyGroup g fun G => rows.foldl (fun G s => G.pushSlot s) G
  { w with memberRows := fun p => if p ∈ rows.map MemberSlot.guid then some g else w.memberRows p }

/-- `HandleLootRoll`. -/
def handleLootRoll (env : CountEnv P) (p : P) (itemGUID rollType : Nat) (w : World P) :
    World P :=
  w.onGroupOf p fun g _ w =>
    if maxRollType ≤ rollType then w
    else w.countRollVote env g p itemGUID (rollTypeVote rollType)

end World

/-! ## Operations -/

inductive Op (P : Type)
  | login (p : P)
  | logout (p : P)
  | setInWorld (p : P) (b : Bool)
  | invite (p target : P) (allowed : Bool)
  | accept (p : P)
  | decline (p : P)
  | uninviteGuid (p guid : P)
  | uninviteName (p : P) (name : String)
  | leave (p : P)
  | setLeader (p guid : P)
  | raidConvert (p : P)
  | changeSubGroup (p : P) (name : String) (groupNr : Nat)
  | swapSubGroup (p : P) (name1 name2 : String)
  | assistantLeader (p guid : P) (apply : Bool)
  | attemptJoin (p owner : P)
  | attemptAddMore (owner p : P)
  | joinBattleground (p : P) (b : Nat)
  | leaveBattleground (p : P) (b : Nat)
  /-- A game master, or the deletion of a character. -/
  | removeMember (g : Nat) (guid : P)
  | disband (g : Nat)
  | changeLeader (g : Nat) (guid : P)
  /-- `Group::Update`, once the leader has been away for long. -/
  | changeLeaderToFirstOnlineMember (g : Nat)
  | loadGroup (leader : P) (raid : Bool) (rows : List (MemberSlot P))
  | groupLoot (env : StartEnv P) (g lid : Nat)
  | needBeforeGreed (env : StartEnv P) (g lid : Nat)
  | lootRoll (env : CountEnv P) (p : P) (itemGUID rollType : Nat)
  | endRoll (env : Nat → CountEnv P) (allowedMap g lid : Nat)
  /-- The owner of the loot is gone. -/
  | loseLoot (lid : Nat)

namespace World

/-- An operation a player asks for. -/
def byPlayer (p : P) (f : World P → World P) (w : World P) : World P :=
  if w.findConnectedPlayer p then f w else w

def step (realm : Realm P) (w : World P) (o : Op P) : World P :=
  match o with
  | .login p => w.login p
  | .logout p => w.byPlayer p (logout p)
  | .setInWorld p b => w.byPlayer p (setInWorld p b)
  | .invite p target allowed => w.byPlayer p (handleGroupInvite p target allowed)
  | .accept p => w.byPlayer p (handleGroupAccept p)
  | .decline p => w.byPlayer p (handleGroupDecline p)
  | .uninviteGuid p guid => w.byPlayer p fun w => w.applyUninvite (w.uninviteGuid p guid)
  | .uninviteName p name => w.byPlayer p fun w => w.applyUninvite (w.uninviteName realm p name)
  | .leave p => w.byPlayer p (handleGroupDisband p)
  | .setLeader p guid => w.byPlayer p (handleGroupSetLeader p guid)
  | .raidConvert p => w.byPlayer p (handleGroupRaidConvert p)
  | .changeSubGroup p name groupNr =>
      w.byPlayer p (handleGroupChangeSubGroup realm p name groupNr)
  | .swapSubGroup p name1 name2 => w.byPlayer p (handleGroupSwapSubGroup realm p name1 name2)
  | .assistantLeader p guid apply => w.byPlayer p (handleGroupAssistantLeader p guid apply)
  | .attemptJoin p owner => w.attemptJoin p owner
  | .attemptAddMore owner p => w.attemptAddMore owner p
  | .joinBattleground p b => w.byPlayer p fun w =>
      (w.setInBattleground p true).addOrSetPlayerToCorrectBgGroup p b
  | .leaveBattleground p b => w.leaveBattleground p b
  | .removeMember g guid => w.removeMember g guid
  | .disband g => w.disband g
  | .changeLeader g guid => w.changeLeader g guid
  | .changeLeaderToFirstOnlineMember g => w.changeLeaderToFirstOnlineMember g
  | .loadGroup leader raid rows => w.loadGroup leader raid rows
  | .groupLoot env g lid => w.groupLoot env g lid
  | .needBeforeGreed env g lid => w.needBeforeGreed env g lid
  | .lootRoll env p itemGUID rollType => w.byPlayer p (handleLootRoll env p itemGUID rollType)
  | .endRoll env allowedMap g lid => w.endRoll env allowedMap g lid
  | .loseLoot lid => w.setLoot lid none

def run (realm : Realm P) (w : World P) (ops : List (Op P)) : World P :=
  ops.foldl (step realm) w

/-- Nobody is connected and there are no groups. -/
def start (names : P → String) (loots : Nat → Option (Loot P)) : World P where
  players p := ⟨names p, false, false, none, false⟩
  groupObjects := []
  links := []
  memberRows _ := none
  bgRaids _ := none
  loots := loots
  nextItemGUID := 0

end World

end Sunstrider.Groups
