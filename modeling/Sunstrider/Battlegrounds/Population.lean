import Sunstrider.Lib.Ledger

/-!
# Who is counted in a battleground

A battleground keeps two pairs of counters. `m_InvitedAlliance` and `m_InvitedHorde`
go up when a queued group is invited and come down in two places: when a player
leaves the queue without entering, and when one who was inside leaves. Between the
queue and the inside a player is travelling: he accepted, was taken off the queue
without a decrement, and the far teleport that `HandleMoveWorldportAck` finishes is
under way. `m_PlayersCount` follows `m_Players`.

The operations are the ones that touch a counter, and with them what decides whether
they do: the slots in which a player keeps his queues and invitations, the group
records of the queue, and the battleground a player is said to be in. An increment
is on natural numbers, since 2^32 players would be needed to pass the end of the
counter; a decrement is the one of the machine, and `wrapped` remembers whether one
was ever made at 0.
-/

namespace Sunstrider.Battlegrounds.Population

open Lib

abbrev ObjectGuid := Nat

/-- A pointer to a `GroupQueueInfo`. -/
abbrev GroupId := Nat

inductive Team
  | alliance
  | horde
deriving DecidableEq, Repr

inductive BattlegroundTypeId
  | none | av | ws | ab | na | be | aa | ey | rl
deriving DecidableEq, Repr

inductive BattlegroundQueueTypeId
  | none | av | ws | ab | ey | arena2v2 | arena3v3 | arena5v5
deriving DecidableEq, Repr

inductive BattlegroundStatus
  | none | waitQueue | waitJoin | inProgress | waitLeave
deriving DecidableEq, Repr

def arenaType2v2 : Nat := 2
def arenaType3v3 : Nat := 3
def arenaType5v5 : Nat := 5

def playerMaxBattlegroundQueues : Nat := 3
def maxBattlegroundBrackets : Nat := 16

/-- In milliseconds. -/
def inviteAcceptWaitTime : Nat := 80 * 1000

def bgQueueTypeId (bgTypeId : BattlegroundTypeId) (arenaType : Nat) : BattlegroundQueueTypeId :=
  match bgTypeId with
  | .ws => .ws
  | .ab => .ab
  | .av => .av
  | .ey => .ey
  | .aa | .be | .na | .rl =>
      if arenaType = arenaType2v2 then .arena2v2
      else if arenaType = arenaType3v3 then .arena3v3
      else if arenaType = arenaType5v5 then .arena5v5
      else .none
  | .none => .none

def bgTemplateId : BattlegroundQueueTypeId → BattlegroundTypeId
  | .ws => .ws
  | .ab => .ab
  | .av => .av
  | .ey => .ey
  | .arena2v2 | .arena3v3 | .arena5v5 => .aa
  | .none => .none

def bgArenaType : BattlegroundQueueTypeId → Nat
  | .arena2v2 => arenaType2v2
  | .arena3v3 => arenaType3v3
  | .arena5v5 => arenaType5v5
  | _ => 0

theorem bgQueueTypeId_template (q : BattlegroundQueueTypeId) :
    bgQueueTypeId (bgTemplateId q) (bgArenaType q) = q := by
  cases q <;> rfl

/-! ## Players -/

/-- `BgBattlegroundQueueID_Rec`. -/
structure QueueSlot where
  bgQueueTypeId : BattlegroundQueueTypeId
  invitedToInstance : Nat
deriving DecidableEq, Repr

def QueueSlot.free : QueueSlot := ⟨.none, 0⟩

/-- What is kept of a character. One who is not connected has no `Player` object; what
the database keeps of him is `bgInstanceID`. -/
structure Player where
  connected : Bool
  team : Team
  bgInstanceID : Nat
  bgTypeID : BattlegroundTypeId
  bgTeam : Option Team
  queueSlots : List QueueSlot

namespace Player

def getBGTeam (p : Player) : Team := p.bgTeam.getD p.team

/-- `GetBattlegroundQueueIndex(t) < PLAYER_MAX_BATTLEGROUND_QUEUES`. -/
def inQueueForType (p : Player) (t : BattlegroundQueueTypeId) : Bool :=
  p.queueSlots.any fun slot => slot.bgQueueTypeId == t

def inBattlegroundQueue (p : Player) : Bool :=
  p.queueSlots.any fun slot => slot.bgQueueTypeId != .none

def hasFreeBattlegroundQueueId (p : Player) : Bool := p.inQueueForType .none

/-- The invitation in the first slot of the queue. -/
def invitation (p : Player) (t : BattlegroundQueueTypeId) : Option Nat :=
  (p.queueSlots.find? fun slot => slot.bgQueueTypeId == t).map QueueSlot.invitedToInstance

def isInvitedForBattlegroundQueueType (p : Player) (t : BattlegroundQueueTypeId) : Bool :=
  match p.invitation t with
  | some id => id != 0
  | none => false

def isInvitedForBattlegroundInstance (p : Player) (instanceId : Nat) : Bool :=
  p.queueSlots.any fun slot => slot.invitedToInstance == instanceId

/-- The loop of `AddBattlegroundQueueId`. -/
def addSlot (t : BattlegroundQueueTypeId) : List QueueSlot → List QueueSlot
  | [] => []
  | slot :: rest =>
      if slot.bgQueueTypeId = .none ∨ slot.bgQueueTypeId = t then ⟨t, 0⟩ :: rest
      else slot :: addSlot t rest

/-- The loop of `RemoveBattlegroundQueueId`. -/
def removeSlot (t : BattlegroundQueueTypeId) : List QueueSlot → List QueueSlot
  | [] => []
  | slot :: rest =>
      if slot.bgQueueTypeId = t then .free :: rest else slot :: removeSlot t rest

def addBattlegroundQueueId (p : Player) (t : BattlegroundQueueTypeId) : Player :=
  { p with queueSlots := addSlot t p.queueSlots }

def removeBattlegroundQueueId (p : Player) (t : BattlegroundQueueTypeId) : Player :=
  { p with queueSlots := removeSlot t p.queueSlots }

def setInviteForBattlegroundQueueType (p : Player) (t : BattlegroundQueueTypeId)
    (instanceId : Nat) : Player :=
  { p with
    queueSlots := p.queueSlots.map fun slot =>
      if slot.bgQueueTypeId = t then { slot with invitedToInstance := instanceId } else slot }

def setBattlegroundId (p : Player) (id : Nat) (bgTypeId : BattlegroundTypeId) : Player :=
  { p with bgInstanceID := id, bgTypeID := bgTypeId }

def setBGTeam (p : Player) (team : Option Team) : Player := { p with bgTeam := team }

end Player

/-! ## The battleground -/

structure Battleground where
  typeID : BattlegroundTypeId
  arenaType : Nat
  isArena : Bool
  status : BattlegroundStatus
  invitedAlliance : Nat
  invitedHorde : Nat
  playersCount : Team → Nat
  players : Ledger ObjectGuid Team
  setDeleteThis : Bool
  /-- Whether a counter has ever been decremented at 0. -/
  wrapped : Bool

/-- `--n` on a `uint32`. -/
def decrement (n : Nat) : Nat := if n = 0 then 2 ^ 32 - 1 else n - 1

namespace Battleground

/-- The queue the battleground is filled from. -/
def queueType (bg : Battleground) : BattlegroundQueueTypeId :=
  bgQueueTypeId bg.typeID bg.arenaType

def getInvitedCount (bg : Battleground) : Team → Nat
  | .alliance => bg.invitedAlliance
  | .horde => bg.invitedHorde

def increaseInvitedCount (bg : Battleground) : Team → Battleground
  | .alliance => { bg with invitedAlliance := bg.invitedAlliance + 1 }
  | .horde => { bg with invitedHorde := bg.invitedHorde + 1 }

def decreaseInvitedCount (bg : Battleground) : Team → Battleground
  | .alliance =>
      { bg with
        invitedAlliance := decrement bg.invitedAlliance
        wrapped := bg.wrapped || bg.invitedAlliance == 0 }
  | .horde =>
      { bg with
        invitedHorde := decrement bg.invitedHorde
        wrapped := bg.wrapped || bg.invitedHorde == 0 }

def updatePlayersCountByTeam (bg : Battleground) (team : Team) (remove : Bool) : Battleground :=
  if remove then
    { bg with
      playersCount := Function.update bg.playersCount team (decrement (bg.playersCount team))
      wrapped := bg.wrapped || bg.playersCount team == 0 }
  else
    { bg with playersCount := Function.update bg.playersCount team (bg.playersCount team + 1) }

def getPlayerTeam (bg : Battleground) (guid : ObjectGuid) : Option Team := bg.players.lookup guid

/-- Nobody inside, nobody invited. -/
def deserted (bg : Battleground) : Bool :=
  bg.players.entries.isEmpty && bg.getInvitedCount .horde == 0 &&
    bg.getInvitedCount .alliance == 0

end Battleground

/-! ## The queue -/

/-- `GroupQueueInfo`. A group is in one list of `m_QueuedGroups`, the one of its bracket
and of its number among the premade and normal lists of both teams. -/
structure GroupQueueInfo where
  players : List ObjectGuid
  nodup : players.Nodup
  team : Team
  bgTypeId : BattlegroundTypeId
  isRated : Bool
  arenaType : Nat
  removeInviteTime : Nat
  isInvitedToBGInstanceGUID : Nat
  bracketId : Nat
  listIndex : Nat

namespace GroupQueueInfo

def teamIndex : Team → Nat
  | .alliance => 0
  | .horde => 1

/-- `RemovePlayer` finds the group: it looks through the brackets and, of the premade and
the normal lists, through those of the team. -/
def isListed (g : GroupQueueInfo) : Bool :=
  decide (g.bracketId < maxBattlegroundBrackets) &&
    (g.listIndex == teamIndex g.team || g.listIndex == teamIndex g.team + 2)

def erasePlayer (g : GroupQueueInfo) (guid : ObjectGuid) : GroupQueueInfo :=
  { g with players := g.players.erase guid, nodup := g.nodup.erase guid }

def queueType (g : GroupQueueInfo) : BattlegroundQueueTypeId := bgQueueTypeId g.bgTypeId g.arenaType

end GroupQueueInfo

structure BattlegroundQueue where
  queuedPlayers : Ledger ObjectGuid GroupId
  groups : GroupId → Option GroupQueueInfo

/-! ## The world -/

structure World where
  queues : BattlegroundQueueTypeId → BattlegroundQueue
  /-- `bgDataStore`, by instance id. -/
  bgs : Nat → Option Battleground
  players : ObjectGuid → Player
  /-- The far teleports to a battleground that are under way. -/
  teleports : Ledger ObjectGuid Nat

namespace World

def setQueue (w : World) (q : BattlegroundQueueTypeId) (queue : BattlegroundQueue) : World :=
  { w with queues := Function.update w.queues q queue }

def setGroup (w : World) (q : BattlegroundQueueTypeId) (gid : GroupId)
    (g : Option GroupQueueInfo) : World :=
  w.setQueue q { w.queues q with groups := Function.update (w.queues q).groups gid g }

def setBg (w : World) (id : Nat) (bg : Battleground) : World :=
  { w with bgs := Function.update w.bgs id (some bg) }

def setPlayer (w : World) (guid : ObjectGuid) (p : Player) : World :=
  { w with players := Function.update w.players guid p }

/-- `BattlegroundMgr::GetBattleground`. -/
def getBattleground (w : World) (instanceId : Nat) (bgTypeId : BattlegroundTypeId) :
    Option Battleground :=
  if instanceId = 0 then none
  else (w.bgs instanceId).filter fun bg => bgTypeId == .none || bg.typeID == bgTypeId

/-- `Player::GetBattleground`. -/
def currentBg (w : World) (guid : ObjectGuid) : Option Battleground :=
  w.getBattleground (w.players guid).bgInstanceID (w.players guid).bgTypeID

/-- The group a queued player belongs to. -/
def groupOf (w : World) (q : BattlegroundQueueTypeId) (guid : ObjectGuid) :
    Option (GroupId × GroupQueueInfo) :=
  match (w.queues q).queuedPlayers.lookup guid with
  | none => none
  | some gid => ((w.queues q).groups gid).map fun g => (gid, g)

/-! ### The queue's operations -/

/-- A member is queued for the group and given a slot. -/
def joinPlayer (q : BattlegroundQueueTypeId) (gid : GroupId) (w : World) (guid : ObjectGuid) :
    World :=
  (w.setQueue q
      { w.queues q with queuedPlayers := (w.queues q).queuedPlayers.insert guid gid }).setPlayer
    guid ((w.players guid).addBattlegroundQueueId q)

/-- `BattlegroundQueue::AddGroup`, with the slots its callers then give the members. -/
def addGroup (w : World) (q : BattlegroundQueueTypeId) (gid : GroupId) (members : List ObjectGuid)
    (nodup : members.Nodup) (team : Team) (isRated isPremade : Bool) (bracketId : Nat) : World :=
  let g : GroupQueueInfo :=
    { players := members.insertionSort (· ≤ ·)
      nodup := (List.perm_insertionSort _ members).nodup_iff.2 nodup
      team := team
      bgTypeId := bgTemplateId q
      isRated := isRated
      arenaType := bgArenaType q
      removeInviteTime := 0
      isInvitedToBGInstanceGUID := 0
      bracketId := bracketId
      listIndex := (if !isRated && !isPremade then 2 else 0) + GroupQueueInfo.teamIndex team }
  members.foldl (joinPlayer q gid) (w.setGroup q gid (some g))

/-- `RemovePlayer` up to the point where it looks at the players that are left. -/
def unqueue (w : World) (q : BattlegroundQueueTypeId) (guid : ObjectGuid) (gid : GroupId)
    (group : GroupQueueInfo) (decreaseInvitedCount : Bool) : World :=
  let left := group.erasePlayer guid
  let w :=
    match w.getBattleground group.isInvitedToBGInstanceGUID group.bgTypeId with
    | none => w
    | some bg =>
        if decreaseInvitedCount && group.isInvitedToBGInstanceGUID != 0 then
          w.setBg group.isInvitedToBGInstanceGUID (bg.decreaseInvitedCount group.team)
        else w
  w.setQueue q
    { queuedPlayers := (w.queues q).queuedPlayers.erase guid
      groups :=
        Function.update (w.queues q).groups gid (if left.players = [] then none else some left) }

/-- `BattlegroundQueue::RemovePlayer`. The last branch is its recursion: with one player
a rated group that is not invited yet leaves as a whole. -/
def removePlayer (q : BattlegroundQueueTypeId) (decreaseInvitedCount : Bool) :
    Nat → ObjectGuid → World → World
  | 0, _, w => w
  | fuel + 1, guid, w =>
      match w.groupOf q guid with
      | none => w
      | some (gid, group) =>
          if group.isListed then
            let w := w.unqueue q guid gid group decreaseInvitedCount
            match group.players.erase guid with
            | [] => w
            | next :: _ =>
                if group.isInvitedToBGInstanceGUID = 0 ∧ group.isRated then
                  let w :=
                    if (w.players next).connected then
                      w.setPlayer next ((w.players next).removeBattlegroundQueueId group.queueType)
                    else w
                  removePlayer q decreaseInvitedCount fuel next w
                else w
          else w

/-- Every call that goes on takes a player off the queue. -/
def queueRemovePlayer (w : World) (q : BattlegroundQueueTypeId) (guid : ObjectGuid)
    (decreaseInvitedCount : Bool) : World :=
  removePlayer q decreaseInvitedCount (w.queues q).queuedPlayers.entries.length guid w

/-- The body of the loop of `InviteGroupToBG`. -/
def invitePlayer (instanceId : Nat) (team : Team) (w : World) (guid : ObjectGuid) : World :=
  match w.bgs instanceId with
  | none => w
  | some bg =>
      if (w.players guid).connected then
        (w.setBg instanceId (bg.increaseInvitedCount team)).setPlayer guid
          ((w.players guid).setInviteForBattlegroundQueueType bg.queueType instanceId)
      else w

/-- `BattlegroundQueue::InviteGroupToBG`. -/
def inviteGroupToBG (w : World) (q : BattlegroundQueueTypeId) (gid : GroupId) (instanceId : Nat)
    (side : Option Team) (now : Nat) : World :=
  match (w.queues q).groups gid with
  | none => w
  | some ginfo =>
      let ginfo := { ginfo with team := side.getD ginfo.team }
      if ginfo.isInvitedToBGInstanceGUID = 0 then
        let ginfo :=
          { ginfo with
            isInvitedToBGInstanceGUID := instanceId
            removeInviteTime := now + inviteAcceptWaitTime }
        ginfo.players.foldl (invitePlayer instanceId ginfo.team) (w.setGroup q gid (some ginfo))
      else w.setGroup q gid (some ginfo)

/-- A group that is not invited moves to the list of the other team. This is what
`BattlegroundQueueUpdate` does with a rated team before it invites it for a side, and
`CheckSkirmishForSameFaction`, which sets the team there and then. -/
def moveToList (w : World) (q : BattlegroundQueueTypeId) (gid : GroupId) (side : Team)
    (setTeam : Bool) : World :=
  match (w.queues q).groups gid with
  | none => w
  | some ginfo =>
      if ginfo.isInvitedToBGInstanceGUID = 0 ∧ ginfo.team ≠ side then
        w.setGroup q gid
          (some
            { ginfo with
              team := if setTeam then side else ginfo.team
              listIndex :=
                ginfo.listIndex - GroupQueueInfo.teamIndex ginfo.team +
                  GroupQueueInfo.teamIndex side })
      else w

/-- The rated half of `BattlegroundQueueUpdate`, for one of the two teams it found. -/
def inviteRated (w : World) (q : BattlegroundQueueTypeId) (gid : GroupId) (instanceId : Nat)
    (side : Team) (now : Nat) : World :=
  match (w.queues q).groups gid with
  | none => w
  | some ginfo =>
      if ginfo.isInvitedToBGInstanceGUID = 0 then
        (w.moveToList q gid side false).inviteGroupToBG q gid instanceId (some side) now
      else w

/-! ### The battleground's operations -/

/-- `Battleground::AddPlayer`. -/
def addPlayer (w : World) (instanceId : Nat) (bg : Battleground) (guid : ObjectGuid) : World :=
  let team := (w.players guid).getBGTeam
  w.setBg instanceId
    ({ bg with players := bg.players.insert guid team }.updatePlayersCountByTeam team false)

/-- The first part of `RemovePlayerAtLeave`: a player who is in `m_Players` is taken out,
and only for him the invitations go down. `found` says whether the player is found in the
world; he is not while he is between two maps or offline. -/
def removeParticipant (w : World) (instanceId : Nat) (bg : Battleground) (guid : ObjectGuid)
    (found : Bool) : World :=
  match bg.getPlayerTeam guid with
  | none => w
  | some team =>
      let bg := { bg.updatePlayersCountByTeam team true with players := bg.players.erase guid }
      let w :=
        if found then
          w.setPlayer guid ((w.players guid).removeBattlegroundQueueId bg.queueType)
        else w
      w.setBg instanceId (bg.decreaseInvitedCount team)

/-- The last part: the player is in no battleground any more, unless this one is to be
deleted and left as it is. -/
def finishLeave (w : World) (instanceId : Nat) (guid : ObjectGuid) (transport found : Bool) :
    World :=
  match w.bgs instanceId with
  | none => w
  | some bg =>
      if bg.deserted then w.setBg instanceId { bg with setDeleteThis := true }
      else if found then
        let w := w.setPlayer guid (((w.players guid).setBattlegroundId 0 .none).setBGTeam none)
        if transport then { w with teleports := w.teleports.erase guid } else w
      else w

/-- `Battleground::RemovePlayerAtLeave`. -/
def removePlayerAtLeave (w : World) (instanceId : Nat) (bg : Battleground) (guid : ObjectGuid)
    (transport found : Bool) : World :=
  (w.removeParticipant instanceId bg guid found).finishLeave instanceId guid transport found

/-- `Player::LeaveBattleground`. -/
def leaveBattleground (w : World) (guid : ObjectGuid) (transport found : Bool) : World :=
  match w.currentBg guid with
  | none => w
  | some bg =>
      w.removePlayerAtLeave (w.players guid).bgInstanceID bg guid transport
        (found && (w.players guid).connected)

/-- `Player::TeleportTo` a map that is not the one of his battleground. What he was on his
way to is forgotten. -/
def teleportAway (w : World) (guid : ObjectGuid) (found : Bool) : World :=
  let w := w.leaveBattleground guid false found
  { w with teleports := w.teleports.erase guid }

/-! ### The sessions' operations -/

/-- What `HandleBattleFieldPortOpcode` reads besides the state modelled here. The template
is what is known of the one of the battleground type, whether it is an arena and its status. -/
structure PortRequest where
  arenaType : Nat
  bgTypeId : BattlegroundTypeId
  action : Nat
  template : Option (Bool × BattlegroundStatus)
  bracketFound : Bool
  canJoin : Bool
  aboveMaxLevel : Bool
  frozen : Bool

/-- The action after the checks for deserters and for the level. -/
def PortRequest.effectiveAction (r : PortRequest) (ginfo : GroupQueueInfo) : Nat :=
  if r.action = 1 ∧ ginfo.arenaType = 0 ∧ (!r.canJoin || r.aboveMaxLevel) then 0 else r.action

/-- The part of `HandleBattleFieldPortOpcode` for a player who enters. -/
def enterBattleground (w : World) (guid : ObjectGuid) (q : BattlegroundQueueTypeId)
    (bgTypeId : BattlegroundTypeId) (ginfo : GroupQueueInfo) : World :=
  let w := w.queueRemovePlayer q guid false
  let w :=
    match w.currentBg guid with
    | none => w
    | some currentBg =>
        w.removePlayerAtLeave (w.players guid).bgInstanceID currentBg guid false true
  let w :=
    w.setPlayer guid
      (((w.players guid).setBattlegroundId ginfo.isInvitedToBGInstanceGUID bgTypeId).setBGTeam
        (some ginfo.team))
  { w with teleports := w.teleports.insert guid ginfo.isInvitedToBGInstanceGUID }

/-- The part for a player who leaves the queue. -/
def leaveQueue (w : World) (guid : ObjectGuid) (q : BattlegroundQueueTypeId) : World :=
  (w.setPlayer guid ((w.players guid).removeBattlegroundQueueId q)).queueRemovePlayer q guid true

def handleBattleFieldPort (w : World) (guid : ObjectGuid) (r : PortRequest) : World :=
  if !(w.players guid).connected || !(w.players guid).inBattlegroundQueue then w
  else
    let q := bgQueueTypeId r.bgTypeId r.arenaType
    match w.groupOf q guid with
    | none => w
    | some (_, ginfo) =>
        if ginfo.isInvitedToBGInstanceGUID = 0 ∧ r.action = 1 then w
        else
          match w.getBattleground ginfo.isInvitedToBGInstanceGUID r.bgTypeId with
          | some bg =>
              if !r.bracketFound then w
              else if r.effectiveAction ginfo ≠ 0 then
                if r.frozen || !(w.players guid).isInvitedForBattlegroundQueueType q then w
                else w.enterBattleground guid q r.bgTypeId ginfo
              else if bg.isArena && (bg.status != .none && bg.status != .waitQueue) then w
              else w.leaveQueue guid q
          | none =>
              match r.template with
              | none => w
              | some (isArena, status) =>
                  if r.action ≠ 0 || !r.bracketFound then w
                  else if isArena && (status != .none && status != .waitQueue) then w
                  else w.leaveQueue guid q

/-- `BGQueueRemoveEvent::Execute`. -/
def bgQueueRemoveEvent (w : World) (guid : ObjectGuid) (instanceId : Nat)
    (q : BattlegroundQueueTypeId) (removeTime : Nat) : World :=
  if (w.players guid).connected && (w.players guid).inQueueForType q then
    match w.groupOf q guid with
    | none => w
    | some (_, ginfo) =>
        if ginfo.isInvitedToBGInstanceGUID = instanceId ∧ ginfo.removeInviteTime = removeTime then
          w.leaveQueue guid q
        else w
  else w

/-- `WorldSession::HandleMoveWorldportAck`, when the map takes the player in. -/
def handleMoveWorldportAck (w : World) (guid : ObjectGuid) : World :=
  match w.teleports.lookup guid with
  | none => w
  | some _ =>
      let w := { w with teleports := w.teleports.erase guid }
      match w.currentBg guid with
      | none => w
      | some bg =>
          if (w.players guid).isInvitedForBattlegroundInstance (w.players guid).bgInstanceID then
            w.addPlayer (w.players guid).bgInstanceID bg guid
          else w

/-- The loop of `LogoutPlayer` over the slots. What it reads at a slot is what stood there
before the loop: an iteration clears only a slot of its own queue. -/
def logoutSlots (guid : ObjectGuid) (w : World) (slots : List QueueSlot) : World :=
  slots.foldl
    (fun w slot => if slot.bgQueueTypeId = .none then w else w.leaveQueue guid slot.bgQueueTypeId)
    w

/-- `Battleground::EventPlayerLoggedOut`. -/
def eventPlayerLoggedOut (w : World) (guid : ObjectGuid) (found : Bool) : World :=
  match w.currentBg guid with
  | none => w
  | some bg =>
      if (bg.getPlayerTeam guid).isSome && bg.status == .inProgress && bg.isArena then
        w.leaveBattleground guid true found
      else w

/-- `WorldSession::LogoutPlayer`. -/
def logoutPlayer (w : World) (guid : ObjectGuid) (found : Bool) : World :=
  if (w.players guid).connected then
    let w := w.eventPlayerLoggedOut guid found
    let w := logoutSlots guid w (w.players guid).queueSlots
    let w := w.handleMoveWorldportAck guid
    w.setPlayer guid { w.players guid with connected := false }
  else w

/-- The battleground part of `Player::LoadFromDB`. A player who logged out inside was saved
on its map. -/
def loadFromDB (w : World) (guid : ObjectGuid) (onBattlegroundMap : Bool) : World :=
  if (w.players guid).connected then w
  else
    let w :=
      w.setPlayer guid
        { w.players guid with
          connected := true
          bgTypeID := .none
          bgTeam := none
          queueSlots := List.replicate playerMaxBattlegroundQueues .free }
    let id := (w.players guid).bgInstanceID
    match (w.getBattleground id .none).filter fun bg => (bg.getPlayerTeam guid).isSome with
    | some bg =>
        if bg.status ≠ .waitLeave then
          let p := (w.players guid).addBattlegroundQueueId bg.queueType
          let p := { p with bgTypeID := bg.typeID }
          w.setPlayer guid (p.setInviteForBattlegroundQueueType bg.queueType id)
        else
          let w := w.removePlayerAtLeave id bg guid false false
          w.setPlayer guid { w.players guid with bgInstanceID := 0 }
    | none =>
        if onBattlegroundMap then w.setPlayer guid { w.players guid with bgInstanceID := 0 } else w

end World

/-! ## Runs -/

/-- What can happen, in any order. -/
inductive Op
  /-- `CreateNewBattleground` for the queue, with a new instance id. -/
  | create (q : BattlegroundQueueTypeId) (instanceId : Nat) (isArena : Bool)
  | setStatus (instanceId : Nat) (status : BattlegroundStatus)
  | join (q : BattlegroundQueueTypeId) (gid : GroupId) (members : List ObjectGuid) (team : Team)
      (isRated isPremade : Bool) (bracketId : Nat)
  | skirmish (q : BattlegroundQueueTypeId) (gid : GroupId) (side : Team)
  | invite (gid : GroupId) (instanceId now : Nat)
  | inviteRated (gid : GroupId) (instanceId : Nat) (side : Team) (now : Nat)
  | port (guid : ObjectGuid) (r : World.PortRequest)
  | expire (guid : ObjectGuid) (instanceId : Nat) (q : BattlegroundQueueTypeId) (removeTime : Nat)
  | arrive (guid : ObjectGuid)
  | leave (guid : ObjectGuid) (found : Bool)
  | teleportAway (guid : ObjectGuid) (found : Bool)
  /-- A player in `m_Players` is put out, at the end or for being offline too long. -/
  | kick (instanceId : Nat) (guid : ObjectGuid) (found : Bool)
  | logout (guid : ObjectGuid) (found : Bool)
  | login (guid : ObjectGuid) (onBattlegroundMap : Bool)

/-- What the handlers ask of those who join: connected, no slot of this queue, and one free. -/
def mayJoin (w : World) (q : BattlegroundQueueTypeId) (guid : ObjectGuid) : Bool :=
  (w.players guid).connected && !(w.players guid).inQueueForType q &&
    (w.players guid).hasFreeBattlegroundQueueId

def newBattleground (q : BattlegroundQueueTypeId) (isArena : Bool) : Battleground :=
  { typeID := bgTemplateId q
    arenaType := bgArenaType q
    isArena := isArena
    status := .waitJoin
    invitedAlliance := 0
    invitedHorde := 0
    playersCount := fun _ => 0
    players := ∅
    setDeleteThis := false
    wrapped := false }

def step (w : World) : Op → World
  | .create q id isArena =>
      if q ≠ .none ∧ id ≠ 0 ∧ (w.bgs id).isNone then w.setBg id (newBattleground q isArena) else w
  | .setStatus id status =>
      match w.bgs id with
      | none => w
      | some bg => w.setBg id { bg with status := status }
  | .join q gid members team isRated isPremade bracketId =>
      if h : members.Nodup ∧ members ≠ [] ∧ ((w.queues q).groups gid).isNone ∧
          bracketId < maxBattlegroundBrackets ∧ (members.all fun guid => mayJoin w q guid) then
        w.addGroup q gid members h.1 team isRated isPremade bracketId
      else w
  | .skirmish q gid side => w.moveToList q gid side true
  | .invite gid id now =>
      match w.bgs id with
      | none => w
      | some bg =>
          match (w.queues bg.queueType).groups gid with
          | none => w
          | some g => w.inviteGroupToBG bg.queueType gid id (some g.team) now
  | .inviteRated gid id side now =>
      match w.bgs id with
      | none => w
      | some bg => w.inviteRated bg.queueType gid id side now
  | .port guid r => w.handleBattleFieldPort guid r
  | .expire guid id q removeTime => w.bgQueueRemoveEvent guid id q removeTime
  | .arrive guid => w.handleMoveWorldportAck guid
  | .leave guid found => w.leaveBattleground guid true found
  | .teleportAway guid found => w.teleportAway guid found
  | .kick id guid found =>
      match w.bgs id with
      | none => w
      | some bg =>
          if (bg.getPlayerTeam guid).isSome then
            w.removePlayerAtLeave id bg guid true (found && (w.players guid).connected)
          else w
  | .logout guid found => w.logoutPlayer guid found
  | .login guid onBattlegroundMap => w.loadFromDB guid onBattlegroundMap

def run (w : World) (ops : List Op) : World := ops.foldl step w

/-- Nobody is connected, queued or invited, and there is no battleground. -/
def start (team : ObjectGuid → Team) : World where
  queues := fun _ => ⟨∅, fun _ => none⟩
  bgs := fun _ => none
  players := fun guid =>
    { connected := false
      team := team guid
      bgInstanceID := 0
      bgTypeID := .none
      bgTeam := none
      queueSlots := [] }
  teleports := ∅

end Sunstrider.Battlegrounds.Population
