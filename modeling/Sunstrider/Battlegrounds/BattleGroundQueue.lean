import Sunstrider.Battlegrounds.SelectionPool

/-!
# Joining, leaving and updating the queue

`AddGroup`, `RemovePlayer` and `BattlegroundQueueUpdate`, which invites from
the selection pools and moves groups from list to list.

A request says what a call finds around it: the members of the party, the
battlegrounds with free slots that pass the tests of the first loop, the
template, the configuration, the instance a new battleground gets (or that none
could be created), and the time. Messages, wait times, the events of an
invitation and the counters of the battlegrounds are not part of the queue.
`step` asks of those who join what the handlers ask, that they are in no group
of the queue.
-/

namespace Sunstrider.Battlegrounds.Matching

open Population (Team ObjectGuid GroupId maxBattlegroundBrackets inviteAcceptWaitTime)

/-! ## Joining and leaving -/

/-- Who joins: the members of a party, or the leader alone. -/
structure JoinRequest where
  members : List ObjectGuid
  team : Team
  bracket : Nat
  arenaType : Nat
  isRated : Bool
  isPremade : Bool
  arenaRating : Nat
  matchmakerRating : Nat
  arenaTeamId : Nat
  now : Nat

/-- `ginfo->Players[guid] = ..`. -/
def insertPlayer (players : List ObjectGuid) (guid : ObjectGuid) : List ObjectGuid :=
  if guid ∈ players then players else players.orderedInsert (· ≤ ·) guid

namespace JoinRequest

/-- The list the group is put into. -/
def place (r : JoinRequest) : ListId :=
  ⟨r.bracket, if !r.isRated && !r.isPremade then .normal else .premade, r.team⟩

def ginfo (r : JoinRequest) : GroupQueueInfo where
  players := r.members.foldl insertPlayer []
  team := r.team
  isRated := r.isRated
  arenaType := r.arenaType
  arenaTeamId := r.arenaTeamId
  joinTime := r.now
  removeInviteTime := 0
  isInvitedToBGInstanceGUID := 0
  arenaTeamRating := r.arenaRating
  arenaMatchmakerRating := r.matchmakerRating
  opponentsTeamRating := 0
  opponentsMatchmakerRating := 0

end JoinRequest

namespace BattlegroundQueue

/-- `AddGroup`. -/
def addGroup (q : BattlegroundQueue) (r : JoinRequest) : BattlegroundQueue :=
  let g := q.nextGroup
  let q :=
    { q.setGroup g (some r.ginfo) with
      nextGroup := g + 1
      queuedPlayers := r.members.foldl (fun players guid => players.insert guid g) q.queuedPlayers }
  q.setList r.place (q.queuedGroups r.place ++ [g])

/-- The lists of a bracket and a team `RemovePlayer` looks through. The last one
it finds the group in is the one it remembers. -/
def placeIn (q : BattlegroundQueue) (g : GroupId) (team : Team) (bracket : Nat) : Option ListId :=
  if g ∈ q.queuedGroups ⟨bracket, .normal, team⟩ then some ⟨bracket, .normal, team⟩
  else if g ∈ q.queuedGroups ⟨bracket, .premade, team⟩ then some ⟨bracket, .premade, team⟩
  else none

/-- The search of `RemovePlayer`, from the highest bracket down. -/
def findGroup (q : BattlegroundQueue) (g : GroupId) (team : Team) : Option ListId :=
  (List.range maxBattlegroundBrackets).reverse.findSome? (q.placeIn g team)

/-- `RemovePlayer` up to its recursion, with the player who has to leave next. -/
def removeOne (q : BattlegroundQueue) (guid : ObjectGuid) : BattlegroundQueue × Option ObjectGuid :=
  match q.queuedPlayers.lookup guid with
  | none => (q, none)
  | some g =>
      match q.groups g with
      | none => (q, none)
      | some group =>
          match q.findGroup g group.team with
          | none => (q, none)
          | some place =>
              let players := group.players.erase guid
              let q := { q with queuedPlayers := q.queuedPlayers.erase guid }
              if players = [] then
                ((q.setList place ((q.queuedGroups place).erase g)).setGroup g none, none)
              else
                let q := q.setGroup g (some { group with players })
                if group.isInvitedToBGInstanceGUID = 0 ∧ group.isRated then (q, players.head?)
                else (q, none)

/-- `RemovePlayer`, which recurses through a rated group. -/
def removePlayers : Nat → BattlegroundQueue → ObjectGuid → BattlegroundQueue
  | 0, q, _ => q
  | n + 1, q, guid =>
      match q.removeOne guid with
      | (q, none) => q
      | (q, some next) => removePlayers n q next

/-- `RemovePlayer`. It takes a queued player off every time. -/
def removePlayer (q : BattlegroundQueue) (guid : ObjectGuid) : BattlegroundQueue :=
  removePlayers q.queuedPlayers.entries.length q guid

/-! ## Inviting -/

/-- `InviteGroupToBG`, as far as the queue is concerned. -/
def inviteGroupToBG (q : BattlegroundQueue) (g : GroupId) (instanceId : Nat) (side : Team)
    (now : Nat) : BattlegroundQueue :=
  match q.groups g with
  | none => q
  | some ginfo =>
      let ginfo := { ginfo with team := side }
      if ginfo.isInvitedToBGInstanceGUID = 0 then
        q.setGroup g (some
          { ginfo with
            isInvitedToBGInstanceGUID := instanceId
            removeInviteTime := now + inviteAcceptWaitTime })
      else q.setGroup g (some ginfo)

/-- `InviteGroupToBG(*citr, bg, (*citr)->Team)`. -/
def inviteForOwnTeam (instanceId now : Nat) (q : BattlegroundQueue) (g : GroupId) :
    BattlegroundQueue :=
  match q.groups g with
  | none => q
  | some ginfo => q.inviteGroupToBG g instanceId ginfo.team now

/-- The groups of both selection pools are invited. -/
def invitePools (q : BattlegroundQueue) (instanceId now : Nat) : BattlegroundQueue :=
  let q := (q.selectionPools .alliance).selectedGroups.foldl (inviteForOwnTeam instanceId now) q
  (q.selectionPools .horde).selectedGroups.foldl (inviteForOwnTeam instanceId now) q

end BattlegroundQueue

/-! ## Updating -/

/-- A running battleground of the queue's type and bracket. -/
structure FreeBattleground where
  instanceId : Nat
  freeSlots : Team → Nat

/-- What is read of the template. -/
structure BattlegroundTemplate where
  isArena : Bool
  minPlayersPerTeam : Nat
  maxPlayersPerTeam : Nat

/-- One `BattlegroundQueueUpdate` and what it finds. There is a template only
with its bracket entry. -/
structure UpdateRequest where
  bracket : Nat
  arenaType : Nat
  isRated : Bool
  arenaRating : Nat
  freeBattlegrounds : List FreeBattleground
  template : Option BattlegroundTemplate
  invitationType : InvitationType
  arenaTesting : Bool
  battlegroundTesting : Bool
  premadeBattleground : Option Nat
  newBattleground : Option Nat
  now : Nat
  premadeGroupWaitForMatch : Nat
  maxRatingDifference : Nat
  ratingDiscardTimer : Nat
  stray : GroupId

/-- A `uint32` as an `int32`. -/
def toInt32 (n : Nat) : Int := if n % 2 ^ 32 < 2 ^ 31 then n % 2 ^ 32 else (n % 2 ^ 32 : Nat) - 2 ^ 32

/-- `uint32` subtraction. -/
def sub32 (m n : Nat) : Nat := (m + (2 ^ 32 - n % 2 ^ 32)) % 2 ^ 32

namespace UpdateRequest

def timeBefore (r : UpdateRequest) : Nat := sub32 r.now r.premadeGroupWaitForMatch

def minPlayersPerTeam (r : UpdateRequest) (t : BattlegroundTemplate) : Nat :=
  if t.isArena then if r.arenaTesting then 1 else r.arenaType
  else if r.battlegroundTesting then 1
  else t.minPlayersPerTeam

def maxPlayersPerTeam (r : UpdateRequest) (t : BattlegroundTemplate) : Nat :=
  if t.isArena then r.arenaType else t.maxPlayersPerTeam

/-- Whether a rated team may play next. -/
def suits (r : UpdateRequest) (arenaRating : Nat) (ginfo : GroupQueueInfo) : Bool :=
  let arenaMinRating :=
    if arenaRating ≤ r.maxRatingDifference then 0 else arenaRating - r.maxRatingDifference
  let arenaMaxRating := (arenaRating + r.maxRatingDifference) % 2 ^ 32
  let discardTime := toInt32 (sub32 r.now r.ratingDiscardTimer)
  ginfo.isInvitedToBGInstanceGUID == 0 &&
    (decide (arenaMinRating ≤ ginfo.arenaMatchmakerRating) &&
        decide (ginfo.arenaMatchmakerRating ≤ arenaMaxRating) ||
      decide (toInt32 ginfo.joinTime < discardTime))

end UpdateRequest

namespace BattlegroundQueue

/-- The first loop: the running battlegrounds are filled. -/
def fillBattlegrounds (r : UpdateRequest) :
    List FreeBattleground → BattlegroundQueue → Option BattlegroundQueue
  | [], q => some q
  | bg :: rest, q =>
      match q.initPools.fillPlayersToBG r.invitationType r.bracket bg.freeSlots
          (q.fillFuel r.bracket) with
      | none => none
      | some (q, _) => fillBattlegrounds r rest (q.invitePools bg.instanceId r.now)

/-- The match of premade groups, and whether the update goes on. -/
def startPremade (q : BattlegroundQueue) (r : UpdateRequest) (t : BattlegroundTemplate) :
    Bool × BattlegroundQueue :=
  if t.isArena then (true, q)
  else
    match q.checkPremadeMatch r.bracket (r.minPlayersPerTeam t) (r.maxPlayersPerTeam t)
        r.timeBefore with
    | (false, q) => (true, q)
    | (true, q) =>
        match r.premadeBattleground with
        | none => (false, q)
        | some instanceId => (true, (q.invitePools instanceId r.now).initPools)

/-- `CheckNormalMatch(..) || (IsArena() && CheckSkirmishForSameFaction(..))`. -/
def checkMatch (q : BattlegroundQueue) (r : UpdateRequest) (t : BattlegroundTemplate) :
    Bool × BattlegroundQueue :=
  match q.checkNormalMatch r.bracket (r.minPlayersPerTeam t) (r.maxPlayersPerTeam t)
      (r.invitationType != .noBalance) (r.battlegroundTesting && !t.isArena) with
  | (true, q) => (true, q)
  | (false, q) =>
      if t.isArena then q.checkSkirmishForSameFaction r.bracket (r.minPlayersPerTeam t) r.stray
      else (false, q)

/-- A normal battleground, or an arena that is not rated. -/
def startNormal (q : BattlegroundQueue) (r : UpdateRequest) (t : BattlegroundTemplate) :
    BattlegroundQueue :=
  match q.checkMatch r t with
  | (false, q) => q
  | (true, q) =>
      match r.newBattleground with
      | none => q
      | some instanceId => q.invitePools instanceId r.now

/-- The front group of a list. -/
def front (q : BattlegroundQueue) (list : List GroupId) : Option GroupQueueInfo :=
  list.head?.bind q.groups

/-- The rating the teams must come near to. -/
def ratingFor (q : BattlegroundQueue) (r : UpdateRequest) : Option Nat :=
  if r.arenaRating ≠ 0 then some r.arenaRating
  else
    match q.front (q.premadeList r.bracket .alliance), q.front (q.premadeList r.bracket .horde) with
    | none, none => none
    | some front1, none => some front1.arenaMatchmakerRating
    | none, some front2 => some front2.arenaMatchmakerRating
    | some front1, some front2 =>
        if front1.joinTime < front2.joinTime then some front1.arenaMatchmakerRating
        else some front2.arenaMatchmakerRating

/-- The first group of a list from which a rated match can be made. -/
def findRated (q : BattlegroundQueue) (suits : GroupQueueInfo → Bool) (list : List GroupId) :
    Option GroupId :=
  list.find? fun g => (q.groups g).any suits

/-- The other team from the same list: another arena team, at the first one or
behind it. -/
def findSecond (q : BattlegroundQueue) (suits : GroupQueueInfo → Bool) (first : GroupId)
    (list : List GroupId) : Option (GroupId × GroupId) :=
  match q.groups first with
  | none => none
  | some ginfo =>
      (q.findRated (fun other => suits other && other.arenaTeamId != ginfo.arenaTeamId)
        (list.dropWhile fun g => g != first)).map fun second => (first, second)

/-- The two teams that play next. -/
def findTeams (q : BattlegroundQueue) (bracket : Nat) (suits : GroupQueueInfo → Bool) :
    Option (GroupId × GroupId) :=
  let aliList := q.premadeList bracket .alliance
  let hordeList := q.premadeList bracket .horde
  match q.findRated suits aliList, q.findRated suits hordeList with
  | some aTeam, some hTeam => some (aTeam, hTeam)
  | some first, none => q.findSecond suits first aliList
  | none, some first => q.findSecond suits first hordeList
  | none, none => none

/-- `OpponentsTeamRating` and `OpponentsMatchmakerRating` of a group. -/
def setOpponents (q : BattlegroundQueue) (g : GroupId) (opponents : GroupQueueInfo) :
    BattlegroundQueue :=
  match q.groups g with
  | none => q
  | some ginfo =>
      q.setGroup g (some
        { ginfo with
          opponentsTeamRating := opponents.arenaTeamRating
          opponentsMatchmakerRating := opponents.arenaMatchmakerRating })

/-- A team that is to play for the other side goes to the other side's list. -/
def moveRated (q : BattlegroundQueue) (bracket : Nat) (g : GroupId) (side : Team) :
    BattlegroundQueue :=
  match q.groups g with
  | none => q
  | some ginfo =>
      if ginfo.team ≠ side then
        let q := q.setList ⟨bracket, .premade, side⟩ (g :: q.premadeList bracket side)
        q.setList ⟨bracket, .premade, otherTeam side⟩
          ((q.premadeList bracket (otherTeam side)).erase g)
      else q

/-- A rated arena. -/
def startRated (q : BattlegroundQueue) (r : UpdateRequest) : BattlegroundQueue :=
  match q.ratingFor r with
  | none => q
  | some arenaRating =>
      match q.findTeams r.bracket (r.suits arenaRating) with
      | none => q
      | some (aTeam, hTeam) =>
          match r.newBattleground, q.groups aTeam, q.groups hTeam with
          | some instanceId, some aInfo, some hInfo =>
              let q := (q.setOpponents aTeam hInfo).setOpponents hTeam aInfo
              let q := (q.moveRated r.bracket aTeam .alliance).moveRated r.bracket hTeam .horde
              let q := q.inviteGroupToBG aTeam instanceId .alliance r.now
              q.inviteGroupToBG hTeam instanceId .horde r.now
          | _, _, _ => q

/-- `BattlegroundQueueUpdate`. It is `none` if a selection does not come to an
end. -/
def battlegroundQueueUpdate (q : BattlegroundQueue) (r : UpdateRequest) :
    Option BattlegroundQueue :=
  if q.premadeList r.bracket .alliance = [] ∧ q.premadeList r.bracket .horde = [] ∧
      q.normalList r.bracket .alliance = [] ∧ q.normalList r.bracket .horde = [] then some q
  else
    match fillBattlegrounds r r.freeBattlegrounds q with
    | none => none
    | some q =>
        match r.template with
        | none => some q
        | some t =>
            match q.initPools.startPremade r t with
            | (false, q) => some q
            | (true, q) =>
                if !r.isRated then some (q.startNormal r t)
                else if t.isArena then some (q.startRated r)
                else some q

end BattlegroundQueue

/-! ## Runs -/

inductive QueueCall
  | addGroup (r : JoinRequest)
  | removePlayer (guid : ObjectGuid)
  | update (r : UpdateRequest)

namespace BattlegroundQueue

def empty : BattlegroundQueue := ⟨∅, fun _ => none, 0, fun _ => [], fun _ => .init⟩

/-- What the join handlers see to. -/
def mayJoin (q : BattlegroundQueue) (r : JoinRequest) : Bool :=
  !r.members.isEmpty && decide (r.bracket < maxBattlegroundBrackets) &&
    r.members.all fun guid => (q.queuedPlayers.lookup guid).isNone

def step (q : BattlegroundQueue) : QueueCall → Option BattlegroundQueue
  | .addGroup r => if q.mayJoin r then some (q.addGroup r) else some q
  | .removePlayer guid => some (q.removePlayer guid)
  | .update r => q.battlegroundQueueUpdate r

def run (q : BattlegroundQueue) : List QueueCall → Option BattlegroundQueue
  | [] => some q
  | call :: rest => (q.step call).bind fun q => run q rest

end BattlegroundQueue

end Sunstrider.Battlegrounds.Matching
