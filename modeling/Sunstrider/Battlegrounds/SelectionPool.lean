import Sunstrider.Battlegrounds.Population

/-!
# The battleground queue and its selection pools

The queue proper: for every bracket four lists of groups, premade and normal of
both teams, and the two selection pools into which groups are picked before
they are invited. The functions of this file pick: `FillPlayersToBG` for a
running battleground, `CheckPremadeMatch`, `CheckNormalMatch` and
`CheckSkirmishForSameFaction` for a new one.

A `GroupQueueInfo*` is a `GroupId`, and `groups` holds the groups that are
there. An iterator into a list is what is left of the list from there on. The
nodes of a `std::list` are linked in a circle, so one step past the end is the
first node again. `stray` is what the program finds where a list that has no
last element is asked for it.

Free slots are natural numbers: `GetFreeSlotsForTeam` never passes the maximum
of players of a team, which is a `uint16`. Differences of slots are integers.
-/

namespace Sunstrider.Battlegrounds.Matching

open Population (Team ObjectGuid GroupId)

inductive GroupType
  | premade
  | normal
deriving DecidableEq, Repr

/-- The indices of `m_QueuedGroups`. -/
structure ListId where
  bracket : Nat
  type : GroupType
  team : Team
deriving DecidableEq, Repr

/-- `GroupQueueInfo`. The players are the keys of the map, in order. -/
structure GroupQueueInfo where
  players : List ObjectGuid
  team : Team
  isRated : Bool
  arenaType : Nat
  arenaTeamId : Nat
  joinTime : Nat
  removeInviteTime : Nat
  isInvitedToBGInstanceGUID : Nat
  arenaTeamRating : Nat
  arenaMatchmakerRating : Nat
  opponentsTeamRating : Nat
  opponentsMatchmakerRating : Nat
deriving DecidableEq, Repr

structure SelectionPool where
  selectedGroups : List GroupId
  playerCount : Nat
deriving DecidableEq, Repr

structure BattlegroundQueue where
  queuedPlayers : AList fun _ : ObjectGuid => GroupId
  groups : GroupId → Option GroupQueueInfo
  nextGroup : GroupId
  queuedGroups : ListId → List GroupId
  selectionPools : Team → SelectionPool

def otherTeam : Team → Team
  | .alliance => .horde
  | .horde => .alliance

namespace BattlegroundQueue

def setList (q : BattlegroundQueue) (place : ListId) (list : List GroupId) : BattlegroundQueue :=
  { q with queuedGroups := Function.update q.queuedGroups place list }

def setPool (q : BattlegroundQueue) (team : Team) (pool : SelectionPool) : BattlegroundQueue :=
  { q with selectionPools := Function.update q.selectionPools team pool }

def setGroup (q : BattlegroundQueue) (g : GroupId) (ginfo : Option GroupQueueInfo) :
    BattlegroundQueue :=
  { q with groups := Function.update q.groups g ginfo }

/-- `(*itr)->Players.size()`. -/
def size (q : BattlegroundQueue) (g : GroupId) : Nat :=
  match q.groups g with
  | none => 0
  | some ginfo => ginfo.players.length

/-- `(*itr)->IsInvitedToBGInstanceGUID`. -/
def isInvited (q : BattlegroundQueue) (g : GroupId) : Bool :=
  match q.groups g with
  | none => true
  | some ginfo => ginfo.isInvitedToBGInstanceGUID != 0

end BattlegroundQueue

namespace SelectionPool

/-- `SelectionPool::Init`. -/
def init : SelectionPool := ⟨[], 0⟩

/-- The loop of `KickGroup`: the group to kick so far, and whether one of about
the size was found. -/
def kickLoop (q : BattlegroundQueue) (size : Nat) : List GroupId → GroupId × Bool → GroupId
  | [], (groupToKick, _) => groupToKick
  | g :: rest, (groupToKick, found) =>
      if ((q.size g : Int) - size).natAbs ≤ 1 then kickLoop q size rest (g, true)
      else if !found && decide (q.size groupToKick ≤ q.size g) then
        kickLoop q size rest (g, found)
      else kickLoop q size rest (groupToKick, found)

/-- `SelectionPool::KickGroup`. -/
def kickGroup (q : BattlegroundQueue) (pool : SelectionPool) (size : Nat) :
    Bool × SelectionPool :=
  match pool.selectedGroups with
  | [] => (true, pool)
  | first :: _ =>
      let groupToKick := kickLoop q size pool.selectedGroups (first, false)
      if pool.playerCount = 0 then (true, pool)
      else
        (!decide (q.size groupToKick ≤ size + 1),
          ⟨pool.selectedGroups.erase groupToKick, pool.playerCount - q.size groupToKick⟩)

/-- `SelectionPool::AddGroup`. -/
def addGroup (q : BattlegroundQueue) (pool : SelectionPool) (g : GroupId) (desiredCount : Nat) :
    Bool × SelectionPool :=
  if !q.isInvited g && decide (pool.playerCount + q.size g ≤ desiredCount) then
    (true, ⟨pool.selectedGroups ++ [g], pool.playerCount + q.size g⟩)
  else (decide (pool.playerCount < desiredCount), pool)

end SelectionPool

/-! ## `FillPlayersToBG` -/

inductive InvitationType
  | noBalance
  | balanced
  | even
deriving DecidableEq, Repr

/-- One team's half of the work: its pool, and its groups from the iterator on. -/
structure TeamSelection where
  pool : SelectionPool
  rest : List GroupId
deriving DecidableEq, Repr

/-- `for (; index < count && AddGroup(*itr, desiredCount); index++) ++itr`. -/
def addGroups (q : BattlegroundQueue) (desiredCount : Nat) :
    List GroupId → SelectionPool → TeamSelection
  | [], pool => ⟨pool, []⟩
  | g :: rest, pool =>
      match pool.addGroup q g desiredCount with
      | (true, pool) => addGroups q desiredCount rest pool
      | (false, pool) => ⟨pool, g :: rest⟩

/-- How the loop of `FillPlayersToBG` ended: its condition failed, or at its
`break`. -/
inductive LoopEnd
  | done
  | broke
deriving DecidableEq, Repr

/-- A group is kicked, and new ones are added if needed. -/
def exchangeGroup (q : BattlegroundQueue) (free diff diffOther : Int) (own : TeamSelection) :
    TeamSelection :=
  let kicked := own.pool.kickGroup q (diffOther - diff).toNat
  if kicked.1 then
    addGroups q (if diffOther ≤ free then free - diffOther else 0).toNat own.rest kicked.2
  else ⟨kicked.2, own.rest⟩

/-- The body of the loop, for the team that has fewer slots left. Both branches
of the source are this one, with the teams exchanged. -/
def reduceTeam (q : BattlegroundQueue) (free diff diffOther : Int) (own : TeamSelection)
    (other : SelectionPool) : TeamSelection × SelectionPool × LoopEnd :=
  let own := exchangeGroup q free diff diffOther own
  if own.pool.playerCount = 0 then
    if free ≤ diffOther + 1 then (own, other, .broke)
    else (own, (other.kickGroup q (diffOther - diff).toNat).2, .done)
  else (own, other, .done)

/-- The loop, `n` passes of it at most. -/
def balanceLoop (q : BattlegroundQueue) (aliFree hordeFree : Int) :
    Nat → TeamSelection → TeamSelection → Option (TeamSelection × TeamSelection × LoopEnd)
  | 0, _, _ => none
  | n + 1, ali, horde =>
      let diffAli := aliFree - ali.pool.playerCount
      let diffHorde := hordeFree - horde.pool.playerCount
      if 1 < (diffAli - diffHorde).natAbs ∧
          (0 < horde.pool.playerCount ∨ 0 < ali.pool.playerCount) then
        if diffAli < diffHorde then
          match reduceTeam q aliFree diffAli diffHorde ali horde.pool with
          | (ali, pool, .broke) => some (ali, { horde with pool }, .broke)
          | (ali, pool, .done) => balanceLoop q aliFree hordeFree n ali { horde with pool }
        else
          match reduceTeam q hordeFree diffHorde diffAli horde ali.pool with
          | (horde, pool, .broke) => some ({ ali with pool }, horde, .broke)
          | (horde, pool, .done) => balanceLoop q aliFree hordeFree n { ali with pool } horde
      else some (ali, horde, .done)

/-- The free slots that are given away when the teams must be even. -/
def evenFreeSlots (type : InvitationType) (aliFree hordeFree : Int) (aliCount hordeCount : Nat) :
    Int × Int :=
  if type = .even ∧ hordeFree = 1 ∧ aliFree = 1 then
    let hordeExtra := max ((hordeCount : Int) - aliCount) 0
    let aliExtra := max ((aliCount : Int) - hordeCount) 0
    if aliCount ≠ hordeCount then (max (aliFree - aliExtra) 0, max (hordeFree - hordeExtra) 0)
    else (aliFree, hordeFree)
  else (aliFree, hordeFree)

namespace BattlegroundQueue

def normalList (q : BattlegroundQueue) (bracket : Nat) (team : Team) : List GroupId :=
  q.queuedGroups ⟨bracket, .normal, team⟩

def premadeList (q : BattlegroundQueue) (bracket : Nat) (team : Team) : List GroupId :=
  q.queuedGroups ⟨bracket, .premade, team⟩

/-- `Init` for both selection pools. -/
def initPools (q : BattlegroundQueue) : BattlegroundQueue :=
  { q with selectionPools := fun _ => .init }

/-- `FillPlayersToBG`, with at most `n` passes of the balancing loop. -/
def fillPlayersToBG (q : BattlegroundQueue) (type : InvitationType) (bracket : Nat)
    (freeSlots : Team → Nat) (n : Nat) : Option (BattlegroundQueue × LoopEnd) :=
  let aliList := q.normalList bracket .alliance
  let hordeList := q.normalList bracket .horde
  let free := evenFreeSlots type (freeSlots .alliance) (freeSlots .horde) aliList.length
    hordeList.length
  let ali := addGroups q free.1.toNat aliList (q.selectionPools .alliance)
  let horde := addGroups q free.2.toNat hordeList (q.selectionPools .horde)
  if type = .noBalance then
    some ((q.setPool .alliance ali.pool).setPool .horde horde.pool, .done)
  else
    match balanceLoop q free.1 free.2 n ali horde with
    | none => none
    | some (ali, horde, loopEnd) =>
        some ((q.setPool .alliance ali.pool).setPool .horde horde.pool, loopEnd)

/-- Passes enough for the loop. -/
def fillFuel (q : BattlegroundQueue) (bracket : Nat) : Nat :=
  2 * ((q.normalList bracket .alliance).length + (q.normalList bracket .horde).length) + 1

/-! ## A new battleground -/

/-- The loop of `CheckPremadeMatch` over a normal list. -/
def addNormalGroups (q : BattlegroundQueue) (maxPlayers : Nat) :
    List GroupId → SelectionPool → SelectionPool
  | [], pool => pool
  | g :: rest, pool =>
      if q.isInvited g then addNormalGroups q maxPlayers rest pool
      else
        match pool.addGroup q g maxPlayers with
        | (true, pool) => addNormalGroups q maxPlayers rest pool
        | (false, pool) => pool

/-- The first group of a list that is not invited. -/
def firstUninvited (q : BattlegroundQueue) (list : List GroupId) : Option GroupId :=
  list.find? fun g => !q.isInvited g

/-- The two premade groups a match is made of. -/
def premadePair (q : BattlegroundQueue) (bracket : Nat) : Option (GroupId × GroupId) :=
  match q.firstUninvited (q.premadeList bracket .alliance),
      q.firstUninvited (q.premadeList bracket .horde) with
  | some aliGroup, some hordeGroup => some (aliGroup, hordeGroup)
  | _, _ => none

/-- A premade group that has waited too long, or has become too small, goes to
the normal list of its team. Only the first of the list is looked at. -/
def movePremade (q : BattlegroundQueue) (bracket : Nat) (timeBefore minPlayersPerTeam : Nat)
    (team : Team) : BattlegroundQueue :=
  match q.premadeList bracket team with
  | [] => q
  | g :: rest =>
      match q.groups g with
      | none => q
      | some ginfo =>
          if ginfo.isInvitedToBGInstanceGUID = 0 ∧
              (ginfo.joinTime < timeBefore ∨ ginfo.players.length < minPlayersPerTeam) then
            (q.setList ⟨bracket, .normal, team⟩ (g :: q.normalList bracket team)).setList
              ⟨bracket, .premade, team⟩ rest
          else q

/-- `CheckPremadeMatch`. -/
def checkPremadeMatch (q : BattlegroundQueue) (bracket : Nat)
    (minPlayersPerTeam maxPlayersPerTeam timeBefore : Nat) : Bool × BattlegroundQueue :=
  match q.premadePair bracket with
  | some (aliGroup, hordeGroup) =>
      let ali := ((q.selectionPools .alliance).addGroup q aliGroup maxPlayersPerTeam).2
      let horde := ((q.selectionPools .horde).addGroup q hordeGroup maxPlayersPerTeam).2
      let maxPlayers := min ali.playerCount horde.playerCount
      let ali := q.addNormalGroups maxPlayers (q.normalList bracket .alliance) ali
      let horde := q.addNormalGroups maxPlayers (q.normalList bracket .horde) horde
      (true, (q.setPool .alliance ali).setPool .horde horde)
  | none =>
      let q := q.movePremade bracket timeBefore minPlayersPerTeam .alliance
      (false, q.movePremade bracket timeBefore minPlayersPerTeam .horde)

/-- The first loop of `CheckNormalMatch`: groups are picked until there are
enough players. The iterator stands at the group that made it enough. -/
def selectUntil (q : BattlegroundQueue) (minPlayers maxPlayers : Nat) :
    List GroupId → SelectionPool → TeamSelection
  | [], pool => ⟨pool, []⟩
  | g :: rest, pool =>
      if q.isInvited g then selectUntil q minPlayers maxPlayers rest pool
      else
        let pool := (pool.addGroup q g maxPlayers).2
        if minPlayers ≤ pool.playerCount then ⟨pool, g :: rest⟩
        else selectUntil q minPlayers maxPlayers rest pool

/-- The groups after the iterator. -/
def afterIterator (list rest : List GroupId) : List GroupId :=
  match rest with
  | [] => list
  | _ :: later => later

/-- `CheckNormalMatch`. `balance` says that the invitation type is not the one
without balance, `debug` that battlegrounds are tested and this is one. -/
def checkNormalMatch (q : BattlegroundQueue) (bracket : Nat) (minPlayers maxPlayers : Nat)
    (balance debug : Bool) : Bool × BattlegroundQueue :=
  let ali := q.selectUntil minPlayers maxPlayers (q.normalList bracket .alliance)
    (q.selectionPools .alliance)
  let horde := q.selectUntil minPlayers maxPlayers (q.normalList bracket .horde)
    (q.selectionPools .horde)
  let enough := decide (minPlayers ≤ ali.pool.playerCount) &&
    decide (minPlayers ≤ horde.pool.playerCount)
  let pools : SelectionPool × SelectionPool :=
    if balance && enough then
      if horde.pool.playerCount < ali.pool.playerCount then
        (ali.pool, q.addNormalGroups ali.pool.playerCount
          (afterIterator (q.normalList bracket .horde) horde.rest) horde.pool)
      else
        (q.addNormalGroups horde.pool.playerCount
          (afterIterator (q.normalList bracket .alliance) ali.rest) ali.pool, horde.pool)
    else (ali.pool, horde.pool)
  let q := (q.setPool .alliance pools.1).setPool .horde pools.2
  if balance && enough &&
      decide (2 < ((pools.2.playerCount : Int) - pools.1.playerCount).natAbs) then (false, q)
  else if debug && (decide (0 < pools.1.playerCount) || decide (0 < pools.2.playerCount)) then
    (true, q)
  else
    (decide (minPlayers ≤ pools.1.playerCount) && decide (minPlayers ≤ pools.2.playerCount), q)

/-- The team whose groups `CheckSkirmishForSameFaction` divides, if it goes on
at all. -/
def skirmishTeam (q : BattlegroundQueue) (minPlayersPerTeam : Nat) : Option Team :=
  if (q.selectionPools .alliance).playerCount < minPlayersPerTeam ∧
      (q.selectionPools .horde).playerCount < minPlayersPerTeam then none
  else if (q.selectionPools .horde).playerCount = minPlayersPerTeam then some .horde
  else some .alliance

/-- Erase a group behind the marked one. -/
def eraseBehind (mark g : GroupId) : List GroupId → List GroupId
  | [] => []
  | x :: xs => if x = mark then x :: xs.erase g else x :: eraseBehind mark g xs

/-- The body of the loop that moves a group to the other team. -/
def changeTeam (bracket : Nat) (team : Team) (mark : GroupId) (q : BattlegroundQueue)
    (g : GroupId) : BattlegroundQueue :=
  match q.groups g with
  | none => q
  | some ginfo =>
      let other := otherTeam team
      let q := q.setGroup g (some { ginfo with team := other })
      let q := q.setList ⟨bracket, .normal, other⟩ (g :: q.normalList bracket other)
      q.setList ⟨bracket, .normal, team⟩ (eraseBehind mark g (q.normalList bracket team))

/-- `CheckSkirmishForSameFaction` from where the team is chosen. -/
def divideTeam (q : BattlegroundQueue) (bracket : Nat) (minPlayersPerTeam : Nat)
    (stray : GroupId) (team : Team) : Bool × BattlegroundQueue :=
  let ginfo := (q.selectionPools team).selectedGroups.getLast?.getD stray
  let q := q.setPool (otherTeam team) .init
  match (q.normalList bracket team).dropWhile (fun g => g != ginfo) with
  | [] => (false, q)
  | _ :: later =>
      let pool := q.addNormalGroups minPlayersPerTeam later .init
      let q := q.setPool (otherTeam team) pool
      if pool.playerCount ≠ minPlayersPerTeam then (false, q)
      else (true, pool.selectedGroups.foldl (changeTeam bracket team ginfo) q)

/-- `CheckSkirmishForSameFaction`. -/
def checkSkirmishForSameFaction (q : BattlegroundQueue) (bracket : Nat) (minPlayersPerTeam : Nat)
    (stray : GroupId) : Bool × BattlegroundQueue :=
  match q.skirmishTeam minPlayersPerTeam with
  | none => (false, q)
  | some team => q.divideTeam bracket minPlayersPerTeam stray team

end BattlegroundQueue

end Sunstrider.Battlegrounds.Matching
