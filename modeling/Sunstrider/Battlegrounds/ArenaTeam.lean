import Mathlib

/-!
# Arena teams

The rating of an arena team and the counters of its matches: what a won and a
lost match changes, and what the weekly flush does, which lets the rating of a
team decay that does not play.

A chance to win is a number of an ordered field, by the ratings of both teams:
`GetChanceAgainst` is a parameter. The rating and the counters of a team are
16-bit fields, and a sum that is written back to them is cut off. Ratings are
handed around as `uint32`. The personal rating of a member, which is 32 bits
wide, has a clamp of its own.
-/

namespace Sunstrider.Battlegrounds.Arenas

/-- The conversion of an `int32` to `uint16`. -/
def uint16 (n : Int) : UInt16 := .ofNat (n % 2 ^ 16).toNat

/-- The settings that are read. -/
structure Config where
  alternateRating : Bool
  decayMinimumRating : Nat
  decayConsecutiveWeeks : Nat
  decayValue : Nat

structure ArenaTeamStats where
  rating : UInt16
  weekGames : UInt16
  weekWins : UInt16
  seasonGames : UInt16
  seasonWins : UInt16
  nonPlayedWeeks : Nat
deriving DecidableEq, Repr

/-- What the constructor sets. -/
def ArenaTeamStats.new : ArenaTeamStats := ⟨1500, 0, 0, 0, 0, 0⟩

variable {K : Type*} [Field K] [LinearOrder K] [FloorRing K]

/-- The number of points that a match is about is a numeral of every field. -/
scoped instance atLeastTwo_points : Nat.AtLeastTwo 32 := ⟨by decide⟩

/-- Two teams for which the alternate rating is meant. -/
def alternates (config : Config) (ownRating opponentRating : Nat) : Bool :=
  config.alternateRating && decide (ownRating < 1900) && decide (opponentRating < 1900) &&
    decide (1450 < ownRating) && decide (1450 < opponentRating)

/-- `GetRatingMod`. -/
def getRatingMod (config : Config) (getChanceAgainst : Nat → Nat → K)
    (ownRating opponentRating : Nat) (won : Bool) : Int :=
  let chance := getChanceAgainst ownRating opponentRating
  let mod : Int :=
    if alternates config ownRating opponentRating then 15
    else
      let mod := ⌊32 * (1 - chance)⌋
      if mod < 1 then 1 else mod
  if won then mod else -mod

namespace ArenaTeamStats

/-- `WonAgainst`, with the change it returns. -/
def wonAgainst (config : Config) (getChanceAgainst : Nat → Nat → K) (stats : ArenaTeamStats)
    (againstRating : Nat) : ArenaTeamStats × Int :=
  let mod := getRatingMod config getChanceAgainst stats.rating.toNat againstRating true
  ({ stats with
      rating := uint16 (stats.rating.toNat + mod)
      weekGames := stats.weekGames + 1
      weekWins := stats.weekWins + 1
      seasonGames := stats.seasonGames + 1
      seasonWins := stats.seasonWins + 1 }, mod)

/-- `LostAgainst`, likewise. -/
def lostAgainst (config : Config) (getChanceAgainst : Nat → Nat → K) (stats : ArenaTeamStats)
    (againstRating : Nat) : ArenaTeamStats × Int :=
  let mod := getRatingMod config getChanceAgainst stats.rating.toNat againstRating false
  ({ stats with
      rating := uint16 (stats.rating.toNat + mod)
      weekGames := stats.weekGames + 1
      seasonGames := stats.seasonGames + 1 }, mod)

/-- `HandleDecay`. -/
def handleDecay (config : Config) (stats : ArenaTeamStats) : ArenaTeamStats :=
  let minRating := config.decayMinimumRating
  if minRating < stats.rating.toNat ∧ config.decayConsecutiveWeeks ≤ stats.nonPlayedWeeks then
    let diff := stats.rating.toNat - minRating
    { stats with
      rating := uint16 (stats.rating.toNat -
        (if diff < config.decayValue then diff else config.decayValue : Nat)) }
  else stats

/-- What `UpdateArenaPointsHelper` does to the team. -/
def countWeek (stats : ArenaTeamStats) : ArenaTeamStats :=
  if stats.weekGames < 10 then
    { stats with nonPlayedWeeks := (stats.nonPlayedWeeks + 1) % 2 ^ 32 }
  else { stats with nonPlayedWeeks := 0 }

/-- `FinishWeek`. -/
def finishWeek (stats : ArenaTeamStats) : ArenaTeamStats :=
  if stats.weekGames = 0 then stats else { stats with weekGames := 0, weekWins := 0 }

end ArenaTeamStats

/-! ## Runs -/

inductive TeamCall
  | wonAgainst (againstRating : UInt16)
  | lostAgainst (againstRating : UInt16)
  | handleDecay
  | countWeek
  | finishWeek
deriving DecidableEq, Repr

namespace ArenaTeamStats

/-- One call, with the change of the rating it returns, if it returns one. -/
def call (config : Config) (getChanceAgainst : Nat → Nat → K) (stats : ArenaTeamStats) :
    TeamCall → ArenaTeamStats × Option Int
  | .wonAgainst againstRating =>
      let (stats, mod) := stats.wonAgainst config getChanceAgainst againstRating.toNat
      (stats, some mod)
  | .lostAgainst againstRating =>
      let (stats, mod) := stats.lostAgainst config getChanceAgainst againstRating.toNat
      (stats, some mod)
  | .handleDecay => (stats.handleDecay config, none)
  | .countWeek => (stats.countWeek, none)
  | .finishWeek => (stats.finishWeek, none)

/-- Every call of a run, with the team before it. -/
def run (config : Config) (getChanceAgainst : Nat → Nat → K) (stats : ArenaTeamStats) :
    List TeamCall → List (ArenaTeamStats × TeamCall)
  | [] => []
  | call :: rest =>
      (stats, call) :: run config getChanceAgainst (stats.call config getChanceAgainst call).1 rest

end ArenaTeamStats

end Sunstrider.Battlegrounds.Arenas

/-!
## The members of an arena team and a lost match

A member that has lost pays with its personal rating. Who is online is charged by
`MemberLost`, which writes the fields of the player along; who is not, by
`OfflineMemberLost`. Both walk the list of members up to the first with the guid.
They ask for the points of the match with a rating of their own: `MemberLost` with that
of the team, `OfflineMemberLost` with that of the member.

The personal rating is a `uint32`. The sum of it and the change is taken as an `int32`
first, which is not supposed to overflow, and a negative sum makes the rating zero.
-/

namespace Sunstrider.Battlegrounds.Arenas

/-- The conversion of a `uint32` to `int32`. -/
def int32 (n : UInt32) : Int := n.toBitVec.toInt

/-- The conversion of an `int32` to `uint32`. -/
def uint32 (n : Int) : UInt32 := .ofNat (n % 2 ^ 32).toNat

structure ArenaTeamMember where
  guid : Nat
  name : String
  class_ : UInt8
  weekGames : UInt32
  weekWins : UInt32
  seasonGames : UInt32
  seasonWins : UInt32
  personalRating : UInt32
deriving DecidableEq, Repr

/-- A player, with the fields from `PLAYER_FIELD_ARENA_TEAM_INFO_1_1` on. -/
structure TeamPlayer where
  guid : Nat
  arenaTeamInfo : Nat → UInt32

def TeamPlayer.setUInt32Value (player : TeamPlayer) (index : Nat) (value : UInt32) : TeamPlayer :=
  { player with arenaTeamInfo := Function.update player.arenaTeamInfo index value }

structure ArenaTeam where
  teamId : Nat
  captainGuid : Nat
  stats : ArenaTeamStats
  slot : Nat
  members : List ArenaTeamMember

namespace ArenaTeamMember

/-- What `ModifyPersonalRating` does to the member. -/
def modifyPersonalRating (member : ArenaTeamMember) (mod : Int) : ArenaTeamMember :=
  { member with
    personalRating :=
      if int32 member.personalRating + mod < 0 then 0
      else uint32 (member.personalRating.toNat + mod) }

/-- The personal counters of a lost match. -/
def countGame (member : ArenaTeamMember) : ArenaTeamMember :=
  { member with
    weekGames := member.weekGames + 1
    seasonGames := member.seasonGames + 1 }

end ArenaTeamMember

variable {K : Type*} [Field K] [LinearOrder K] [FloorRing K]
variable (config : Config) (getChanceAgainst : Nat → Nat → K)

namespace ArenaTeam

/-- The loop of `MemberLost`. -/
def memberLostLoop (team : ArenaTeam) (player : TeamPlayer) (againstRating : UInt32) :
    List ArenaTeamMember → List ArenaTeamMember × TeamPlayer
  | [] => ([], player)
  | member :: rest =>
      if member.guid = player.guid then
        let mod := getRatingMod config getChanceAgainst team.stats.rating.toNat
          againstRating.toNat false
        let member := (member.modifyPersonalRating mod).countGame
        (member :: rest,
          ((player.setUInt32Value (team.slot * 6 + 5) member.personalRating).setUInt32Value
            (6 * team.slot + 2) member.weekGames).setUInt32Value
              (6 * team.slot + 3) member.seasonGames)
      else
        let (rest, player) := memberLostLoop team player againstRating rest
        (member :: rest, player)

/-- `MemberLost`. -/
def memberLost (team : ArenaTeam) (player : TeamPlayer) (againstRating : UInt32) :
    ArenaTeam × TeamPlayer :=
  let (members, player) :=
    team.memberLostLoop config getChanceAgainst player againstRating team.members
  ({ team with members := members }, player)

/-- The loop of `OfflineMemberLost`. -/
def offlineMemberLostLoop (guid : Nat) (againstMatchmakerRating : UInt32) :
    List ArenaTeamMember → List ArenaTeamMember
  | [] => []
  | member :: rest =>
      if member.guid = guid then
        let mod := getRatingMod config getChanceAgainst member.personalRating.toNat
          againstMatchmakerRating.toNat false
        (member.modifyPersonalRating mod).countGame :: rest
      else member :: offlineMemberLostLoop guid againstMatchmakerRating rest

/-- `OfflineMemberLost`. -/
def offlineMemberLost (team : ArenaTeam) (guid : Nat) (againstMatchmakerRating : UInt32) :
    ArenaTeam :=
  { team with
    members := offlineMemberLostLoop config getChanceAgainst guid againstMatchmakerRating
      team.members }

/-- What `BattlegroundQueue::RemovePlayer` charges a player for that leaves a rated match
it is invited to; `connected` is what `FindConnectedPlayer` finds. -/
def leaveInvited (team : ArenaTeam) (connected : Option (Nat → UInt32)) (guid : Nat)
    (opponentsMatchmakerRating : UInt32) : ArenaTeam :=
  match connected with
  | some arenaTeamInfo =>
      (team.memberLost config getChanceAgainst ⟨guid, arenaTeamInfo⟩ opponentsMatchmakerRating).1
  | none => team.offlineMemberLost config getChanceAgainst guid opponentsMatchmakerRating

end ArenaTeam

end Sunstrider.Battlegrounds.Arenas

/-!
## Loading arena teams

The members of all teams are one query, in the order of the teams. `LoadMembersFromDB`
is called for one team after the other with the result of it, and reads on from where
the result stands: a row of a greater id is left for a later team, any other row is a
member of this one. The result is the list of the rows that are still to come, with the
current one in front. After the last one `Fetch` gives a null pointer.

`LoadArenaTeams` deletes the rows that belong to no team before it queries, and joins
the teams, so that it gets none.
-/

namespace Sunstrider.Battlegrounds.Arenas

/-- A row of the query for the members. -/
structure MemberRow where
  arenaTeamId : Nat
  guid : Nat
  weekGames : UInt16
  weekWins : UInt16
  seasonGames : UInt16
  seasonWins : UInt16
  name : String
  class_ : UInt8
  personalRating : UInt16
deriving DecidableEq, Repr

/-- The member that is made of a row. -/
def MemberRow.newMember (row : MemberRow) : ArenaTeamMember where
  guid := row.guid
  name := row.name
  class_ := row.class_
  weekGames := row.weekGames.toUInt32
  weekWins := row.weekWins.toUInt32
  seasonGames := row.seasonGames.toUInt32
  seasonWins := row.seasonWins.toUInt32
  personalRating := row.personalRating.toUInt32

namespace ArenaTeam

/-- The loop of `LoadMembersFromDB`: the team, whether its captain has been seen, and
where the result stands then. -/
def loadMembersLoop (team : ArenaTeam) (captainPresentInTeam : Bool) :
    List MemberRow → ArenaTeam × Bool × List MemberRow
  | [] => (team, captainPresentInTeam, [])
  | row :: rows =>
      if team.teamId < row.arenaTeamId then (team, captainPresentInTeam, row :: rows)
      else
        loadMembersLoop { team with members := team.members ++ [row.newMember] }
          (captainPresentInTeam || decide (row.newMember.guid = team.captainGuid)) rows

/-- `LoadMembersFromDB`: the team, whether it stays, and where the result stands then. -/
def loadMembersFromDB (team : ArenaTeam) (result : List MemberRow) :
    ArenaTeam × Bool × List MemberRow :=
  let (team, captainPresentInTeam, result) := team.loadMembersLoop false result
  (team, !team.members.isEmpty && captainPresentInTeam, result)

/-- `LoadMembersFromDB` for one team after the other, with one result. -/
def loadAll : List ArenaTeam → List MemberRow → List (ArenaTeam × Bool) × List MemberRow
  | [], result => ([], result)
  | team :: teams, result =>
      let (team, stays, result) := team.loadMembersFromDB result
      let (loaded, result) := loadAll teams result
      ((team, stays) :: loaded, result)

end ArenaTeam

end Sunstrider.Battlegrounds.Arenas
