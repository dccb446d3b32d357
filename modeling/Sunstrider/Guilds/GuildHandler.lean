import Sunstrider.Guilds.Guild
import Sunstrider.Inventory.Purse

/-!
# Players, guilds and what changes them

That a player belongs to a guild is stored in the guild's member map, in a field of the
player while it is connected, and in the character cache, which also answers for players
who are not. `SetInGuild` writes the last two.

The operations are those of players, by their handlers, and of game masters, by their
commands; a run is a fold of `step`. A player who sends a request is in the world. What
decides about factions is a parameter, and so is whether a name is free and what the
database knows of a character who is offline. A guild that is disbanded is gone from the
store; the memory it leaves behind is not modelled.
-/

namespace Sunstrider.Guilds

/-- A player object and where it is found. -/
structure PlayerInfo where
  name : String
  /-- `FindConnectedPlayer` finds the player. -/
  connected : Bool
  /-- `FindPlayer` does too. -/
  inWorld : Bool
  guildId : Nat
  rank : Nat
  guildIdInvited : Nat
  purse : Inventory.Purse

structure World (P : Type) where
  players : P → PlayerInfo
  /-- The guild id of a character that the cache knows. -/
  cache : P → Option Nat
  guilds : Nat → Option (Guild P)
  nextGuildId : Nat

namespace World

variable {P : Type} [DecidableEq P]

/-- `FindPlayer`. -/
def findPlayer (p : P) (w : World P) : Bool := (w.players p).connected && (w.players p).inWorld

/-- `GetCharacterGuildIdByGuid`. -/
def cachedGuildId (p : P) (w : World P) : Nat := (w.cache p).getD 0

def setPlayer (p : P) (f : PlayerInfo → PlayerInfo) (w : World P) : World P :=
  { w with players := fun q => if q = p then f (w.players p) else w.players q }

def setGuild (g : Nat) (G : Option (Guild P)) (w : World P) : World P :=
  { w with guilds := fun h => if h = g then G else w.guilds h }

def modifyGuild (g : Nat) (f : Guild P → Guild P) (w : World P) : World P :=
  w.setGuild g ((w.guilds g).map f)

/-- `UpdateCharacterGuildId`. -/
def updateCharacterGuildId (p : P) (g : Nat) (w : World P) : World P :=
  { w with cache := fun q => if q = p then (w.cache p).map fun _ => g else w.cache q }

/-- `SetInGuild`. -/
def setInGuild (p : P) (g : Nat) (w : World P) : World P :=
  (w.setPlayer p fun x => { x with guildId := g }).updateCharacterGuildId p g

/-- `SetRank`, of a player. -/
def setRank (p : P) (rank : Nat) (w : World P) : World P :=
  w.setPlayer p fun x => { x with rank := rank }

/-- `ChangeRank`. -/
def changeRank (g : Nat) (guid : P) (newRank : Nat) (w : World P) : World P :=
  let w := w.modifyGuild g (Guild.setMemberRank guid newRank)
  if w.findPlayer guid then w.setRank guid (newRank % 2 ^ 8) else w

/-- `_SetLeaderGUID`. -/
def setLeaderGUID (g : Nat) (leader : P) (w : World P) : World P :=
  (w.modifyGuild g fun G => { G with leaderGuid := leader }).changeRank g leader grGuildMaster

/-- The end of `DeleteMember`. -/
def eraseMember (g : Nat) (guid : P) (w : World P) : World P :=
  let w := w.modifyGuild g (Guild.eraseMember guid)
  if (w.players guid).connected then (w.setInGuild guid 0).setRank guid 0
  else w.updateCharacterGuildId guid 0

/-- `Disband`: the members are deleted one after another, then the guild. -/
def disband (walk : Walk (Member P)) (g : Nat) (w : World P) : World P :=
  match w.guilds g with
  | none => w
  | some G =>
      (((walk.order G.members).map Member.guid).foldl (fun w guid => w.eraseMember g guid)
        w).setGuild g none

/-- `DeleteMember`, unless the guild is being disbanded. -/
def deleteMember (walk : Walk (Member P)) (g : Nat) (guid : P) (w : World P) : World P :=
  match w.guilds g with
  | none => w
  | some G =>
      if G.leaderGuid = guid then
        match G.newLeader walk guid with
        | none => w.disband walk g
        | some leader =>
            let w := w.setLeaderGUID g leader.guid
            let w := if w.findPlayer leader.guid then w.setRank leader.guid grGuildMaster else w
            w.eraseMember g guid
      else w.eraseMember g guid

/-- `AddMember`; `rankId` is `none` for `GUILD_RANK_NONE`, and `row` is the name the
database has for a character who is offline and fit to be a member. -/
def addMember (g : Nat) (guid : P) (rankId : Option Nat) (row : Option String) (w : World P) :
    Option (World P) :=
  match w.guilds g with
  | none => none
  | some G =>
      let rank := rankId.getD G.lowestRankId
      if (w.players guid).connected then
        if (w.players guid).guildId ≠ 0 then none
        else
          some ((((w.setGuild g (some (G.putMember (.new guid (w.players guid).name
            rank)))).setInGuild guid g).setPlayer guid fun x =>
              { x with guildIdInvited := 0 }).setRank guid rank)
      else if w.cachedGuildId guid ≠ 0 then none
      else
        match row with
        | none => none
        | some name =>
            some ((w.setGuild g (some (G.putMember (.new guid name
              rank)))).updateCharacterGuildId guid g)

/-! ## Guilds that come from the database or from a charter -/

/-- `Create`: a guild that its leader cannot join is not registered, but its id is
spent. -/
def create (leader : P) (nameFree : Bool) (w : World P) : World P :=
  if !nameFree then w
  else
    let g := w.nextGuildId
    let G : Guild P :=
      { leaderGuid := leader, ranks := [], members := [], distinct := List.nodup_nil,
        purchasedTabs := 0, bankMoney := 0 }
    let w := { w with nextGuildId := g + 1 }
    ((w.setGuild g (some G.createDefaultGuildRanks)).addMember g leader (some grGuildMaster)
      none).getD w

/-- The first part of `Validate`: ranks that are too few, too many or misnumbered are
replaced by the default ones. -/
def validateRanks (G : Guild P) : Guild P :=
  let size := G.ranksSize
  if size < guildRanksMinCount ∨ guildRanksMaxCount < size ∨
      ∃ i < size, (G.rankInfo i).map RankInfo.rankId ≠ some i then
    G.createDefaultGuildRanks
  else
    { G with ranks :=
        (G.ranks.take size).map (RankInfo.createMissingTabsIfNeeded G.purchasedTabs) ++
          G.ranks.drop size }

/-- The second part of `Validate`, with the comparison it makes. -/
def validateMemberRanks (G : Guild P) : Guild P :=
  (G.members.filter fun m => decide (m.rankId > G.ranksSize)).foldl
    (fun G m => G.setMemberRank m.guid G.lowestRankId) G

/-- The last part of `Validate`: with one guild master allowed, the others are made
officers. -/
def validateGuildMasters (G : Guild P) : Guild P :=
  (G.members.filter fun m => decide (m.rankId = grGuildMaster ∧ m.guid ≠ G.leaderGuid)).foldl
    (fun G m => G.setMemberRank m.guid grOfficer) G

/-- `Validate`, for a guild that was just loaded: nobody is connected. -/
def validate (walk : Walk (Member P)) (multiple : Bool) (g : Nat) (w : World P) : World P :=
  match w.guilds g with
  | none => w
  | some G =>
      let G := validateMemberRanks (validateRanks G)
      let w := w.setGuild g (some G)
      let w :=
        match G.getMember G.leaderGuid with
        | none => w.deleteMember walk g G.leaderGuid
        | some leader =>
            if leader.rankId = grGuildMaster then w else w.setLeaderGUID g leader.guid
      if multiple then w else w.modifyGuild g validateGuildMasters

/-! ## Requests -/

/-- `GetGuild` of a player who sends a request. -/
def guildOf (p : P) (w : World P) : Option (Guild P) :=
  if w.findPlayer p then w.guilds (w.players p).guildId else none

/-- `HandleInviteMember`; `invitee` is the player found by name. -/
def inviteMember (p : P) (invitee : Option P) (allowed : Bool) (w : World P) : World P :=
  match w.guildOf p, invitee with
  | some G, some q =>
      if !w.findPlayer q || !allowed then w
      else if (w.players q).guildId ≠ 0 then w
      else if (w.players q).guildIdInvited ≠ 0 then w
      else if !G.hasRankRight p grRightInvite then w
      else w.setPlayer q fun x => { x with guildIdInvited := (w.players p).guildId }
  | _, _ => w

/-- `HandleGuildAcceptOpcode`, with `HandleAcceptMember`. -/
def acceptMember (p : P) (allowed : Bool) (w : World P) : World P :=
  if !w.findPlayer p || decide ((w.players p).guildId ≠ 0) || !allowed then w
  else (w.addMember (w.players p).guildIdInvited p none none).getD w

/-- `HandleGuildDeclineOpcode`. -/
def decline (p : P) (w : World P) : World P :=
  if !w.findPlayer p then w
  else (w.setPlayer p fun x => { x with guildIdInvited := 0 }).setInGuild p 0

/-- `HandleLeaveMember`. -/
def leaveMember (walk : Walk (Member P)) (p : P) (w : World P) : World P :=
  match w.guildOf p with
  | none => w
  | some G =>
      if G.isLeader p then
        if 1 < G.members.length then w else w.disband walk (w.players p).guildId
      else w.deleteMember walk (w.players p).guildId p

/-- `HandleRemoveMember`. -/
def removeMember (walk : Walk (Member P)) (p : P) (name : String) (w : World P) : World P :=
  match w.guildOf p with
  | none => w
  | some G =>
      if !G.hasRankRight p grRightRemove then w
      else
        match G.getMemberByName walk name with
        | none => w
        | some member =>
            if member.rankId = grGuildMaster then w
            else
              match G.getMember p with
              | none => w
              | some memberMe =>
                  if member.rankId ≤ memberMe.rankId then w
                  else w.deleteMember walk (w.players p).guildId member.guid

/-- `HandleUpdateMemberRank`. -/
def updateMemberRank (walk : Walk (Member P)) (p : P) (name : String) (demote : Bool)
    (w : World P) : World P :=
  match w.guildOf p with
  | none => w
  | some G =>
      if !G.hasRankRight p (if demote then grRightDemote else grRightPromote) then w
      else
        match G.getMemberByName walk name, G.getMember p with
        | some member, some memberMe =>
            if member.guid = p then w
            else if demote then
              if member.rankId ≤ memberMe.rankId then w
              else if G.lowestRankId ≤ member.rankId then w
              else w.changeRank (w.players p).guildId member.guid (member.rankId + 1)
            else if member.rankId ≤ (memberMe.rankId + 1) % 2 ^ 8 then w
            else w.changeRank (w.players p).guildId member.guid (member.rankId - 1)
        | _, _ => w

/-- `HandleSetLeader`. -/
def setLeader (walk : Walk (Member P)) (p : P) (name : String) (w : World P) : World P :=
  match w.guildOf p with
  | none => w
  | some G =>
      if !G.isLeader p then w
      else
        match G.getMember p, G.getMemberByName walk name with
        | some oldLeader, some newLeader =>
            (w.setLeaderGUID (w.players p).guildId newLeader.guid).changeRank
              (w.players p).guildId oldLeader.guid grOfficer
        | _, _ => w

/-- `HandleAddNewRank`. -/
def addNewRank (p : P) (w : World P) : World P :=
  match w.guildOf p with
  | none => w
  | some G =>
      if guildRanksMaxCount ≤ G.ranksSize then w
      else if !G.isLeader p then w
      else w.modifyGuild (w.players p).guildId fun G => (G.createRank grRightChat).getD G

/-- `HandleRemoveLowestRank`, with `HandleRemoveRank`. -/
def removeLowestRank (p : P) (w : World P) : World P :=
  match w.guildOf p with
  | none => w
  | some G =>
      if G.ranksSize ≤ guildRanksMinCount ∨ G.ranksSize ≤ G.lowestRankId ∨ !G.isLeader p then w
      else w.modifyGuild (w.players p).guildId fun G => { G with ranks := G.ranks.dropLast }

/-- `HandleDisband`. -/
def handleDisband (walk : Walk (Member P)) (p : P) (w : World P) : World P :=
  match w.guildOf p with
  | none => w
  | some G => if G.isLeader p then w.disband walk (w.players p).guildId else w

/-! ## Commands of game masters -/

/-- The character that a command names: it is in the world, or the cache knows it. -/
def known (p : P) (w : World P) : Bool := w.findPlayer p || (w.cache p).isSome

/-- The guild id that a command sees. -/
def commandGuildId (p : P) (w : World P) : Nat :=
  if w.findPlayer p then (w.players p).guildId else w.cachedGuildId p

/-- `HandleGuildCreateCommand`. -/
def gmCreate (leader : P) (nameFree : Bool) (w : World P) : World P :=
  if !w.findPlayer leader || decide ((w.players leader).guildId ≠ 0) then w
  else w.create leader nameFree

/-- `HandleGuildInviteCommand`. -/
def gmInvite (g : Nat) (p : P) (row : Option String) (w : World P) : World P :=
  if w.known p then (w.addMember g p none row).getD w else w

/-- `HandleGuildUninviteCommand`. -/
def gmUninvite (walk : Walk (Member P)) (p : P) (w : World P) : World P :=
  if w.known p ∧ w.commandGuildId p ≠ 0 then w.deleteMember walk (w.commandGuildId p) p else w

/-- `HandleGuildRankCommand`, with `ChangeMemberRank`. -/
def gmRank (p : P) (newRank : Nat) (w : World P) : World P :=
  match w.guilds (w.commandGuildId p) with
  | none => w
  | some G =>
      if newRank % 2 ^ 8 ≤ G.lowestRankId ∧ (G.getMember p).isSome then
        w.changeRank (w.commandGuildId p) p newRank
      else w

/-! ## Operations -/

inductive Op (P : Type)
  | inviteMember (p : P) (invitee : Option P) (allowed : Bool)
  | acceptMember (p : P) (allowed : Bool)
  | decline (p : P)
  | leaveMember (walk : Walk (Member P)) (p : P)
  | removeMember (walk : Walk (Member P)) (p : P) (name : String)
  | updateMemberRank (walk : Walk (Member P)) (p : P) (name : String) (demote : Bool)
  | setLeader (walk : Walk (Member P)) (p : P) (name : String)
  | addNewRank (p : P)
  | removeLowestRank (p : P)
  | disband (walk : Walk (Member P)) (p : P)
  | gmCreate (leader : P) (nameFree : Bool)
  | gmInvite (g : Nat) (p : P) (row : Option String)
  | gmUninvite (walk : Walk (Member P)) (p : P)
  | gmRank (p : P) (newRank : Nat)
  | gmDelete (walk : Walk (Member P)) (g : Nat)

def step (w : World P) : Op P → World P
  | .inviteMember p invitee allowed => w.inviteMember p invitee allowed
  | .acceptMember p allowed => w.acceptMember p allowed
  | .decline p => w.decline p
  | .leaveMember walk p => w.leaveMember walk p
  | .removeMember walk p name => w.removeMember walk p name
  | .updateMemberRank walk p name demote => w.updateMemberRank walk p name demote
  | .setLeader walk p name => w.setLeader walk p name
  | .addNewRank p => w.addNewRank p
  | .removeLowestRank p => w.removeLowestRank p
  | .disband walk p => w.handleDisband walk p
  | .gmCreate leader nameFree => w.gmCreate leader nameFree
  | .gmInvite g p row => w.gmInvite g p row
  | .gmUninvite walk p => w.gmUninvite walk p
  | .gmRank p newRank => w.gmRank p newRank
  | .gmDelete walk g => w.disband walk g

end World

end Sunstrider.Guilds
