import Mathlib

/-!
# Guilds

A guild has ranks in a vector, whose first is the guild master's, and members in a hash
map, each with the index of its rank. A rank has rights, an allowance of money a day and,
for each bank tab, rights and an allowance of stacks a day; a member counts what it has
taken since the last reset. The counters and allowances are 32-bit words that the source
reads as signed numbers when it compares them.

The functions that walk the member map do so in an order that is nobody's business, so it
is a parameter. That the map has one entry a player is part of the type. Names of ranks,
notes, emblems, logs and packets are left out.
-/

namespace Sunstrider.Guilds

def guildBankMaxTabs : Nat := 6
def guildRanksMinCount : Nat := 5
def guildRanksMaxCount : Nat := 10

def grGuildMaster : Nat := 0
def grOfficer : Nat := 1

/-- `GuildRankRights`: each contains `GR_RIGHT_EMPTY`, down to the rights of the bank. -/
def grRightEmpty : BitVec 32 := 0x40
def grRightInvite : BitVec 32 := 0x50
def grRightRemove : BitVec 32 := 0x60
def grRightPromote : BitVec 32 := 0xC0
def grRightDemote : BitVec 32 := 0x140
def grRightChat : BitVec 32 := 0x43
def grRightWithdrawRepair : BitVec 32 := 0x40000
def grRightWithdrawGold : BitVec 32 := 0x80000
def grRightAll : BitVec 32 := 0x001DF1FF

def guildWithdrawUnlimited : BitVec 32 := 0xFFFFFFFF

def guildBankRightViewTab : BitVec 8 := 1
def guildBankRightDepositItem : BitVec 8 := 3
def guildBankRightFull : BitVec 8 := 0xFF
def tabUndefined : Nat := 0xFF

/-- `GuildBankRightsAndSlots`. -/
structure TabRights where
  tabId : Nat
  rights : BitVec 8
  slots : BitVec 32
deriving DecidableEq, Repr

/-- `SetGuildMasterValues`. -/
def TabRights.setGuildMasterValues (t : TabRights) : TabRights :=
  { t with rights := guildBankRightFull, slots := guildWithdrawUnlimited }

structure RankInfo where
  rankId : Nat
  rights : BitVec 32
  bankMoneyPerDay : BitVec 32
  bankTabRightsAndSlots : Nat → TabRights

namespace RankInfo

/-- The constructor with an id, rights and money. -/
def new (rankId : Nat) (rights money : BitVec 32) : RankInfo where
  rankId := rankId
  rights := rights
  bankMoneyPerDay := if rankId = grGuildMaster then guildWithdrawUnlimited else money
  bankTabRightsAndSlots := fun _ => ⟨tabUndefined, 0, 0⟩

/-- `CreateMissingTabsIfNeeded`. -/
def createMissingTabsIfNeeded (tabs : Nat) (r : RankInfo) : RankInfo :=
  { r with bankTabRightsAndSlots := fun i =>
      let t := r.bankTabRightsAndSlots i
      if i < tabs ∧ t.tabId ≠ i then
        let t := { t with tabId := i }
        if r.rankId = grGuildMaster then t.setGuildMasterValues else t
      else t }

/-- `SetRights`. -/
def setRights (rights : BitVec 32) (r : RankInfo) : RankInfo :=
  { r with rights := if r.rankId = grGuildMaster then grRightAll else rights }

/-- `SetBankMoneyPerDay`. -/
def setBankMoneyPerDay (money : BitVec 32) (r : RankInfo) : RankInfo :=
  { r with bankMoneyPerDay :=
      if r.rankId = grGuildMaster then guildWithdrawUnlimited else money }

/-- `SetBankTabSlotsAndRights`. -/
def setBankTabSlotsAndRights (t : TabRights) (r : RankInfo) : RankInfo :=
  let t := if r.rankId = grGuildMaster then t.setGuildMasterValues else t
  { r with bankTabRightsAndSlots := fun i =>
      if i = t.tabId then t else r.bankTabRightsAndSlots i }

end RankInfo

variable {P : Type} [DecidableEq P]

/-- A member; `bankWithdraw` has a counter for each tab and, after them, one for money. -/
structure Member (P : Type) where
  guid : P
  name : String
  rankId : Nat
  bankWithdraw : Nat → BitVec 32

/-- The constructor. -/
def Member.new (guid : P) (name : String) (rankId : Nat) : Member P :=
  ⟨guid, name, rankId, fun _ => 0⟩

structure Guild (P : Type) where
  leaderGuid : P
  ranks : List RankInfo
  members : List (Member P)
  distinct : (members.map Member.guid).Nodup
  purchasedTabs : Nat
  bankMoney : Nat

/-- An order in which a map is walked. -/
structure Walk (α : Type) where
  order : List α → List α
  perm : ∀ l, (order l).Perm l

/-- The order of the list itself. -/
def Walk.id {α : Type} : Walk α := ⟨fun l => l, fun _ => .refl _⟩

namespace Guild

/-- `_GetRanksSize`. -/
def ranksSize (G : Guild P) : Nat := G.ranks.length % 2 ^ 8

/-- `_GetLowestRankId`. -/
def lowestRankId (G : Guild P) : Nat := (G.ranks.length + (2 ^ 8 - 1)) % 2 ^ 8

/-- `GetRankInfo`. -/
def rankInfo (rankId : Nat) (G : Guild P) : Option RankInfo :=
  if rankId < G.ranksSize then G.ranks[rankId]? else none

/-- `GetMember` with a GUID. -/
def getMember (guid : P) (G : Guild P) : Option (Member P) :=
  G.members.find? fun m => decide (m.guid = guid)

/-- `GetMember` with a name. -/
def getMemberByName (walk : Walk (Member P)) (name : String) (G : Guild P) :
    Option (Member P) :=
  (walk.order G.members).find? fun m => decide (m.name = name)

/-- `_GetRankRights`. -/
def rankRights (rankId : Nat) (G : Guild P) : BitVec 32 :=
  ((G.rankInfo rankId).map RankInfo.rights).getD 0

/-- `_HasRankRight`. -/
def hasRankRight (guid : P) (right : BitVec 32) (G : Guild P) : Bool :=
  match G.getMember guid with
  | none => false
  | some m => decide (G.rankRights m.rankId &&& right ≠ grRightEmpty)

/-- `_IsLeader`. -/
def isLeader (guid : P) (G : Guild P) : Bool :=
  decide (guid = G.leaderGuid) ||
    match G.getMember guid with
    | none => false
    | some m => decide (m.rankId = grGuildMaster)

/-- Every member with the GUID is written. -/
def modifyMember (guid : P) (f : Member P → Member P) (hf : ∀ m, (f m).guid = m.guid)
    (G : Guild P) : Guild P :=
  { G with
    members := G.members.map fun m => if m.guid = guid then f m else m
    distinct := by
      have hsame : (G.members.map fun m => if m.guid = guid then f m else m).map Member.guid =
          G.members.map Member.guid := by
        rw [List.map_map]
        refine List.map_congr_left fun m _ => ?_
        show (if m.guid = guid then f m else m).guid = m.guid
        split
        · exact hf m
        · rfl
      rw [hsame]
      exact G.distinct }

/-- `m_rankId` is written, the part of `ChangeRank` that concerns the member. -/
def setMemberRank (guid : P) (newRank : Nat) (G : Guild P) : Guild P :=
  G.modifyMember guid (fun m => { m with rankId := newRank % 2 ^ 8 }) fun _ => rfl

/-- `m_members[lowguid] = member`: a former entry is overwritten. -/
def putMember (member : Member P) (G : Guild P) : Guild P :=
  { G with
    members := G.members.filter (fun m => decide (m.guid ≠ member.guid)) ++ [member]
    distinct := by
      rw [List.map_append, List.map_singleton, List.nodup_append]
      refine ⟨G.distinct.sublist (List.filter_sublist.map _), List.nodup_singleton _, ?_⟩
      rintro _ hm _ hp
      obtain ⟨m, hmem, rfl⟩ := List.mem_map.1 hm
      rw [List.mem_singleton.1 hp]
      have hne := (List.mem_filter.1 hmem).2
      exact of_decide_eq_true hne }

/-- `m_members.erase(lowguid)`. -/
def eraseMember (guid : P) (G : Guild P) : Guild P :=
  { G with
    members := G.members.filter fun m => decide (m.guid ≠ guid)
    distinct := G.distinct.sublist (List.filter_sublist.map _) }

/-- `_CreateRank`. The tabs are created in a copy of what went into the vector. -/
def createRank (rights : BitVec 32) (G : Guild P) : Option (Guild P) :=
  if guildRanksMaxCount ≤ G.ranksSize then none
  else some { G with ranks := G.ranks ++ [.new G.ranksSize rights 0] }

/-- `_CreateDefaultGuildRanks` on cleared ranks. -/
def createDefaultGuildRanks (G : Guild P) : Guild P :=
  [grRightAll, grRightAll, grRightChat, grRightChat, grRightChat].foldl
    (fun G rights => (G.createRank rights).getD G) { G with ranks := [] }

/-- The next leader in `DeleteMember`: among the others, the first of the highest rank. -/
def newLeader (walk : Walk (Member P)) (guid : P) (G : Guild P) : Option (Member P) :=
  (walk.order G.members).foldl (fun best m =>
    if m.guid = guid then best
    else
      match best with
      | none => some m
      | some b => if b.rankId > m.rankId then some m else best) none

/-- `GetBankWithdrawValue`. -/
def bankWithdrawValue (tabId : Nat) (m : Member P) : BitVec 32 :=
  if m.rankId = grGuildMaster then guildWithdrawUnlimited else m.bankWithdraw tabId

/-- `_GetRankBankMoneyPerDay`. -/
def rankBankMoneyPerDay (rankId : Nat) (G : Guild P) : BitVec 32 :=
  ((G.rankInfo rankId).map RankInfo.bankMoneyPerDay).getD 0

/-- `RankInfo::GetBankTabSlotsPerDay`, by way of `_GetRankBankTabSlotsPerDay`. -/
def rankBankTabSlotsPerDay (rankId tabId : Nat) (G : Guild P) : BitVec 32 :=
  if tabId < G.purchasedTabs then
    ((G.rankInfo rankId).map fun r =>
      if tabId < guildBankMaxTabs then (r.bankTabRightsAndSlots tabId).slots else 0).getD 0
  else 0

/-- `_GetRankBankTabRights`. -/
def rankBankTabRights (rankId tabId : Nat) (G : Guild P) : BitVec 8 :=
  ((G.rankInfo rankId).map fun r =>
    if tabId < guildBankMaxTabs then (r.bankTabRightsAndSlots tabId).rights else 0).getD 0

/-- `_GetMemberRemainingSlots`. -/
def memberRemainingSlots (m : Member P) (tabId : Nat) (G : Guild P) : BitVec 32 :=
  if m.rankId = grGuildMaster then guildWithdrawUnlimited
  else if G.rankBankTabRights m.rankId tabId &&& guildBankRightViewTab ≠ 0 then
    let remaining := G.rankBankTabSlotsPerDay m.rankId tabId - bankWithdrawValue tabId m
    if 0 < remaining.toInt then remaining else 0
  else 0

/-- `_GetMemberRemainingMoney`. -/
def memberRemainingMoney (m : Member P) (G : Guild P) : BitVec 32 :=
  if m.rankId = grGuildMaster then guildWithdrawUnlimited
  else if G.rankRights m.rankId &&& (grRightWithdrawRepair ||| grRightWithdrawGold) ≠ 0 then
    let remaining :=
      G.rankBankMoneyPerDay m.rankId - bankWithdrawValue guildBankMaxTabs m
    if 0 < remaining.toInt then remaining else 0
  else 0

/-- `UpdateBankWithdrawValue`. -/
def updateBankWithdrawValue (tabId : Nat) (amount : BitVec 32) (m : Member P) : Member P :=
  { m with bankWithdraw := fun i =>
      if i = tabId then m.bankWithdraw i + amount else m.bankWithdraw i }

/-- `_MemberHasTabRights`. -/
def memberHasTabRights (guid : P) (tabId : Nat) (rights : BitVec 8) (G : Guild P) : Bool :=
  match G.getMember guid with
  | none => false
  | some m =>
      decide (m.rankId = grGuildMaster) || decide (G.leaderGuid = guid) ||
        decide (G.rankBankTabRights m.rankId tabId &&& rights = rights)

/-- `_UpdateMemberWithdrawSlots`. -/
def updateMemberWithdrawSlots (guid : P) (tabId : Nat) (G : Guild P) : Guild P :=
  match G.getMember guid with
  | none => G
  | some m =>
      if m.rankId ≠ grGuildMaster ∧
          (bankWithdrawValue tabId m).toInt < (G.rankBankTabSlotsPerDay m.rankId tabId).toInt then
        G.modifyMember guid (updateBankWithdrawValue tabId 1) fun _ => rfl
      else G

/-- `_ModifyBankMoney`. -/
def modifyBankMoney (amount : Nat) (add : Bool) (G : Guild P) : Guild P :=
  if add then { G with bankMoney := (G.bankMoney + amount) % 2 ^ 64 }
  else if G.bankMoney < amount then G
  else { G with bankMoney := G.bankMoney - amount }

end Guild

end Sunstrider.Guilds
