import Sunstrider.Guilds.GuildHandler

/-!
# The guild bank

Money goes into the bank and out of it, tabs are bought, and items are moved between tabs
and players. A member counts what it takes: money in one counter, whether it is for its purse
or for repairs, and stacks that leave a tab in the tab's counter. Rank edits change the
limits that the counters are held against.

Of a move only what concerns rights and counters is here. Whether there is an item, whether it
can be split, stored or swapped, the items say, and their answers are part of the request. The
bank is loaded, and the player stands at it.
-/

namespace Sunstrider.Guilds

open Inventory

variable {P : Type} [DecidableEq P]

/-! ## Ranks -/

namespace Guild

def modifyRank (rankId : Nat) (f : RankInfo → RankInfo) (G : Guild P) : Guild P :=
  if rankId < G.ranksSize then { G with ranks := G.ranks.modify rankId f } else G

/-- `_SetRankBankTabRightsAndSlots`. -/
def setRankBankTabRightsAndSlots (rankId : Nat) (t : TabRights) (G : Guild P) : Guild P :=
  if G.purchasedTabs ≤ t.tabId then G else G.modifyRank rankId (RankInfo.setBankTabSlotsAndRights t)

/-- What `HandleSetRankInfo` writes. -/
def setRankInfo (rankId : Nat) (rights money : BitVec 32) (tabs : List TabRights) (G : Guild P) :
    Guild P :=
  tabs.foldl (fun G t => G.setRankBankTabRightsAndSlots rankId t)
    ((G.modifyRank rankId (RankInfo.setRights rights)).modifyRank rankId
      (RankInfo.setBankMoneyPerDay money))

/-- `_CreateNewBankTab`. -/
def createNewBankTab (G : Guild P) : Guild P :=
  { G with
    purchasedTabs := G.purchasedTabs + 1
    ranks := G.ranks.map (RankInfo.createMissingTabsIfNeeded (G.purchasedTabs + 1)) }

/-- `ResetTimes`. -/
def resetTimes (G : Guild P) : Guild P :=
  { G with
    members := G.members.map fun m => { m with bankWithdraw := fun _ => 0 }
    distinct := by
      have hsame : (G.members.map fun m => { m with bankWithdraw := fun _ => 0 }).map
          Member.guid = G.members.map Member.guid := by
        rw [List.map_map]
        rfl
      rw [hsame]
      exact G.distinct }

/-! ## Items -/

/-- An end of a move, as far as it matters who has it. -/
inductive MoveItemData
  | player
  | bank (tabId : Nat)
deriving DecidableEq, Repr

/-- What the items answer in `_MoveItems`. -/
structure MoveAnswers where
  /-- There is a source item. -/
  initItem : Bool
  /-- It has as many as are to be split off. -/
  checkItem : Bool
  /-- Fewer than all are to be split off. -/
  split : Bool
  cloneItem : Bool
  /-- It, or what is split off, can be stored. -/
  canStore : Bool
  /-- There is a destination item. -/
  initDest : Bool
  /-- Both can be stored at the other end. -/
  canSwap : Bool
deriving DecidableEq, Repr

def hasStoreRights (p : P) (own other : MoveItemData) (G : Guild P) : Bool :=
  match own with
  | .player => true
  | .bank tabId =>
      if other = .bank tabId then true
      else G.memberHasTabRights p tabId guildBankRightDepositItem

def hasWithdrawRights (p : P) (own other : MoveItemData) (G : Guild P) : Bool :=
  match own with
  | .player => true
  | .bank tabId =>
      if other = .bank tabId then true
      else
        match G.getMember p with
        | none => false
        | some m => decide (G.memberRemainingSlots m tabId ≠ 0)

/-- `RemoveItem`, and the tab that a stack has left. -/
def removeItem (p : P) (own other : MoveItemData) (G : Guild P) : Guild P × List Nat :=
  match own with
  | .player => (G, [])
  | .bank tabId =>
      if other = .bank tabId then (G, []) else (G.updateMemberWithdrawSlots p tabId, [tabId])

/-- `_DoItemsMove`, when it goes ahead. -/
def doItemsMove (p : P) (src dest : MoveItemData) (swap : Bool) (G : Guild P) :
    Guild P × List Nat :=
  let (G, left) := G.removeItem p src dest
  if swap then
    let (G, left') := G.removeItem p dest src
    (G, left ++ left')
  else (G, left)

/-- `_MoveItems`. -/
def moveItems (p : P) (src dest : MoveItemData) (a : MoveAnswers) (G : Guild P) :
    Guild P × List Nat :=
  if !a.initItem || !a.checkItem then (G, [])
  else if !G.hasStoreRights p dest src then (G, [])
  else if !G.hasWithdrawRights p src dest then (G, [])
  else if a.split then
    if !a.cloneItem || !a.canStore then (G, []) else G.doItemsMove p src dest false
  else if a.canStore then G.doItemsMove p src dest false
  else if !a.initDest then (G, [])
  else if !G.hasStoreRights p src dest then (G, [])
  else if !G.hasWithdrawRights p dest src then (G, [])
  else if !a.canSwap then (G, [])
  else G.doItemsMove p src dest true

end Guild

/-! ## Requests -/

def gold : Nat := 10000

/-- `GetGuildBankTabPrice`. -/
def guildBankTabPrice (tabId : Nat) : Nat := [100, 250, 500, 1000, 2500, 5000].getD tabId 0

namespace World

def modifyMoney (p : P) (amount : Int) (w : World P) : World P :=
  w.setPlayer p fun x => { x with purse := (x.purse.modifyMoney amount).1 }

/-- `HandleGuildRankOpcode`, with `HandleSetRankInfo`. -/
def setRankInfo (p : P) (rankId : Nat) (rights money : BitVec 32)
    (tabs : Nat → BitVec 8 × BitVec 32) (w : World P) : World P :=
  match w.guildOf p with
  | none => w
  | some G =>
      if !G.isLeader p then w
      else if (G.rankInfo (rankId % 2 ^ 8)).isNone then w
      else
        w.modifyGuild (w.players p).guildId (Guild.setRankInfo (rankId % 2 ^ 8) rights money
          ((List.range guildBankMaxTabs).map fun i => ⟨i, (tabs i).1, (tabs i).2⟩))

/-- `HandleGuildBankDepositMoney`, with `HandleMemberDepositMoney`. -/
def depositMoney (p : P) (money : Nat) (w : World P) : World P :=
  match w.guildOf p with
  | none => w
  | some _ =>
      if money = 0 || !(w.players p).purse.hasEnoughMoney (int32 money) then w
      else
        (w.modifyGuild (w.players p).guildId (Guild.modifyBankMoney money true)).modifyMoney p
          (-(int32 money))

/-- `HandleMemberWithdrawMoney`, with what it returns. -/
def memberWithdrawMoney (p : P) (amount : Nat) (repair : Bool) (w : World P) : World P × Bool :=
  match w.guildOf p with
  | none => (w, false)
  | some G =>
      let amount := min amount maxMoneyAmount
      if G.bankMoney < amount then (w, false)
      else
        match G.getMember p with
        | none => (w, false)
        | some member =>
            if (G.memberRemainingMoney member).toNat < amount then (w, false)
            else if !repair && !((w.players p).purse.modifyMoney (int32 amount)).2 then (w, false)
            else
              let paid := if repair then w else w.modifyMoney p (int32 amount)
              (paid.modifyGuild (w.players p).guildId fun G =>
                (G.modifyMember p (Guild.updateBankWithdrawValue guildBankMaxTabs
                  (BitVec.ofNat 32 amount)) fun _ => rfl).modifyBankMoney amount false, true)

/-- `HandleGuildBankWithdrawMoney`. -/
def withdrawMoney (p : P) (money : Nat) (w : World P) : World P :=
  if money = 0 then w else (w.memberWithdrawMoney p money false).1

/-- `HandleBuyBankTab`. -/
def buyBankTab (p : P) (tabId : Nat) (w : World P) : World P :=
  match w.guildOf p with
  | none => w
  | some G =>
      if (G.getMember p).isNone then w
      else if guildBankMaxTabs ≤ G.purchasedTabs then w
      else if tabId ≠ G.purchasedTabs then w
      else if guildBankMaxTabs ≤ tabId then w
      else
        let tabCost : Int := guildBankTabPrice tabId * gold
        if !(w.players p).purse.hasEnoughMoney tabCost then w
        else
          (w.modifyMoney p (-tabCost)).modifyGuild (w.players p).guildId Guild.createNewBankTab

/-- A move in the bank of the player's guild, and the tabs that stacks have left. -/
def moveItems (p : P) (allowed : Guild P → Bool) (src dest : Guild.MoveItemData)
    (a : Guild.MoveAnswers) (w : World P) : World P × List Nat :=
  match w.guildOf p with
  | none => (w, [])
  | some G =>
      if !allowed G then (w, [])
      else
        (w.setGuild (w.players p).guildId (some (G.moveItems p src dest a).1),
          (G.moveItems p src dest a).2)

/-- `SwapItems`; the slots are there, and not one and the same. -/
def swapItems (p : P) (tabId destTabId : Nat) (a : Guild.MoveAnswers) :
    World P → World P × List Nat :=
  moveItems p (fun G => tabId < G.purchasedTabs && destTabId < G.purchasedTabs)
    (.bank tabId) (.bank destTabId) a

/-- `SwapItemsWithInventory`. -/
def swapItemsWithInventory (p : P) (toChar : Bool) (tabId : Nat) (a : Guild.MoveAnswers) :
    World P → World P × List Nat :=
  if toChar then moveItems p (fun G => tabId < G.purchasedTabs) (.bank tabId) .player a
  else moveItems p (fun G => tabId < G.purchasedTabs) .player (.bank tabId) a

/-- Operations that change ranks, or who has which. -/
def Op.changesRanks : Op P → Bool
  | .updateMemberRank .. => true
  | .setLeader .. => true
  | .addNewRank .. => true
  | .removeLowestRank .. => true
  | .gmRank .. => true
  | _ => false

/-- Bank requests, rank changes and rank edits, and purses that change in other ways. -/
inductive BankOp (P : Type)
  | ranks (o : Op P) (h : o.changesRanks = true)
  | setRankInfo (p : P) (rankId : Nat) (rights money : BitVec 32)
      (tabs : Nat → BitVec 8 × BitVec 32)
  | depositMoney (p : P) (money : Nat)
  | withdrawMoney (p : P) (money : Nat)
  | repair (p : P) (costs : Nat)
  | buyBankTab (p : P) (tabId : Nat)
  | swapItems (p : P) (tabId destTabId : Nat) (a : Guild.MoveAnswers)
  | swapItemsWithInventory (p : P) (toChar : Bool) (tabId : Nat) (a : Guild.MoveAnswers)
  | setPurse (p : P) (purse : Purse)

/-- A step, and the tabs that stacks have left. -/
def bankStep (w : World P) : BankOp P → World P × List Nat
  | .ranks o _ => (w.step o, [])
  | .setRankInfo p rankId rights money tabs => (w.setRankInfo p rankId rights money tabs, [])
  | .depositMoney p money => (w.depositMoney p money, [])
  | .withdrawMoney p money => (w.withdrawMoney p money, [])
  | .repair p costs => ((w.memberWithdrawMoney p costs true).1, [])
  | .buyBankTab p tabId => (w.buyBankTab p tabId, [])
  | .swapItems p tabId destTabId a => w.swapItems p tabId destTabId a
  | .swapItemsWithInventory p toChar tabId a => w.swapItemsWithInventory p toChar tabId a
  | .setPurse p purse => (w.setPlayer p fun x => { x with purse := purse }, [])

end World

end Sunstrider.Guilds
