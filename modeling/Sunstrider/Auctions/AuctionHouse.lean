import Sunstrider.Inventory.Purse
import Sunstrider.Lib.EarlyReturn
import Sunstrider.Lib.Ledger

/-!
# The auction houses

Three houses hold open auctions, each a map from auction ids. The items up for
auction are held beside them, in one map for all houses. A bidder pays when he
bids; a mail brings his gold back when another outbids him or the seller cancels.
When the time of an auction is over, or when a bid reaches its buyout, the seller
is mailed the bid and his deposit less the cut of the house, and the winner is
mailed the item.

The handlers are the packet handlers of `WorldSession`, run by a player who is in
the world. The three maps of open auctions are one map here, with the house in the
key; the greatest auction id is never reached, since the server stops before it.
Rates are floating point numbers in the source, so the three amounts computed with
them are functions of the configuration. A low GUID of zero, which stands for
nobody, is `none`.
-/

namespace Sunstrider.Auctions

open Lib Inventory

abbrev Guid := Nat
abbrev ItemGuid := Nat

inductive House
  | horde
  | alliance
  | neutral
deriving DecidableEq

inductive MailAuctionAnswers
  | outbidded
  | won
  | successful
  | expired
  | cancelledToBidder
  | canceled
  | salePending
deriving DecidableEq

inductive AuctionAction
  | sellItem
  | cancel
  | placeBid
deriving DecidableEq

inductive AuctionError
  | ok
  | internalError
  | notEnoughtMoney
  | itemNotFound
  | cannotBidYourAuction
deriving DecidableEq

/-- What `SendAuctionCommandResult` sends. -/
structure CommandResult where
  auctionId : Nat
  action : AuctionAction
  error : AuctionError
deriving DecidableEq

/-- The answer to a request; some are dropped without one. -/
abbrev Reply := Option CommandResult

structure AuctionHouseEntry where
  houseId : Nat
  cutPercent : Nat

/-- The fields of an item that the auction house reads. -/
structure Item where
  entry : Nat
  count : Nat
  sellPrice : Nat
  conjured : Bool
  duration : Nat

structure AuctionEntry where
  itemGUIDLow : ItemGuid
  itemEntry : Nat
  itemCount : Nat
  owner : Guid
  startbid : Nat
  bid : Nat
  buyout : Nat
  expireTime : Nat
  bidder : Option Guid
  deposit : Nat
  depositTime : Nat
  auctionHouseEntry : AuctionHouseEntry

/-- `BuildAuctionMailSubject`. -/
structure MailSubject where
  itemEntry : Nat
  response : MailAuctionAnswers
  auctionId : Nat
  itemCount : Nat

/-- `BuildAuctionMailBody`. -/
structure MailBody where
  lowGuid : Option Guid
  bid : Nat
  buyout : Nat
  deposit : Nat
  cut : Nat

structure AuctionMail where
  receiver : Guid
  subject : MailSubject
  body : MailBody
  money : Nat
  item : Option ItemGuid

structure Session where
  inWorld : Bool
  remoteAddress : Nat

/-- A character of the character cache. Its account id is not zero. -/
structure Character where
  accountId : Nat
  accountId_ne : accountId ≠ 0
  session : Option Session
  purse : Purse

structure Carried where
  owner : Guid
  item : Item

structure World where
  gameTime : Nat
  characters : Ledger Guid Character
  /-- The items in the slots of characters. -/
  inventory : ItemGuid → Option Carried
  mAitems : ItemGuid → Option Item
  auctions : Ledger (House × Nat) AuctionEntry
  auctionId : Nat
  mails : List AuctionMail

/-! ## The configuration -/

def minute : Nat := 60
def minAuctionTime : Nat := 12 * 3600
def maxAuctions : Nat := 240

def factionMaskAlliance : Nat := 2
def factionMaskHorde : Nat := 4

structure Config where
  /-- `CONFIG_ALLOW_TWO_SIDE_INTERACTION_AUCTION`. -/
  twoSideInteraction : Bool
  /-- The `ourMask` of a faction template. -/
  factionTemplate : Nat → Option Nat
  auctionHouseStore : Nat → Option AuctionHouseEntry
  /-- The time of an auction after `RATE_AUCTION_TIME`. -/
  auctionTime : Nat → Nat
  getAuctionDeposit : AuctionHouseEntry → Nat → Item → Nat
  /-- `x * RATE_AUCTION_CUT / 100` for the product `x` of the percentage and the bid. -/
  auctionCut : Nat → Nat

namespace Config

variable (c : Config)

def getAuctionsMap (factionTemplateId : Nat) : House :=
  if c.twoSideInteraction then .neutral
  else
    match c.factionTemplate factionTemplateId with
    | none => .neutral
    | some ourMask =>
        if ourMask &&& factionMaskAlliance ≠ 0 then .alliance
        else if ourMask &&& factionMaskHorde ≠ 0 then .horde
        else .neutral

/-- The house ids of `GetAuctionHouseEntry`. -/
def houseId (factionTemplateId : Nat) : Nat :=
  if c.twoSideInteraction then 7
  else
    match factionTemplateId with
    | 12 => 1
    | 29 => 6
    | 55 => 2
    | 68 => 4
    | 80 => 3
    | 104 => 5
    | 120 => 7
    | 474 => 7
    | 855 => 7
    | 1604 => 6
    | id =>
        match c.factionTemplate id with
        | none => 7
        | some ourMask =>
            if ourMask &&& factionMaskAlliance ≠ 0 then 1
            else if ourMask &&& factionMaskHorde ≠ 0 then 6
            else 7

def getAuctionHouseEntry (factionTemplateId : Nat) : Option AuctionHouseEntry :=
  c.auctionHouseStore (c.houseId factionTemplateId)

end Config

namespace AuctionEntry

variable (c : Config) (a : AuctionEntry)

def getAuctionCut : Nat :=
  let cutPercent := if c.twoSideInteraction then 5 else a.auctionHouseEntry.cutPercent
  c.auctionCut (uint32 (cutPercent * a.bid))

def getAuctionOutBid : Nat :=
  let outbid := a.bid / 100 * 5
  if outbid = 0 then 1 else outbid

/-- What `SendAuctionSuccessfulMail` pays the owner. -/
def profit : Nat := uint32 (a.bid + a.deposit - a.getAuctionCut c)

/-- The price is not taken as a bid but buys the item. -/
def reachesBuyout (price : Nat) : Bool := !(price < a.buyout || a.buyout = 0)

/-- A mail about the auction `id`. -/
def mail (id : Nat) (response : MailAuctionAnswers) (receiver : Guid) (lowGuid : Option Guid)
    (bid deposit cut money : Nat) (item : Option ItemGuid) : AuctionMail where
  receiver := receiver
  subject := ⟨a.itemEntry, response, id, a.itemCount⟩
  body := ⟨lowGuid, bid, a.buyout, deposit, cut⟩
  money := money
  item := item

def outbiddedMail (id : Nat) (bidder : Guid) : AuctionMail :=
  a.mail id .outbidded bidder (some a.owner) a.bid a.deposit (a.getAuctionCut c) a.bid none

def cancelledToBidderMail (id : Nat) (bidder : Guid) : AuctionMail :=
  a.mail id .cancelledToBidder bidder (some a.owner) a.bid a.deposit 0 a.bid none

def wonMail (id : Nat) (bidder : Guid) : AuctionMail :=
  a.mail id .won bidder (some a.owner) a.bid 0 0 0 (some a.itemGUIDLow)

def salePendingMail (id : Nat) : AuctionMail :=
  a.mail id .salePending a.owner a.bidder a.bid a.deposit (a.getAuctionCut c) 0 none

def successfulMail (id : Nat) : AuctionMail :=
  a.mail id .successful a.owner a.bidder a.bid a.deposit (a.getAuctionCut c) (a.profit c) none

def expiredMail (id : Nat) : AuctionMail :=
  a.mail id .expired a.owner none 0 a.deposit 0 0 (some a.itemGUIDLow)

def canceledMail (id : Nat) : AuctionMail :=
  a.mail id .canceled a.owner none 0 a.deposit 0 0 (some a.itemGUIDLow)

end AuctionEntry

/-! ## Characters and mails -/

namespace World

variable (c : Config) (w : World)

def findConnectedPlayer (guid : Guid) : Option Character :=
  (w.characters.lookup guid).filter fun ch => ch.session.isSome

def findPlayer (guid : Guid) : Option Character :=
  (w.characters.lookup guid).filter fun ch => ch.session.any (·.inWorld)

def getCharacterAccountIdByGuid (guid : Guid) : Nat :=
  (w.characters.lookup guid).elim 0 (·.accountId)

def modifyMoney (guid : Guid) (amount : Int) : World :=
  match w.characters.lookup guid with
  | none => w
  | some ch =>
      let ch := { ch with purse := (ch.purse.modifyMoney amount).1 }
      { w with characters := w.characters.insert guid ch }

def sendMailTo (m : AuctionMail) : World := { w with mails := m :: w.mails }

def removeAItem (guid : ItemGuid) : World :=
  { w with mAitems := Function.update w.mAitems guid none }

def sendAuctionOutbiddedMail (id : Nat) (a : AuctionEntry) : World :=
  match a.bidder with
  | none => w
  | some bidder =>
      if (w.findPlayer bidder).isSome || w.getCharacterAccountIdByGuid bidder ≠ 0 then
        w.sendMailTo (a.outbiddedMail c id bidder)
      else w

def sendAuctionCancelledToBidderMail (id : Nat) (a : AuctionEntry) : World :=
  match a.bidder with
  | none => w
  | some bidder =>
      if (w.findPlayer bidder).isSome || w.getCharacterAccountIdByGuid bidder ≠ 0 then
        w.sendMailTo (a.cancelledToBidderMail id bidder)
      else w

def sendAuctionWonMail (id : Nat) (a : AuctionEntry) : World :=
  match w.mAitems a.itemGUIDLow, a.bidder with
  | some _, some bidder =>
      if (w.findConnectedPlayer bidder).isSome || w.getCharacterAccountIdByGuid bidder ≠ 0 then
        w.sendMailTo (a.wonMail id bidder)
      else w.removeAItem a.itemGUIDLow
  | _, _ => w

def ownerExists (a : AuctionEntry) : Bool :=
  (w.findConnectedPlayer a.owner).isSome || w.getCharacterAccountIdByGuid a.owner ≠ 0

def sendAuctionSalePendingMail (id : Nat) (a : AuctionEntry) : World :=
  if w.ownerExists a then w.sendMailTo (a.salePendingMail c id) else w

def sendAuctionSuccessfulMail (id : Nat) (a : AuctionEntry) : World :=
  if w.ownerExists a then w.sendMailTo (a.successfulMail c id) else w

def sendAuctionExpiredMail (id : Nat) (a : AuctionEntry) : World :=
  match w.mAitems a.itemGUIDLow with
  | none => w
  | some _ =>
      if w.ownerExists a then w.sendMailTo (a.expiredMail id)
      else w.removeAItem a.itemGUIDLow

/-- `RemoveAItem` and `RemoveAuction`. -/
def closeAuction (k : House × Nat) (a : AuctionEntry) : World :=
  let w := w.removeAItem a.itemGUIDLow
  { w with auctions := w.auctions.erase k }

/-! ## Selling -/

structure SellRequest where
  player : Guid
  /-- The faction of the auctioneer, if the player can interact with him. -/
  auctioneer : Option Nat
  itemGUID : ItemGuid
  bid : Nat
  buyout : Nat
  etime : Nat
  /-- The answer of `Item::CanBeTraded`. -/
  canBeTraded : Bool

def getAuctionsCount (house : House) (guid : Guid) : Nat :=
  Ledger.count w.auctions fun k a => k.1 = house && a.owner = guid

/-- `Player::GetItemByGuid`. -/
def getItemByGuid (guid : Guid) (item : ItemGuid) : Option Item :=
  ((w.inventory item).filter (·.owner = guid)).map (·.item)

/-- The checks of `HandleAuctionSellItem`, and the auction it opens. -/
def checkSell (r : SellRequest) : Except Reply (House × AuctionEntry) := do
  let pl ← found (w.findPlayer r.player) none
  require (r.itemGUID ≠ 0 ∧ r.bid ≠ 0 ∧ r.etime ≠ 0) none
  let faction ← found r.auctioneer none
  let entry ← found (c.getAuctionHouseEntry faction) none
  let house := c.getAuctionsMap faction
  require (w.getAuctionsCount house r.player ≤ maxAuctions) none
  let etime := uint32 (r.etime * minute)
  require (etime = minAuctionTime ∨ etime = 2 * minAuctionTime ∨ etime = 4 * minAuctionTime) none
  require (w.mAitems r.itemGUID).isNone (some ⟨0, .sellItem, .internalError⟩)
  let item ← found (w.getItemByGuid r.player r.itemGUID) (some ⟨0, .sellItem, .itemNotFound⟩)
  require r.canBeTraded (some ⟨0, .sellItem, .internalError⟩)
  require (item.conjured = false ∧ item.duration = 0) (some ⟨0, .sellItem, .internalError⟩)
  let deposit := c.getAuctionDeposit entry etime item
  require (deposit ≤ pl.purse.money) (some ⟨0, .sellItem, .notEnoughtMoney⟩)
  return (house, {
    itemGUIDLow := r.itemGUID
    itemEntry := item.entry
    itemCount := item.count
    owner := r.player
    startbid := r.bid
    bid := 0
    buyout := r.buyout
    expireTime := w.gameTime + c.auctionTime etime
    bidder := none
    deposit := deposit
    depositTime := w.gameTime
    auctionHouseEntry := entry })

/-- The deposit is taken, and the item goes from its slot to the auction house. -/
def openAuction (house : House) (a : AuctionEntry) : World :=
  let w := w.modifyMoney a.owner (-(int32 a.deposit))
  { w with
    auctions := w.auctions.insert (house, w.auctionId) a
    auctionId := w.auctionId + 1
    mAitems :=
      Function.update w.mAitems a.itemGUIDLow ((w.inventory a.itemGUIDLow).map (·.item))
    inventory := Function.update w.inventory a.itemGUIDLow none }

def handleAuctionSellItem (r : SellRequest) : World × Reply :=
  match w.checkSell c r with
  | .error reply => (w, reply)
  | .ok (house, a) => (w.openAuction house a, some ⟨w.auctionId, .sellItem, .ok⟩)

/-! ## Bidding -/

structure BidRequest where
  player : Guid
  auctioneer : Option Nat
  auctionId : Nat
  price : Nat

/-- In the first minute an auction is open to those with the address of its owner. -/
def mustWait (pl : Character) (a : AuctionEntry) : Bool :=
  a.depositTime + 60 > w.gameTime &&
    (w.findPlayer a.owner).any fun owner =>
      owner.session.map (·.remoteAddress) ≠ pl.session.map (·.remoteAddress)

/-- The checks of `HandleAuctionPlaceBid`, and the auction that is bid on. -/
def checkBid (r : BidRequest) : Except Reply ((House × Nat) × AuctionEntry) := do
  let pl ← found (w.findPlayer r.player) none
  require (r.auctionId ≠ 0 ∧ r.price ≠ 0) none
  let faction ← found r.auctioneer none
  let k := (c.getAuctionsMap faction, r.auctionId)
  let a ← found (w.auctions.lookup k) (some ⟨0, .placeBid, .cannotBidYourAuction⟩)
  require (a.owner ≠ r.player) (some ⟨0, .placeBid, .cannotBidYourAuction⟩)
  require ((w.findPlayer a.owner).isSome ∨ w.getCharacterAccountIdByGuid a.owner ≠ pl.accountId)
    (some ⟨0, .placeBid, .cannotBidYourAuction⟩)
  require (w.mustWait pl a = false) none
  require (a.bid < r.price) none
  require (a.reachesBuyout r.price ∨ uint32 (a.bid + a.getAuctionOutBid) ≤ r.price) none
  require (r.price ≤ pl.purse.money) none
  return (k, a)

/-- The bid is paid, a bidder's own raise by the difference. -/
def bidOn (k : House × Nat) (a : AuctionEntry) (guid : Guid) (price : Nat) : World :=
  let w :=
    if a.bidder = some guid then w.modifyMoney guid (-(int32 (uint32 (price - a.bid))))
    else (w.sendAuctionOutbiddedMail c k.2 a).modifyMoney guid (-(int32 price))
  { w with auctions := w.auctions.insert k { a with bidder := some guid, bid := price } }

def buyOut (k : House × Nat) (a : AuctionEntry) (guid : Guid) : World :=
  let w :=
    if a.bidder = some guid then w.modifyMoney guid (-(int32 (uint32 (a.buyout - a.bid))))
    else (w.modifyMoney guid (-(int32 a.buyout))).sendAuctionOutbiddedMail c k.2 a
  let a := { a with bidder := some guid, bid := a.buyout }
  let w := w.sendAuctionSalePendingMail c k.2 a
  let w := w.sendAuctionSuccessfulMail c k.2 a
  let w := w.sendAuctionWonMail k.2 a
  w.closeAuction k a

def handleAuctionPlaceBid (r : BidRequest) : World × Reply :=
  match w.checkBid c r with
  | .error reply => (w, reply)
  | .ok (k, a) =>
      (if a.reachesBuyout r.price then w.buyOut c k a r.player else w.bidOn c k a r.player r.price,
        some ⟨k.2, .placeBid, .ok⟩)

/-! ## Cancelling -/

structure RemoveRequest where
  player : Guid
  auctioneer : Option Nat
  auctionId : Nat

/-- The checks of `HandleAuctionRemoveItem`, and the auction that is cancelled. -/
def checkRemove (r : RemoveRequest) : Except Reply ((House × Nat) × AuctionEntry) := do
  let pl ← found (w.findPlayer r.player) none
  let faction ← found r.auctioneer none
  let k := (c.getAuctionsMap faction, r.auctionId)
  let a ← found (w.auctions.lookup k) (some ⟨0, .cancel, .internalError⟩)
  require (a.owner = r.player) (some ⟨0, .cancel, .internalError⟩)
  require (w.mAitems a.itemGUIDLow).isSome (some ⟨0, .cancel, .internalError⟩)
  require (a.bidder = none ∨ a.getAuctionCut c ≤ pl.purse.money) none
  return (k, a)

/-- The owner pays the cut of a bid, and has his item mailed to him. -/
def cancelAuction (k : House × Nat) (a : AuctionEntry) : World :=
  let w :=
    if a.bidder.isSome then
      (w.sendAuctionCancelledToBidderMail k.2 a).modifyMoney a.owner (-(int32 (a.getAuctionCut c)))
    else w
  (w.sendMailTo (a.canceledMail k.2)).closeAuction k a

def handleAuctionRemoveItem (r : RemoveRequest) : World × Reply :=
  match w.checkRemove c r with
  | .error reply => (w, reply)
  | .ok (k, a) => (w.cancelAuction c k a, some ⟨k.2, .cancel, .ok⟩)

/-! ## Expiry -/

/-- What `Update` and `RemoveAllAuctionsOf` do with an auction that is over. -/
def settle (k : House × Nat) (a : AuctionEntry) : World :=
  let w :=
    match a.bidder with
    | none => w.sendAuctionExpiredMail k.2 a
    | some _ => (w.sendAuctionSuccessfulMail c k.2 a).sendAuctionWonMail k.2 a
  w.closeAuction k a

/-- The ids of the auctions of a house, in the order of its map. -/
def auctionIds (house : House) : List Nat :=
  ((w.auctions.keys.filter (·.1 = house)).map (·.2)).insertionSort (· ≤ ·)

/-- One round of a loop over a house that settles the auctions that are over. -/
def sweepOne (ended : AuctionEntry → Bool) (house : House) (w : World) (id : Nat) : World :=
  match w.auctions.lookup (house, id) with
  | none => w
  | some a => if ended a then w.settle c (house, id) a else w

def sweep (ended : AuctionEntry → Bool) (w : World) (house : House) : World :=
  (w.auctionIds house).foldl (sweepOne c ended house) w

/-- The loops of `AuctionHouseMgr` go through the houses in this order. -/
def houses : List House := [.horde, .alliance, .neutral]

/-- `AuctionHouseMgr::Update`. -/
def update : World := houses.foldl (sweep c fun a => w.gameTime > a.expireTime) w

def removeAllAuctionsOf (owner : Guid) : World :=
  houses.foldl (sweep c fun a => a.owner = owner) w

def setSession (guid : Guid) (session : Option Session) : World :=
  match w.characters.lookup guid with
  | none => w
  | some ch => { w with characters := w.characters.insert guid { ch with session := session } }

end World

/-! ## Runs -/

/-- What can happen, in any order. -/
inductive Op
  | sell (r : World.SellRequest)
  | bid (r : World.BidRequest)
  | cancel (r : World.RemoveRequest)
  | update
  | removeAllAuctionsOf (owner : Guid)
  | elapse (seconds : Nat)
  | session (guid : Guid) (session : Option Session)
  /-- Gold earned or spent elsewhere. -/
  | modifyMoney (guid : Guid) (amount : Int)

def step (c : Config) (w : World) : Op → World
  | .sell r => (w.handleAuctionSellItem c r).1
  | .bid r => (w.handleAuctionPlaceBid c r).1
  | .cancel r => (w.handleAuctionRemoveItem c r).1
  | .update => w.update c
  | .removeAllAuctionsOf owner => w.removeAllAuctionsOf c owner
  | .elapse seconds => { w with gameTime := w.gameTime + seconds }
  | .session guid session => w.setSession guid session
  | .modifyMoney guid amount => w.modifyMoney guid amount

def run (c : Config) (w : World) (ops : List Op) : World := ops.foldl (step c) w

/-- Some characters, what they carry, and no auction yet. -/
def start (time : Nat) (characters : Ledger Guid Character)
    (inventory : ItemGuid → Option Carried) : World where
  gameTime := time
  characters := characters
  inventory := inventory
  mAitems := fun _ => none
  auctions := ∅
  auctionId := 1
  mails := []

end Sunstrider.Auctions
