import Sunstrider.Auctions.AuctionHouse

/-!
# What a request does to the auction house

Everything that happens in the auction house is one kind of change: somebody pays
an amount, one auction is opened, changed or closed, and some mails are sent. This
module says so once for each of the five ways, under what the state keeps: the
characters concerned exist, the payer has the gold, and the item is at hand. Sums
over the open auctions and the mails then follow a change by one equation.
-/

namespace Sunstrider.Auctions

open Lib Inventory

/-! ## Sums -/

namespace World

def Known (w : World) (guid : Guid) : Prop := (w.characters.lookup guid).isSome = true

def money (w : World) (guid : Guid) : Int :=
  (w.characters.lookup guid).elim 0 fun ch => (ch.purse.money : Int)

/-- The gold in purses. -/
def purses (w : World) : Int := Ledger.weigh w.characters fun _ ch => (ch.purse.money : Int)

/-- A sum over the open auctions and the mails. -/
def tally (w : World) (f : House × Nat → AuctionEntry → Int) (h : AuctionMail → Int) : Int :=
  Ledger.weigh w.auctions f + (w.mails.map h).sum

end World

/-! ## Changes -/

/-- A payment, an auction before and after, and mails. -/
structure Change where
  payer : Guid
  paid : Nat
  key : House × Nat
  item : ItemGuid
  old : Option AuctionEntry
  new : Option AuctionEntry
  mails : List AuctionMail

/-- The payer's purse is all that differs in the characters. -/
structure Pays (w w' : World) (guid : Guid) (n : Nat) : Prop where
  known : ∀ g, w'.Known g ↔ w.Known g
  self : w'.money guid = w.money guid - n
  others : ∀ g, g ≠ guid → w'.money g = w.money g
  purses : w'.purses = w.purses - n

structure Changed (w w' : World) (x : Change) : Prop where
  pays : Pays w w' x.payer x.paid
  gameTime : w'.gameTime = w.gameTime
  old : w.auctions.lookup x.key = x.old
  auctions : w'.auctions =
    x.new.elim (w.auctions.erase x.key) fun a => w.auctions.insert x.key a
  mails : w'.mails = x.mails ++ w.mails
  auctionId : w'.auctionId = w.auctionId + x.old.isNone.toNat
  mAitems : ∀ i, (w'.mAitems i).isSome = if i = x.item then x.new.isSome else (w.mAitems i).isSome
  inventory : ∀ i, w'.inventory i = if i = x.item ∧ x.old = none then none else w.inventory i

section Consequences

variable {w w' : World} {x : Change}

/-- Nothing is paid. -/
theorem Pays.of_characters (h : w'.characters = w.characters) (guid : Guid) : Pays w w' guid 0 where
  known := fun _ => by
    unfold World.Known
    rw [h]
  self := by
    unfold World.money
    rw [h]
    omega
  others := fun _ _ => by
    unfold World.money
    rw [h]
  purses := by
    unfold World.purses
    rw [h]
    omega

theorem Changed.lookup_self (h : Changed w w' x) : w'.auctions.lookup x.key = x.new := by
  rw [h.auctions]
  cases x.new with
  | none => exact AList.lookup_erase _ _
  | some a => exact AList.lookup_insert _

theorem Changed.lookup_ne (h : Changed w w' x) {k : House × Nat} (hne : k ≠ x.key) :
    w'.auctions.lookup k = w.auctions.lookup k := by
  rw [h.auctions]
  cases x.new with
  | none => exact AList.lookup_erase_ne hne
  | some a => exact AList.lookup_insert_ne hne

/-- An auction of the new state is the changed one or was there before. -/
theorem Changed.lookup_cases (h : Changed w w' x) {k : House × Nat} {a : AuctionEntry}
    (ha : w'.auctions.lookup k = some a) :
    (k = x.key ∧ x.new = some a) ∨ (k ≠ x.key ∧ w.auctions.lookup k = some a) := by
  by_cases hk : k = x.key
  · subst hk
    rw [h.lookup_self] at ha
    exact .inl ⟨rfl, ha⟩
  · rw [h.lookup_ne hk] at ha
    exact .inr ⟨hk, ha⟩

/-- A sum loses the old auction, and gains the new one and the mails. -/
theorem Changed.tally (h : Changed w w' x) (f : House × Nat → AuctionEntry → Int)
    (g : AuctionMail → Int) :
    w'.tally f g =
      w.tally f g - x.old.elim 0 (f x.key) + x.new.elim 0 (f x.key) + (x.mails.map g).sum := by
  have hauctions : Ledger.weigh w'.auctions f =
      Ledger.weigh w.auctions f - x.old.elim 0 (f x.key) + x.new.elim 0 (f x.key) := by
    have hold := h.old
    rw [h.auctions]
    cases hx : x.old with
    | none =>
        rw [hx, AList.lookup_eq_none] at hold
        cases x.new with
        | none =>
            show Ledger.weigh (w.auctions.erase x.key) f = _ - 0 + 0
            rw [Ledger.weigh_erase_of_notMem hold]
            omega
        | some b =>
            show Ledger.weigh (w.auctions.insert x.key b) f = _ - 0 + f x.key b
            rw [Ledger.weigh_insert_of_notMem hold]
            omega
    | some a =>
        rw [hx] at hold
        cases x.new with
        | none =>
            have herase := Ledger.weigh_erase hold f
            show Ledger.weigh (w.auctions.erase x.key) f = _ - f x.key a + 0
            omega
        | some b =>
            have hinsert := Ledger.weigh_insert hold b f
            show Ledger.weigh (w.auctions.insert x.key b) f = _ - f x.key a + f x.key b
            omega
  unfold World.tally
  rw [hauctions, h.mails, List.map_append, List.sum_append]
  omega

end Consequences

/-! ## Paying and mailing -/

section Parts

variable {c : Config} {w : World} {guid : Guid} {a : AuctionEntry} {id : Nat}

variable {ch : Character}

/-- `w'` is `w` but for the characters. -/
structure Paying (w w' : World) (guid : Guid) (n : Nat) : Prop where
  pays : Pays w w' guid n
  rest : w' = { w with characters := w'.characters }

/-- The purse of a character is exchanged for one with `n` less. -/
theorem World.setPurse_pays {n : Nat} {purse : Purse} (hch : w.characters.lookup guid = some ch)
    (hle : n ≤ ch.purse.money) (hpurse : purse.money = ch.purse.money - n) :
    Paying w { w with characters := w.characters.insert guid { ch with purse := purse } } guid n := by
  have hsum := Ledger.weigh_insert hch { ch with purse := purse }
    fun _ ch => (ch.purse.money : Int)
  simp only [hpurse] at hsum
  refine ⟨⟨fun g => ?_, ?_, fun g hg => ?_, ?_⟩, rfl⟩
  · unfold World.Known
    by_cases hg : g = guid
    · subst hg
      simp only [AList.lookup_insert, hch, Option.isSome_some]
    · simp only [AList.lookup_insert_ne hg]
  · unfold World.money
    simp only [AList.lookup_insert, hch, Option.elim_some, hpurse]
    omega
  · unfold World.money
    simp only [AList.lookup_insert_ne hg]
  · unfold World.purses
    simp only []
    omega

theorem World.modifyMoney_pay {n : Nat} (hch : w.characters.lookup guid = some ch)
    (hle : n ≤ ch.purse.money) : Paying w (w.modifyMoney guid (-(int32 n))) guid n := by
  have hpay := Purse.modifyMoney_pay hle
  unfold World.modifyMoney
  rw [hch]
  exact World.setPurse_pays hch hle hpay

theorem World.accountId_ne (hknown : w.Known guid) : w.getCharacterAccountIdByGuid guid ≠ 0 := by
  unfold World.Known at hknown
  unfold World.getCharacterAccountIdByGuid
  cases hch : w.characters.lookup guid with
  | none =>
      rw [hch] at hknown
      cases hknown
  | some ch => exact ch.accountId_ne

theorem World.ownerExists_of_known (hknown : w.Known a.owner) : w.ownerExists a = true := by
  unfold World.ownerExists
  simp [World.accountId_ne hknown]

theorem World.known_of_findPlayer (hch : w.findPlayer guid = some ch) :
    w.characters.lookup guid = some ch :=
  (Option.filter_eq_some_iff.1 hch).1

theorem World.known_of_lookup (hch : w.characters.lookup guid = some ch) : w.Known guid := by
  unfold World.Known
  rw [hch]
  rfl

/-- The mail to the bidder who was outbid. -/
def outbid (c : Config) (id : Nat) (a : AuctionEntry) : List AuctionMail :=
  a.bidder.elim [] fun bidder => [a.outbiddedMail c id bidder]

/-- The mail to the bidder of a cancelled auction. -/
def cancelled (id : Nat) (a : AuctionEntry) : List AuctionMail :=
  a.bidder.elim [] fun bidder => [a.cancelledToBidderMail id bidder]

theorem World.sendAuctionOutbiddedMail_eq (hknown : ∀ b, a.bidder = some b → w.Known b) :
    w.sendAuctionOutbiddedMail c id a = { w with mails := outbid c id a ++ w.mails } := by
  unfold World.sendAuctionOutbiddedMail outbid
  cases hb : a.bidder with
  | none => rfl
  | some bidder =>
      have hacc := World.accountId_ne (hknown bidder hb)
      simp only [hacc, ne_eq, not_false_eq_true, decide_true, Bool.or_true, if_true]
      rfl

theorem World.sendAuctionCancelledToBidderMail_eq (hknown : ∀ b, a.bidder = some b → w.Known b) :
    w.sendAuctionCancelledToBidderMail id a = { w with mails := cancelled id a ++ w.mails } := by
  unfold World.sendAuctionCancelledToBidderMail cancelled
  cases hb : a.bidder with
  | none => rfl
  | some bidder =>
      have hacc := World.accountId_ne (hknown bidder hb)
      simp only [hacc, ne_eq, not_false_eq_true, decide_true, Bool.or_true, if_true]
      rfl

theorem World.sendAuctionWonMail_eq (hitem : (w.mAitems a.itemGUIDLow).isSome = true)
    (hb : a.bidder = some guid) (hknown : w.Known guid) :
    w.sendAuctionWonMail id a = w.sendMailTo (a.wonMail id guid) := by
  obtain ⟨item, hitem⟩ := Option.isSome_iff_exists.1 hitem
  have hacc := World.accountId_ne hknown
  unfold World.sendAuctionWonMail
  simp only [hitem, hb, hacc, ne_eq, not_false_eq_true, decide_true, Bool.or_true, if_true]

theorem World.sendAuctionExpiredMail_eq (hitem : (w.mAitems a.itemGUIDLow).isSome = true)
    (hknown : w.Known a.owner) :
    w.sendAuctionExpiredMail id a = w.sendMailTo (a.expiredMail id) := by
  obtain ⟨item, hitem⟩ := Option.isSome_iff_exists.1 hitem
  unfold World.sendAuctionExpiredMail
  simp only [hitem, World.ownerExists_of_known hknown, if_true]

theorem World.sendAuctionSuccessfulMail_eq (hknown : w.Known a.owner) :
    w.sendAuctionSuccessfulMail c id a = w.sendMailTo (a.successfulMail c id) := by
  unfold World.sendAuctionSuccessfulMail
  rw [if_pos (World.ownerExists_of_known hknown)]

theorem World.sendAuctionSalePendingMail_eq (hknown : w.Known a.owner) :
    w.sendAuctionSalePendingMail c id a = w.sendMailTo (a.salePendingMail c id) := by
  unfold World.sendAuctionSalePendingMail
  rw [if_pos (World.ownerExists_of_known hknown)]

end Parts

/-! ## The five ways -/

/-- What an open auction keeps. -/
structure Listed (w : World) (k : House × Nat) (a : AuctionEntry) : Prop where
  id_lt : k.2 < w.auctionId
  owner : w.Known a.owner
  bidder : ∀ b, a.bidder = some b → w.Known b
  noBid : a.bidder = none → a.bid = 0
  bid_le : a.bid ≤ maxMoneyAmount
  deposit_le : a.deposit ≤ maxMoneyAmount
  buyout : a.buyout ≠ 0 → a.bid < a.buyout
  item : (w.mAitems a.itemGUIDLow).isSome = true

def sellChange (w : World) (house : House) (a : AuctionEntry) : Change where
  payer := a.owner
  paid := a.deposit
  key := (house, w.auctionId)
  item := a.itemGUIDLow
  old := none
  new := some a
  mails := []

/-- The amount that is bid: the price, or the buyout when the price reaches it. -/
def AuctionEntry.amount (a : AuctionEntry) (price : Nat) : Nat :=
  if a.reachesBuyout price then a.buyout else price

/-- The auction with a new bid. -/
def AuctionEntry.withBid (a : AuctionEntry) (guid : Guid) (amount : Nat) : AuctionEntry :=
  { a with bidder := some guid, bid := amount }

/-- A bidder pays the amount, and only what he adds when the bid is his own. -/
def AuctionEntry.toPay (a : AuctionEntry) (guid : Guid) (amount : Nat) : Nat :=
  if a.bidder = some guid then amount - a.bid else amount

/-- The mail to the bidder who was outbid by another. -/
def outbidBy (c : Config) (id : Nat) (a : AuctionEntry) (guid : Guid) : List AuctionMail :=
  if a.bidder = some guid then [] else outbid c id a

def bidChange (c : Config) (k : House × Nat) (a : AuctionEntry) (guid : Guid) (price : Nat) :
    Change where
  payer := guid
  paid := a.toPay guid price
  key := k
  item := a.itemGUIDLow
  old := some a
  new := some (a.withBid guid price)
  mails := outbidBy c k.2 a guid

/-- The mails of an auction that was sold. -/
def soldMails (c : Config) (id : Nat) (a : AuctionEntry) (guid : Guid) : List AuctionMail :=
  [a.wonMail id guid, a.successfulMail c id]

def buyChange (c : Config) (k : House × Nat) (a : AuctionEntry) (guid : Guid) : Change where
  payer := guid
  paid := a.toPay guid a.buyout
  key := k
  item := a.itemGUIDLow
  old := some a
  new := none
  mails := soldMails c k.2 (a.withBid guid a.buyout) guid ++
    (a.withBid guid a.buyout).salePendingMail c k.2 :: outbidBy c k.2 a guid

def cancelChange (c : Config) (k : House × Nat) (a : AuctionEntry) : Change where
  payer := a.owner
  paid := if a.bidder.isSome then a.getAuctionCut c else 0
  key := k
  item := a.itemGUIDLow
  old := some a
  new := none
  mails := a.canceledMail k.2 :: cancelled k.2 a

def settleChange (c : Config) (k : House × Nat) (a : AuctionEntry) : Change where
  payer := a.owner
  paid := 0
  key := k
  item := a.itemGUIDLow
  old := some a
  new := none
  mails := a.bidder.elim [a.expiredMail k.2] (soldMails c k.2 a)

section Ways

variable {c : Config} {w : World} {k : House × Nat} {a : AuctionEntry} {guid : Guid}

/-- What is in an auction that may be opened. -/
structure Offered (w : World) (r : World.SellRequest) (a : AuctionEntry) : Prop where
  owner : a.owner = r.player
  known : w.Known r.player
  item : a.itemGUIDLow = r.itemGUID
  carried : (w.inventory r.itemGUID).isSome = true
  notHeld : w.mAitems r.itemGUID = none
  startbid : a.startbid = r.bid
  buyout : a.buyout = r.buyout
  bid : a.bid = 0
  bidder : a.bidder = none
  deposit : ∃ ch, w.characters.lookup r.player = some ch ∧ a.deposit ≤ ch.purse.money

theorem checkSell_ok {r : World.SellRequest} {house : House}
    (hok : w.checkSell c r = .ok (house, a)) : Offered w r a := by
  simp only [World.checkSell, found_bind_ok, require_bind_ok] at hok
  obtain ⟨pl, hpl, -, faction, -, entry, -, -, -, hheld, item, hitem, -, -, hdeposit, hok⟩ := hok
  cases hok
  have hch := World.known_of_findPlayer hpl
  obtain ⟨carried, hcarried, -⟩ := Option.map_eq_some_iff.1 hitem
  refine ⟨rfl, World.known_of_lookup hch, rfl, ?_, Option.isNone_iff_eq_none.1 hheld, rfl, rfl, rfl,
    rfl, pl, hch, hdeposit⟩
  rw [(Option.filter_eq_some_iff.1 hcarried).1]
  rfl

theorem openAuction_changed {r : World.SellRequest} {house : House} (h : Offered w r a)
    (hfree : w.auctions.lookup (house, w.auctionId) = none) :
    Changed w (w.openAuction house a) (sellChange w house a) := by
  obtain ⟨ch, hch, hle⟩ := h.deposit
  rw [← h.owner] at hch
  have hp : Paying w (w.modifyMoney a.owner (-(int32 a.deposit))) a.owner a.deposit :=
    World.modifyMoney_pay hch hle
  unfold World.openAuction
  rw [hp.rest]
  refine ⟨⟨hp.pays.known, hp.pays.self, hp.pays.others, hp.pays.purses⟩, rfl, hfree, rfl, rfl, rfl,
    fun i => ?_, fun i => ?_⟩
  · show (Function.update w.mAitems a.itemGUIDLow _ i).isSome = _
    unfold Function.update
    split <;> rename_i hi
    · subst hi
      rw [Option.isSome_map, h.item, h.carried]
      exact (if_pos h.item.symm).symm
    · exact (if_neg hi).symm
  · show Function.update w.inventory a.itemGUIDLow none i = _
    unfold Function.update
    by_cases hi : i = a.itemGUIDLow
    · rw [dif_pos hi, if_pos ⟨hi, rfl⟩]
      cases hi
      rfl
    · rw [dif_neg hi, if_neg fun hboth => hi hboth.1]

/-- A player in the world who can pay bids on the auction of another. -/
structure Bidding (w : World) (k : House × Nat) (a : AuctionEntry) (guid : Guid) (price : Nat) :
    Prop where
  lookup : w.auctions.lookup k = some a
  notOwner : a.owner ≠ guid
  higher : a.bid < price
  enough : a.reachesBuyout price = true ∨ uint32 (a.bid + a.getAuctionOutBid) ≤ price
  purse : ∃ ch, w.characters.lookup guid = some ch ∧ price ≤ ch.purse.money

theorem checkBid_ok {r : World.BidRequest} (hok : w.checkBid c r = .ok (k, a)) :
    Bidding w k a r.player r.price ∧ k.2 = r.auctionId := by
  simp only [World.checkBid, found_bind_ok, require_bind_ok] at hok
  obtain ⟨pl, hpl, -, faction, -, b, hb, hne, -, -, hhigher, henough, hle, hok⟩ := hok
  cases hok
  exact ⟨⟨hb, hne, hhigher, henough, pl, World.known_of_findPlayer hpl, hle⟩, rfl⟩

/-- The payment of an amount that the purse holds and that passes the current bid. -/
theorem pay_amount {ch : Character} {amount : Nat} (hch : w.characters.lookup guid = some ch)
    (hle : amount ≤ ch.purse.money) (hbid : a.bid ≤ amount) (hb : a.bidder = some guid) :
    Paying w (w.modifyMoney guid (-(int32 (uint32 (amount - a.bid))))) guid (a.toPay guid amount) := by
  have hmax := ch.purse.money_le
  unfold maxMoneyAmount at hmax
  have hdiff : uint32 (amount - a.bid) = amount - a.bid := by
    rw [uint32_of_lt] <;> omega
  unfold AuctionEntry.toPay
  rw [hdiff, if_pos hb]
  exact World.modifyMoney_pay hch (by omega)

theorem bidOn_changed {price : Nat} (hlisted : Listed w k a) (h : Bidding w k a guid price) :
    Changed w (w.bidOn c k a guid price) (bidChange c k a guid price) := by
  obtain ⟨ch, hch, hle⟩ := h.purse
  have hmAitems : ∀ i, (w.mAitems i).isSome =
      if i = a.itemGUIDLow then true else (w.mAitems i).isSome := by
    intro i
    split <;> rename_i hi
    · rw [hi, hlisted.item]
    · rfl
  have hinventory : ∀ i, w.inventory i =
      if i = a.itemGUIDLow ∧ some a = none then none else w.inventory i := fun i =>
    (if_neg fun hboth => by cases hboth.2).symm
  unfold World.bidOn
  split <;> rename_i hb
  · have hp := pay_amount hch hle h.higher.le hb
    rw [hp.rest]
    refine ⟨⟨hp.pays.known, hp.pays.self, hp.pays.others, hp.pays.purses⟩, rfl, h.lookup, rfl, ?_,
      rfl, hmAitems, hinventory⟩
    show _ = outbidBy c k.2 a guid ++ w.mails
    unfold outbidBy
    rw [if_pos hb]
    rfl
  · rw [World.sendAuctionOutbiddedMail_eq hlisted.bidder]
    have hp : Paying { w with mails := outbid c k.2 a ++ w.mails } _ guid price :=
      World.modifyMoney_pay hch hle
    have hpaid : a.toPay guid price = price := if_neg hb
    have hmails : outbidBy c k.2 a guid = outbid c k.2 a := if_neg hb
    rw [hp.rest]
    refine ⟨?_, rfl, h.lookup, rfl, ?_, rfl, hmAitems, hinventory⟩
    · show Pays _ _ guid (a.toPay guid price)
      rw [hpaid]
      exact ⟨hp.pays.known, hp.pays.self, hp.pays.others, hp.pays.purses⟩
    · show _ = outbidBy c k.2 a guid ++ w.mails
      rw [hmails]

/-- The auction is closed after a payment and some mails. -/
theorem close_changed {w₁ : World} {payer : Guid} {paid : Nat} {mails : List AuctionMail}
    (hlookup : w.auctions.lookup k = some a) (hpays : Pays w w₁ payer paid)
    (hrest : w₁ = { w with characters := w₁.characters, mails := mails ++ w.mails }) :
    Changed w (w₁.closeAuction k a) ⟨payer, paid, k, a.itemGUIDLow, some a, none, mails⟩ := by
  rw [hrest]
  refine ⟨⟨hpays.known, hpays.self, hpays.others, hpays.purses⟩, rfl, hlookup, rfl, rfl, rfl,
    fun i => ?_, fun i => (if_neg fun hboth => by cases hboth.2).symm⟩
  show (Function.update w.mAitems a.itemGUIDLow none i).isSome =
    if i = a.itemGUIDLow then false else (w.mAitems i).isSome
  rw [Function.update_apply]
  split <;> rfl

/-- The two mails of a sale. -/
theorem sold_eq (id : Nat) (hitem : (w.mAitems a.itemGUIDLow).isSome = true)
    (howner : w.Known a.owner) (hb : a.bidder = some guid) (hknown : w.Known guid) :
    (w.sendAuctionSuccessfulMail c id a).sendAuctionWonMail id a =
      { w with mails := soldMails c id a guid ++ w.mails } := by
  rw [World.sendAuctionSuccessfulMail_eq howner]
  exact World.sendAuctionWonMail_eq hitem hb hknown

theorem buyOut_changed {price : Nat} (hlisted : Listed w k a) (h : Bidding w k a guid price)
    (hreaches : a.reachesBuyout price = true) :
    Changed w (w.buyOut c k a guid) (buyChange c k a guid) := by
  obtain ⟨ch, hch, hle⟩ := h.purse
  simp only [AuctionEntry.reachesBuyout, Bool.not_eq_eq_eq_not, Bool.not_true, Bool.or_eq_false_iff,
    decide_eq_false_iff_not] at hreaches
  have hbid := hlisted.buyout hreaches.2
  have hbuyout : a.buyout ≤ ch.purse.money := by omega
  -- the payment and the mail to the one who is outbid
  obtain ⟨w₁, hw₁, hpays, hrest⟩ : ∃ w₁, w₁ =
      (if a.bidder = some guid then w.modifyMoney guid (-(int32 (uint32 (a.buyout - a.bid))))
      else (w.modifyMoney guid (-(int32 a.buyout))).sendAuctionOutbiddedMail c k.2 a) ∧
      Pays w w₁ guid (a.toPay guid a.buyout) ∧
      w₁ = { w with characters := w₁.characters, mails := outbidBy c k.2 a guid ++ w.mails } := by
    refine ⟨_, rfl, ?_⟩
    unfold outbidBy
    split <;> rename_i hb
    · have hp := pay_amount hch hbuyout hbid.le hb
      exact ⟨hp.pays, hp.rest⟩
    · have hp : Paying w _ guid a.buyout := World.modifyMoney_pay hch hbuyout
      have hpaid : a.toPay guid a.buyout = a.buyout := if_neg hb
      rw [World.sendAuctionOutbiddedMail_eq fun b hb => (hp.pays.known b).2 (hlisted.bidder b hb),
        hp.rest, hpaid]
      exact ⟨⟨hp.pays.known, hp.pays.self, hp.pays.others, hp.pays.purses⟩, rfl⟩
  have hknown : ∀ g, w.Known g → w₁.Known g := fun g => (hpays.known g).2
  have hitem : (w₁.mAitems a.itemGUIDLow).isSome = true := by
    rw [hrest]
    exact hlisted.item
  have hmails : w.buyOut c k a guid =
      (((w₁.sendAuctionSalePendingMail c k.2 (a.withBid guid a.buyout)).sendAuctionSuccessfulMail c
        k.2 (a.withBid guid a.buyout)).sendAuctionWonMail k.2 (a.withBid guid a.buyout)).closeAuction
          k (a.withBid guid a.buyout) := by
    rw [hw₁]
    rfl
  have howner : w₁.Known (a.withBid guid a.buyout).owner := hknown _ hlisted.owner
  rw [hmails, World.sendAuctionSalePendingMail_eq howner]
  have hsold := sold_eq (c := c) (a := a.withBid guid a.buyout)
    (w := w₁.sendMailTo ((a.withBid guid a.buyout).salePendingMail c k.2)) k.2 hitem howner rfl
    (hknown _ (World.known_of_lookup hch))
  rw [hsold, hrest]
  exact close_changed h.lookup ⟨hpays.known, hpays.self, hpays.others, hpays.purses⟩ rfl

/-- A player in the world cancels his auction, and can pay the cut. -/
structure Removing (c : Config) (w : World) (k : House × Nat) (a : AuctionEntry) (guid : Guid) :
    Prop where
  lookup : w.auctions.lookup k = some a
  owner : a.owner = guid
  purse : ∃ ch, w.characters.lookup guid = some ch ∧
    (a.bidder.isSome = true → a.getAuctionCut c ≤ ch.purse.money)

theorem checkRemove_ok {r : World.RemoveRequest} (hok : w.checkRemove c r = .ok (k, a)) :
    Removing c w k a r.player ∧ k.2 = r.auctionId := by
  simp only [World.checkRemove, found_bind_ok, require_bind_ok] at hok
  obtain ⟨pl, hpl, faction, -, b, hb, howner, -, hcut, hok⟩ := hok
  cases hok
  refine ⟨⟨hb, howner, pl, World.known_of_findPlayer hpl, fun hsome => ?_⟩, rfl⟩
  refine hcut.resolve_left fun hnone => ?_
  rw [hnone] at hsome
  cases hsome

theorem cancelAuction_changed (hlisted : Listed w k a) (h : Removing c w k a guid) :
    Changed w (w.cancelAuction c k a) (cancelChange c k a) := by
  obtain ⟨ch, hch, hcut⟩ := h.purse
  rw [← h.owner] at hch
  unfold World.cancelAuction cancelChange
  split <;> rename_i hb
  · rw [World.sendAuctionCancelledToBidderMail_eq hlisted.bidder]
    have hp : Paying { w with mails := cancelled k.2 a ++ w.mails } _ a.owner (a.getAuctionCut c) :=
      World.modifyMoney_pay hch (hcut hb)
    refine close_changed h.lookup ⟨hp.pays.known, hp.pays.self, hp.pays.others, hp.pays.purses⟩ ?_
    rw [hp.rest]
    rfl
  · have hnone : cancelled k.2 a = [] := by
      unfold cancelled
      rw [Option.not_isSome_iff_eq_none.1 hb]
      rfl
    rw [hnone]
    refine close_changed h.lookup (Pays.of_characters ?_ a.owner) rfl
    rfl

theorem settle_changed (hlisted : Listed w k a) (hlookup : w.auctions.lookup k = some a) :
    Changed w (w.settle c k a) (settleChange c k a) := by
  have howner := hlisted.owner
  unfold World.settle settleChange
  cases hb : a.bidder with
  | none =>
      simp only []
      rw [World.sendAuctionExpiredMail_eq hlisted.item howner]
      refine close_changed hlookup (Pays.of_characters ?_ a.owner) rfl
      rfl
  | some bidder =>
      simp only []
      rw [sold_eq k.2 hlisted.item howner hb (hlisted.bidder bidder hb)]
      refine close_changed hlookup (Pays.of_characters ?_ a.owner) rfl
      rfl

end Ways

end Sunstrider.Auctions
