import Sunstrider.Proofs.AuctionRuns

/-!
# Where the gold and the items go

The gold of purses, mails and held bids changes by deposits and cuts alone, as long
as the seller's share of a sale is not negative. That share is computed in 32 bits
without a sign: a rate of the cut that asks for more than the bid and the deposit
makes it wrap, and the mail to the seller brings gold that nobody had. A run keeps
the balance exactly if none of its sales does that. Refunds and items do not depend
on it.

The loops over the houses are followed by what is still to come: the sum over the
auctions that are over and not settled yet. Settling one moves its part into the
gold, and after the loops nothing is left.
-/

namespace Sunstrider.Auctions

open Lib Inventory

/-! ## What is claimed -/

/-- The gold in purses and mails, and what open auctions hold. -/
def World.gold (w : World) : Int := w.purses + w.tally (fun _ a => a.bid) fun m => m.money

/-- The deposit that a sale returns, less the cut. -/
def saleFlow (c : Config) (a : AuctionEntry) : Int := a.deposit - a.getAuctionCut c

/-- The same for an auction that is over, if it has a bidder. -/
def overFlow (c : Config) (ended : AuctionEntry → Bool) (a : AuctionEntry) : Int :=
  if ended a && a.bidder.isSome then saleFlow c a else 0

/-- The auctions that `Update` finds over. -/
def World.expired (w : World) (a : AuctionEntry) : Bool := w.gameTime > a.expireTime

/-- The deposits returned less those taken and the cuts, and gold from elsewhere. -/
def flow (c : Config) (w : World) : Op → Int
  | .sell r =>
      match w.checkSell c r with
      | .ok (_, a) => -a.deposit
      | .error _ => 0
  | .bid r =>
      match w.checkBid c r with
      | .ok (_, a) =>
          if a.reachesBuyout r.price then saleFlow c (a.withBid r.player a.buyout) else 0
      | .error _ => 0
  | .cancel r =>
      match w.checkRemove c r with
      | .ok (_, a) => if a.bidder.isSome then -a.getAuctionCut c else 0
      | .error _ => 0
  | .update => Ledger.weigh w.auctions fun _ a => overFlow c w.expired a
  | .removeAllAuctionsOf owner =>
      Ledger.weigh w.auctions fun _ a => overFlow c (fun a => a.owner = owner) a
  | .modifyMoney guid amount => (w.modifyMoney guid amount).purses - w.purses
  | _ => 0

/-- The bidder loses his place by the step: another bids, or the seller cancels. -/
def displaces (guid : Guid) : Op → Prop
  | .bid r => r.player ≠ guid
  | .cancel _ => True
  | _ => False

/-- To whom the item goes when the step closes the auction, and in which mail. -/
def deliveredTo (a : AuctionEntry) : Op → Guid × MailAuctionAnswers
  | .bid r => (r.player, .won)
  | .cancel _ => (a.owner, .canceled)
  | _ => a.bidder.elim (a.owner, .expired) fun bidder => (bidder, .won)

/-- Refunds and items of one step: the bid of a displaced bidder is mailed to him, the item of a
closed auction is in one of the mails, and items leave their slots for good. -/
structure Served (c : Config) (w : World) (op : Op) : Prop where
  refund : ∀ k a guid, w.auctions.lookup k = some a → a.bidder = some guid →
    (step c w op).auctions.lookup k ≠ some a → displaces guid op →
    (step c w op).refunded k.2 guid = w.refunded k.2 guid + a.bid
  delivered : ∀ k a, w.auctions.lookup k = some a → (step c w op).auctions.lookup k = none →
    ∃ m ∈ (step c w op).mails, m.item = some a.itemGUIDLow ∧ m.subject.auctionId = k.2 ∧
      (m.receiver, m.subject.response) = deliveredTo a op
  sold : ∀ r house a, op = .sell r → w.checkSell c r = .ok (house, a) →
    (step c w op).inventory r.itemGUID = none
  gone : ∀ i, w.inventory i = none → (step c w op).inventory i = none

structure ConservedStep (c : Config) (w : World) (op : Op) : Prop where
  gold : (step c w op).gold = w.gold + flow c w op
  served : Served c w op

def ConservedSteps (c : Config) (w : World) : List Op → Prop
  | [] => True
  | op :: ops => ConservedStep c w op ∧ ConservedSteps c (step c w op) ops

/-- How often an item is in an open auction or in a mail. -/
def World.holdings (w : World) (i : ItemGuid) : Nat :=
  Ledger.count w.auctions (fun _ a => a.itemGUIDLow = i) + w.mails.countP fun m => m.item = some i

/-- Every step is balanced, and in the end everybody but the high bidders and the winners got
back what he paid, and an item that is not carried any more is in one place. -/
structure Conserved (c : Config) (w : World) (ops : List Op) : Prop where
  steps : ConservedSteps c w ops
  bidders : ∀ k a guid, (run c w ops).auctions.lookup k = some a →
    charged c k.2 guid w ops =
      (run c w ops).refunded k.2 guid + if a.bidder = some guid then (a.bid : Int) else 0
  others : ∀ id guid, (∀ house, (house, id) ∉ (run c w ops).auctions) →
    (∀ m ∈ (run c w ops).mails, m.isFor id guid = true → m.isWon = false) →
    charged c id guid w ops = (run c w ops).refunded id guid
  items : ∀ i, (w.inventory i).isSome = true →
    ((run c w ops).inventory i).isSome.toNat + (run c w ops).holdings i = 1

/-! ## The condition -/

/-- The bid and the deposit cover the cut. -/
def covered (c : Config) (a : AuctionEntry) : Bool := a.getAuctionCut c ≤ a.bid + a.deposit

/-- All sales among the auctions that are over are covered. -/
def allCovered (c : Config) (ended : AuctionEntry → Bool) (w : World) : Bool :=
  w.auctions.entries.all fun e => !(ended e.2 && e.2.bidder.isSome) || covered c e.2

def coveredOp (c : Config) (w : World) : Op → Bool
  | .bid r =>
      match w.checkBid c r with
      | .error _ => true
      | .ok (_, a) => !a.reachesBuyout r.price || covered c (a.withBid r.player a.buyout)
  | .update => allCovered c w.expired w
  | .removeAllAuctionsOf owner => allCovered c (fun a => a.owner = owner) w
  | _ => true

def coveredRun (c : Config) (w : World) : List Op → Bool
  | [] => true
  | op :: ops => coveredOp c w op && coveredRun c (step c w op) ops

/-! ## The share of the seller -/

/-- What the mail to the seller brings beyond his share. -/
def excess (c : Config) (a : AuctionEntry) : Int :=
  a.profit c - (a.bid + a.deposit - a.getAuctionCut c)

section Excess

variable {c : Config} {a : AuctionEntry}

theorem excess_nonneg (hbid : a.bid ≤ maxMoneyAmount) (hdeposit : a.deposit ≤ maxMoneyAmount) :
    0 ≤ excess c a := by
  unfold excess AuctionEntry.profit uint32
  unfold maxMoneyAmount at hbid hdeposit
  omega

/-- It is nothing exactly if the cut is covered. -/
theorem excess_eq_zero (hbid : a.bid ≤ maxMoneyAmount) (hdeposit : a.deposit ≤ maxMoneyAmount) :
    excess c a = 0 ↔ covered c a = true := by
  unfold excess AuctionEntry.profit uint32 covered
  unfold maxMoneyAmount at hbid hdeposit
  rw [decide_eq_true_eq]
  omega

end Excess

/-! ## Gold over a change -/

/-- The gold that a change makes. -/
def Change.gold (x : Change) : Int :=
  x.new.elim 0 (fun a => (a.bid : Int)) - x.old.elim 0 (fun a => (a.bid : Int)) +
    (x.mails.map fun m => (m.money : Int)).sum - x.paid

section Gold

variable {c : Config} {w w' : World} {x : Change} {k : House × Nat} {a : AuctionEntry}
  {guid : Guid}

theorem Changed.gold (h : Changed w w' x) : w'.gold = w.gold + x.gold := by
  unfold World.gold
  rw [h.pays.purses, h.tally]
  unfold Change.gold
  omega

theorem sellChange_gold {house : House} (hbid : a.bid = 0) :
    (sellChange w house a).gold = -a.deposit := by
  simp [Change.gold, sellChange, hbid]

/-- The bid that another loses comes back to him, and his own stays in. -/
theorem outbidBy_gold (c : Config) (hl : Listed w k a) (guid : Guid) {amount : Nat}
    (hle : a.bid ≤ amount) :
    (amount : Int) - a.bid + ((outbidBy c k.2 a guid).map fun m => (m.money : Int)).sum =
      a.toPay guid amount := by
  unfold outbidBy outbid AuctionEntry.toPay
  split <;> rename_i hself
  · simp only [List.map_nil, List.sum_nil]
    omega
  · cases hb : a.bidder with
    | none =>
        have hzero := hl.noBid hb
        simp only [Option.elim_none, List.map_nil, List.sum_nil]
        omega
    | some b =>
        simp only [Option.elim_some, List.map_cons, List.map_nil, List.sum_cons, List.sum_nil,
          AuctionEntry.outbiddedMail, AuctionEntry.mail]
        omega

theorem bidChange_gold {price : Nat} (hl : Listed w k a) (hle : a.bid ≤ price) :
    (bidChange c k a guid price).gold = 0 := by
  have hpaid := outbidBy_gold c hl guid hle
  show (price : Int) - a.bid + ((outbidBy c k.2 a guid).map fun m => (m.money : Int)).sum -
    (a.toPay guid price : Int) = 0
  omega

theorem sold_gold (c : Config) (id : Nat) (a : AuctionEntry) (guid : Guid) :
    ((soldMails c id a guid).map fun m => (m.money : Int)).sum =
      a.bid + saleFlow c a + excess c a := by
  have hsum : ((soldMails c id a guid).map fun m => (m.money : Int)).sum = a.profit c := by
    simp [soldMails, AuctionEntry.wonMail, AuctionEntry.successfulMail, AuctionEntry.mail]
  rw [hsum]
  unfold saleFlow excess
  omega

theorem buyChange_gold (hl : Listed w k a) (hle : a.bid ≤ a.buyout) :
    (buyChange c k a guid).gold =
      saleFlow c (a.withBid guid a.buyout) + excess c (a.withBid guid a.buyout) := by
  have hpaid := outbidBy_gold c hl guid hle
  have hsold := sold_gold c k.2 (a.withBid guid a.buyout) guid
  show (0 : Int) - a.bid + ((soldMails c k.2 (a.withBid guid a.buyout) guid ++
    (a.withBid guid a.buyout).salePendingMail c k.2 :: outbidBy c k.2 a guid).map
      fun m => (m.money : Int)).sum - (a.toPay guid a.buyout : Int) = _
  rw [List.map_append, List.sum_append, List.map_cons, List.sum_cons, hsold]
  show (0 : Int) - a.bid + ((a.buyout : Int) + _ + _ + ((0 : Nat) + _)) - _ = _
  omega

theorem cancelChange_gold (hl : Listed w k a) :
    (cancelChange c k a).gold = if a.bidder.isSome then -(a.getAuctionCut c : Int) else 0 := by
  show (0 : Int) - a.bid + ((a.canceledMail k.2 :: cancelled k.2 a).map
    fun m => (m.money : Int)).sum - ((if a.bidder.isSome then a.getAuctionCut c else 0 : Nat) : Int) = _
  unfold cancelled
  cases hb : a.bidder with
  | none => simp [hl.noBid hb, AuctionEntry.canceledMail, AuctionEntry.mail]
  | some b =>
      simp [AuctionEntry.canceledMail, AuctionEntry.cancelledToBidderMail, AuctionEntry.mail]

/-- What settling an auction that is over adds to the gold. -/
def settleGold (c : Config) (a : AuctionEntry) : Int :=
  if a.bidder.isSome then saleFlow c a + excess c a else 0

theorem settleChange_gold (hl : Listed w k a) : (settleChange c k a).gold = settleGold c a := by
  show (0 : Int) - a.bid + ((a.bidder.elim [a.expiredMail k.2] (soldMails c k.2 a)).map
    fun m => (m.money : Int)).sum - ((0 : Nat) : Int) = _
  unfold settleGold
  cases hb : a.bidder with
  | none => simp [hl.noBid hb, AuctionEntry.expiredMail, AuctionEntry.mail]
  | some b =>
      rw [Option.elim_some, sold_gold]
      simp only [Option.isSome_some, if_true]
      omega

end Gold

/-! ## The loops over the houses -/

section Sweeps

variable {c : Config} {w : World} (ended : AuctionEntry → Bool)

theorem settle_auctions (k : House × Nat) (a : AuctionEntry) :
    (w.settle c k a).auctions = w.auctions.erase k := by
  have hwon : ∀ w : World, (w.sendAuctionWonMail k.2 a).auctions = w.auctions := by
    intro w
    unfold World.sendAuctionWonMail
    split
    · split <;> rfl
    · rfl
  have hsuccessful : (w.sendAuctionSuccessfulMail c k.2 a).auctions = w.auctions := by
    unfold World.sendAuctionSuccessfulMail
    split <;> rfl
  have hexpired : (w.sendAuctionExpiredMail k.2 a).auctions = w.auctions := by
    unfold World.sendAuctionExpiredMail
    split
    · rfl
    · split <;> rfl
  unfold World.settle World.closeAuction
  cases a.bidder with
  | none => exact congrArg (fun auctions => auctions.erase k) hexpired
  | some bidder => exact congrArg (fun auctions => auctions.erase k) ((hwon _).trans hsuccessful)

/-- A round leaves the other auctions alone, and no auction that is over at its own id. -/
theorem sweepOne_spec (house : House) (id : Nat) :
    (∀ k a, (World.sweepOne c ended house w id).auctions.lookup k = some a →
      w.auctions.lookup k = some a) ∧
    ∀ a, (World.sweepOne c ended house w id).auctions.lookup (house, id) = some a →
      ended a = false := by
  unfold World.sweepOne
  cases ha : w.auctions.lookup (house, id) with
  | none =>
      refine ⟨fun k a hk => hk, fun a hself => ?_⟩
      have hnone := ha.symm.trans hself
      cases hnone
  | some a =>
      simp only []
      split <;> rename_i hended
      · rw [settle_auctions]
        refine ⟨fun k b hk => ?_, fun b hself => ?_⟩
        · by_cases hne : k = (house, id)
          · rw [hne, AList.lookup_erase] at hk
            cases hk
          · rwa [AList.lookup_erase_ne hne] at hk
        · rw [AList.lookup_erase] at hself
          cases hself
      · refine ⟨fun k b hk => hk, fun b hself => ?_⟩
        obtain rfl := Option.some.inj (ha.symm.trans hself)
        exact Bool.eq_false_iff.2 hended

theorem sweepIds_spec (house : House) (ids : List Nat) : ∀ w : World,
    (∀ k a, (ids.foldl (World.sweepOne c ended house) w).auctions.lookup k = some a →
      w.auctions.lookup k = some a) ∧
    ∀ id ∈ ids, ∀ a, (ids.foldl (World.sweepOne c ended house) w).auctions.lookup (house, id) =
      some a → ended a = false := by
  induction ids with
  | nil => exact fun w => ⟨fun k a hk => hk, fun id hid => by cases hid⟩
  | cons id ids ih =>
      intro w
      obtain ⟨hone, hself⟩ := sweepOne_spec (c := c) (w := w) ended house id
      obtain ⟨hrest, hdone⟩ := ih (World.sweepOne c ended house w id)
      refine ⟨fun k a hk => hone k a (hrest k a hk), fun id' hid a ha => ?_⟩
      rcases List.mem_cons.1 hid with rfl | hid
      · exact hself a (hrest _ a ha)
      · exact hdone id' hid a ha

theorem mem_auctionIds {house : House} {id : Nat} {a : AuctionEntry}
    (ha : w.auctions.lookup (house, id) = some a) : id ∈ w.auctionIds house := by
  unfold World.auctionIds
  refine (List.mem_insertionSort _).2 (List.mem_map.2 ⟨(house, id), List.mem_filter.2 ⟨?_, ?_⟩, rfl⟩)
  · exact AList.lookup_isSome.1 (Option.isSome_of_eq_some ha)
  · exact decide_eq_true rfl

theorem sweeps_done (hs : List House) : ∀ w : World,
    (∀ k a, (hs.foldl (World.sweep c ended) w).auctions.lookup k = some a →
      w.auctions.lookup k = some a) ∧
    ∀ house ∈ hs, ∀ id a, (hs.foldl (World.sweep c ended) w).auctions.lookup (house, id) = some a →
      ended a = false := by
  induction hs with
  | nil => exact fun w => ⟨fun k a hk => hk, fun house hin => by cases hin⟩
  | cons house hs ih =>
      intro w
      obtain ⟨hone, hself⟩ := sweepIds_spec (c := c) ended house (w.auctionIds house) w
      obtain ⟨hrest, hdone⟩ := ih (World.sweep c ended w house)
      refine ⟨fun k a hk => hone k a (hrest k a hk), fun house' hin id a ha => ?_⟩
      rcases List.mem_cons.1 hin with rfl | hin
      · have hleft := hrest _ a ha
        exact hself id (mem_auctionIds (hone _ a hleft)) a hleft
      · exact hdone house' hin id a ha

/-- What is still to come of the auctions that are over. -/
def pending (c : Config) (ended : AuctionEntry → Bool) (w : World) : Int :=
  Ledger.weigh w.auctions fun _ a => if ended a then settleGold c a else 0

theorem mem_houses (house : House) : house ∈ World.houses := by
  cases house <;> decide

/-- The loops bring in what the auctions that are over were to bring. -/
theorem sweeps_gold (h : Sound w) :
    (World.houses.foldl (World.sweep c ended) w).gold = w.gold + pending c ended w := by
  have hrule := sweeps_rule (c := c)
    (fun w' => Sound w' ∧ w'.gold + pending c ended w' = w.gold + pending c ended w) ended ?_
    World.houses w ⟨h, rfl⟩
  · have hnone : pending c ended (World.houses.foldl (World.sweep c ended) w) = 0 := by
      refine Ledger.weigh_eq_zero fun k a ha => ?_
      have hdone := (sweeps_done (c := c) ended World.houses w).2 k.1 (mem_houses k.1) k.2 a ha
      rw [hdone]
      rfl
    have htotal := hrule.2
    omega
  · rintro w' k a ⟨h', htotal⟩ ha hended
    have hl := h'.listed k a ha
    have hc := settle_changed (c := c) hl ha
    refine ⟨h'.change hc settleChange_proper, ?_⟩
    have hgold := hc.gold
    have herase := Ledger.weigh_erase ha fun _ a => if ended a then settleGold c a else 0
    rw [settleChange_gold hl] at hgold
    simp only [hended, if_true] at herase
    unfold pending at htotal ⊢
    rw [settle_auctions]
    omega

end Sweeps

/-! ## Refunds and items -/

/-- How many of the mails hold the item. -/
def mailsWith (i : ItemGuid) (mails : List AuctionMail) : Nat :=
  mails.countP fun m => m.item = some i

/-- The places of an item: a slot, open auctions and mails. -/
def World.places (w : World) (i : ItemGuid) : Nat := (w.inventory i).isSome.toNat + w.holdings i

/-- The item leaves its slot when the auction is opened, and is mailed when it is closed. -/
structure Change.Carries (w : World) (x : Change) : Prop where
  mails : ∀ i, mailsWith i x.mails = if i = x.item ∧ x.new = none then 1 else 0
  carried : x.old = none → (w.inventory x.item).isSome = true ∧ x.new.isSome = true

section Items

variable {c : Config} {w w' : World} {x : Change} {k : House × Nat} {a : AuctionEntry}
  {guid : Guid}

theorem holdings_eq (w : World) (i : ItemGuid) :
    (w.holdings i : Int) = w.tally (fun _ a => if a.itemGUIDLow = i then 1 else 0)
      fun m => if m.item = some i then 1 else 0 := by
  have hauctions := Ledger.weigh_ite_eq_count w.auctions fun _ a => a.itemGUIDLow = i
  have hmails := Ledger.sum_ite_eq_countP (fun m : AuctionMail => m.item = some i) w.mails
  unfold World.holdings World.tally
  rw [hauctions, hmails]
  rfl

theorem Changed.places (hc : Changed w w' x) (hp : x.Proper w) (h : x.Carries w) (i : ItemGuid) :
    w'.places i = w.places i := by
  have hmails := h.mails i
  have htally := hc.tally (fun _ a => if a.itemGUIDLow = i then 1 else 0)
    fun m => if m.item = some i then 1 else 0
  rw [← holdings_eq, ← holdings_eq, Ledger.sum_ite_eq_countP] at htally
  unfold mailsWith at hmails
  rw [hmails] at htally
  have hitem : ∀ a, x.old = some a ∨ x.new = some a →
      ((if a.itemGUIDLow = i then 1 else 0 : Int) = if i = x.item then 1 else 0) := by
    intro a ha
    rw [hp.item a ha]
    simp only [eq_comm]
  have hinventory := hc.inventory i
  unfold World.places
  cases hold : x.old with
  | none =>
      obtain ⟨hcarried, hnew⟩ := h.carried hold
      obtain ⟨b, hb⟩ := Option.isSome_iff_exists.1 hnew
      have hbi := hitem b (.inr hb)
      rw [hold, hb] at htally
      simp only [Option.elim_none, Option.elim_some, hbi] at htally
      rw [hinventory, hold]
      by_cases hi : i = x.item
      · subst hi
        simp only [and_self, if_true, hcarried, Option.isSome_none, Bool.toNat_true,
          Bool.toNat_false]
        simp at htally
        omega
      · simp only [hi, false_and, if_false]
        simp [hi] at htally
        omega
  | some b =>
      have hbi := hitem b (.inl hold)
      rw [hinventory, hold]
      simp only [reduceCtorEq, and_false, if_false]
      rw [hold] at htally
      cases hnew : x.new with
      | none =>
          rw [hnew] at htally
          simp only [Option.elim_none, Option.elim_some, hbi] at htally
          by_cases hi : i = x.item
          · simp [hi] at htally ⊢
            omega
          · simp [hi] at htally
            omega
      | some b' =>
          have hbi' := hitem b' (.inr hnew)
          rw [hnew] at htally
          simp only [Option.elim_some, hbi, hbi'] at htally
          simp at htally
          omega

theorem Changed.refunded (hc : Changed w w' x) (id : Nat) (guid : Guid) :
    w'.refunded id guid = w.refunded id guid +
      (x.mails.map fun m => if m.isFor id guid && m.isRefund then (m.money : Int) else 0).sum := by
  unfold World.refunded
  rw [hc.mails, List.map_append, List.sum_append]
  omega

theorem sellChange_carries {r : World.SellRequest} {house : House} (h : Offered w r a) :
    (sellChange w house a).Carries w where
  mails := fun i => (if_neg fun hboth => by cases hboth.2).symm
  carried := fun _ => ⟨by rw [← h.carried, ← h.item]; rfl, rfl⟩

theorem mailsWith_outbidBy (i : ItemGuid) (id : Nat) (guid : Guid) :
    mailsWith i (outbidBy c id a guid) = 0 := by
  unfold mailsWith outbidBy outbid
  split
  · rfl
  · cases a.bidder with
    | none => rfl
    | some b => simp [AuctionEntry.outbiddedMail, AuctionEntry.mail]

theorem bidChange_carries {price : Nat} : (bidChange c k a guid price).Carries w where
  mails := fun i => by
    rw [if_neg fun hboth => by cases hboth.2]
    exact mailsWith_outbidBy i k.2 guid
  carried := fun hnone => by cases hnone

theorem buyChange_carries : (buyChange c k a guid).Carries w where
  mails := fun i => by
    have hrest := mailsWith_outbidBy (c := c) (a := a) i k.2 guid
    show mailsWith i (_ :: _ :: _ :: outbidBy c k.2 a guid) = if i = a.itemGUIDLow ∧ _ then 1 else 0
    unfold mailsWith at hrest ⊢
    rw [List.countP_cons, List.countP_cons, List.countP_cons, hrest]
    simp [buyChange, AuctionEntry.wonMail, AuctionEntry.successfulMail,
      AuctionEntry.salePendingMail, AuctionEntry.mail, AuctionEntry.withBid, eq_comm]
  carried := fun hnone => by cases hnone

theorem cancelChange_carries : (cancelChange c k a).Carries w where
  mails := fun i => by
    unfold cancelChange cancelled mailsWith
    cases a.bidder <;>
      simp [AuctionEntry.canceledMail, AuctionEntry.cancelledToBidderMail, AuctionEntry.mail,
        List.countP_cons, eq_comm]
  carried := fun hnone => by cases hnone

theorem settleChange_carries : (settleChange c k a).Carries w where
  mails := fun i => by
    unfold settleChange soldMails mailsWith
    cases a.bidder <;>
      simp [AuctionEntry.expiredMail, AuctionEntry.wonMail, AuctionEntry.successfulMail,
        AuctionEntry.mail, List.countP_cons, eq_comm]
  carried := fun hnone => by cases hnone

end Items

/-! ## Steps -/

section Steps

variable {c : Config} {w w' : World} {x : Change} {k : House × Nat} {a : AuctionEntry}
  {guid : Guid}

variable {payer : Guid} {op : Op}

/-- A change at one auction leaves the others, so an auction that differs is that one. -/
theorem Changed.key_of_ne (hc : Changed w w' x) (ha : w.auctions.lookup k = some a)
    (hne : w'.auctions.lookup k ≠ some a) : k = x.key ∧ x.old = some a := by
  by_cases hk : k = x.key
  · refine ⟨hk, ?_⟩
    rw [← hc.old, ← hk, ha]
  · rw [hc.lookup_ne hk] at hne
    exact absurd ha hne

/-- The mail to the one who is outbid brings his bid. -/
theorem refund_outbidBy (hb : a.bidder = some guid) (hne : payer ≠ guid) (id : Nat) :
    ((outbidBy c id a payer).map fun m =>
      if m.isFor id guid && m.isRefund then (m.money : Int) else 0).sum = a.bid := by
  have hself : ¬ a.bidder = some payer := by
    rw [hb]
    exact fun heq => hne (Option.some.inj heq).symm
  unfold outbidBy outbid
  rw [if_neg hself, hb]
  simp [AuctionMail.isFor, AuctionMail.isRefund, AuctionEntry.outbiddedMail, AuctionEntry.mail]

theorem refund_bid {price : Nat} (hb : a.bidder = some guid) (hne : payer ≠ guid) :
    ((bidChange c k a payer price).mails.map fun m =>
      if m.isFor k.2 guid && m.isRefund then (m.money : Int) else 0).sum = a.bid :=
  refund_outbidBy hb hne k.2

theorem refund_buy (hb : a.bidder = some guid) (hne : payer ≠ guid) :
    ((buyChange c k a payer).mails.map fun m =>
      if m.isFor k.2 guid && m.isRefund then (m.money : Int) else 0).sum = a.bid := by
  have hrest := refund_outbidBy (c := c) hb hne k.2
  show (List.map _ (_ :: _ :: _ :: outbidBy c k.2 a payer)).sum = _
  rw [List.map_cons, List.map_cons, List.map_cons, List.sum_cons, List.sum_cons, List.sum_cons,
    hrest]
  simp [AuctionMail.isRefund, AuctionEntry.wonMail, AuctionEntry.successfulMail,
    AuctionEntry.salePendingMail, AuctionEntry.mail]

theorem refund_cancel (hb : a.bidder = some guid) :
    ((cancelChange c k a).mails.map fun m =>
      if m.isFor k.2 guid && m.isRefund then (m.money : Int) else 0).sum = a.bid := by
  unfold cancelChange cancelled
  simp [hb, AuctionMail.isFor, AuctionMail.isRefund, AuctionEntry.canceledMail,
    AuctionEntry.cancelledToBidderMail, AuctionEntry.mail]

/-- Items only leave their slots. -/
theorem Changed.gone (hc : Changed w w' x) (i : ItemGuid) (hi : w.inventory i = none) :
    w'.inventory i = none := by
  rw [hc.inventory, hi]
  exact ite_self _

/-- A step that leaves auctions, mails and slots alone. -/
theorem served_of_same (hauctions : (step c w op).auctions = w.auctions)
    (hinventory : (step c w op).inventory = w.inventory)
    (hsold : ∀ r found, op = .sell r → w.checkSell c r ≠ .ok found) : Served c w op := by
  refine ⟨?_, ?_, ?_, ?_⟩
  · intro k a guid ha _ hne
    rw [hauctions] at hne
    exact absurd ha hne
  · intro k a ha hnone
    rw [hauctions, ha] at hnone
    cases hnone
  · intro r house a hop hok
    exact absurd hok (hsold r _ hop)
  · intro i hi
    rw [hinventory, hi]

/-- A step that is one change. -/
theorem served_of_change (hc : Changed w (step c w op) x)
    (hrefund : ∀ a guid, x.old = some a → a.bidder = some guid → displaces guid op →
      (x.mails.map fun m => if m.isFor x.key.2 guid && m.isRefund then (m.money : Int) else
      0).sum = a.bid)
    (hdelivered : ∀ a, x.old = some a → x.new = none → ∃ m ∈ x.mails, m.item =
      some a.itemGUIDLow ∧ m.subject.auctionId = x.key.2 ∧ (m.receiver, m.subject.response) =
      deliveredTo a op)
    (hsold : ∀ r house a, op = .sell r → w.checkSell c r = .ok (house, a) →
      (step c w op).inventory r.itemGUID = none) :
    Served c w op := by
  refine ⟨?_, ?_, hsold, hc.gone⟩
  · intro k a guid ha hb hne hdisplaces
    obtain ⟨rfl, hold⟩ := hc.key_of_ne ha hne
    rw [hc.refunded, hrefund a guid hold hb hdisplaces]
  · intro k a ha hnone
    have hne : (step c w op).auctions.lookup k ≠ some a := by
      rw [hnone]
      exact fun hno => by cases hno
    obtain ⟨rfl, hold⟩ := hc.key_of_ne ha hne
    obtain ⟨m, hm, hmail⟩ := hdelivered a hold (hc.lookup_self.symm.trans hnone)
    refine ⟨m, ?_, hmail⟩
    rw [hc.mails]
    exact List.mem_append_left _ hm

theorem sweeps_served (h : Sound w) {ended : AuctionEntry → Bool}
    (hstep : step c w op = World.houses.foldl (World.sweep c ended) w)
    (hdisplaces : ∀ guid, ¬ displaces guid op)
    (hto : ∀ a, deliveredTo a op = a.bidder.elim (a.owner, .expired) fun bidder => (bidder, .won))
    (hsell : ∀ r, op ≠ .sell r) : Served c w op := by
  have hrule := sweeps_rule (c := c)
    (fun w' => Sound w' ∧ w'.inventory = w.inventory ∧
      ∀ k a, w.auctions.lookup k = some a → w'.auctions.lookup k = some a ∨
        ∃ m ∈ w'.mails, m.item = some a.itemGUIDLow ∧ m.subject.auctionId = k.2 ∧
          (m.receiver, m.subject.response) = deliveredTo a op)
    ended ?_ World.houses w ⟨h, rfl, fun k a ha => .inl ha⟩
  · obtain ⟨-, hinventory, hmailed⟩ := hrule
    refine ⟨fun _ _ guid _ _ _ hd => absurd hd (hdisplaces guid), ?_,
      fun r _ _ hop => absurd hop (hsell r), ?_⟩
    · intro k a ha hnone
      rw [hstep] at hnone ⊢
      refine (hmailed k a ha).resolve_left fun hopen => ?_
      rw [hnone] at hopen
      cases hopen
    · intro i hi
      rw [hstep, hinventory, hi]
  · rintro w' k a ⟨h', hinventory, hmailed⟩ ha -
    have hl := h'.listed k a ha
    have hc := settle_changed (c := c) hl ha
    refine ⟨h'.change hc settleChange_proper, ?_, ?_⟩
    · funext i
      rw [hc.inventory, ← hinventory]
      exact if_neg fun hboth => by cases hboth.2
    · intro k' a' ha'
      rw [hc.mails]
      rcases hmailed k' a' ha' with hopen | ⟨m, hm, hmail⟩
      · by_cases hk : k' = k
        · subst hk
          obtain rfl := Option.some.inj (ha.symm.trans hopen)
          right
          rw [hto]
          unfold settleChange soldMails
          cases hb : a.bidder with
          | none => exact ⟨a.expiredMail k'.2, List.mem_cons_self, rfl, rfl, rfl⟩
          | some b => exact ⟨a.wonMail k'.2 b, List.mem_cons_self, rfl, rfl, rfl⟩
        · left
          rw [hc.lookup_ne hk]
          exact hopen
      · exact .inr ⟨m, List.mem_append_right _ hm, hmail⟩

theorem step_update (w : World) :
    step c w .update = World.houses.foldl (World.sweep c w.expired) w := rfl

theorem step_removeAllAuctionsOf (w : World) (owner : Guid) :
    step c w (.removeAllAuctionsOf owner) =
      World.houses.foldl (World.sweep c fun a => a.owner = owner) w := rfl

theorem step_served (h : Sound w) (op : Op) : Served c w op := by
  cases op with
  | sell r =>
      cases hok : w.checkSell c r with
      | error reply =>
          have hsame : step c w (.sell r) = w := by
            simp only [step, World.handleAuctionSellItem, hok]
          refine served_of_same (by rw [hsame]) (by rw [hsame]) fun r' found hop hno => ?_
          cases hop
          cases hok.symm.trans hno
      | ok listing =>
          obtain ⟨house, a⟩ := listing
          have hstep : step c w (.sell r) = w.openAuction house a := by
            simp only [step, World.handleAuctionSellItem, hok]
          have hoffered := checkSell_ok hok
          have hc := openAuction_changed hoffered (h.lookup_new house)
          rw [← hstep] at hc
          refine served_of_change hc (fun b guid hno => by cases hno) (fun b hno => by cases hno) ?_
          intro r' house' a' hop _
          cases hop
          rw [hc.inventory]
          exact if_pos ⟨hoffered.item.symm, rfl⟩
  | bid r =>
      cases hok : w.checkBid c r with
      | error reply =>
          have hsame : step c w (.bid r) = w := by
            simp only [step, World.handleAuctionPlaceBid, hok]
          exact served_of_same (by rw [hsame]) (by rw [hsame]) fun r' found hop => by cases hop
      | ok found =>
          obtain ⟨k, a⟩ := found
          obtain ⟨x, hc, -, -, -, hx, -⟩ := placeBid_changed h hok
          refine served_of_change hc ?_ ?_ fun r' house' a' hop => by cases hop
          · intro b guid hold hb hne
            rw [hx] at hold ⊢
            split at hold <;> rename_i hreaches
            · cases hold
              rw [if_pos hreaches]
              exact refund_buy hb hne
            · cases hold
              rw [if_neg hreaches]
              exact refund_bid hb hne
          · intro b hold hnew
            rw [hx] at hold hnew ⊢
            split at hold <;> rename_i hreaches
            · cases hold
              rw [if_pos hreaches]
              exact ⟨_, List.mem_cons_self, rfl, rfl, rfl⟩
            · rw [if_neg hreaches] at hnew
              cases hnew
  | cancel r =>
      cases hok : w.checkRemove c r with
      | error reply =>
          have hsame : step c w (.cancel r) = w := by
            simp only [step, World.handleAuctionRemoveItem, hok]
          exact served_of_same (by rw [hsame]) (by rw [hsame]) fun r' found hop => by cases hop
      | ok found =>
          obtain ⟨k, a⟩ := found
          obtain ⟨hremoving, -⟩ := checkRemove_ok hok
          have hc : Changed w (step c w (.cancel r)) (cancelChange c k a) := by
            simp only [step, World.handleAuctionRemoveItem, hok]
            exact cancelAuction_changed (h.listed k a hremoving.lookup) hremoving
          refine served_of_change hc ?_ ?_ fun r' house' a' hop => by cases hop
          · rintro b guid ⟨⟩ hb -
            exact refund_cancel hb
          · rintro b ⟨⟩ -
            exact ⟨_, List.mem_cons_self, rfl, rfl, rfl⟩
  | update =>
      exact sweeps_served h (step_update w) (fun _ hd => hd) (fun _ => rfl) fun r hop => by cases hop
  | removeAllAuctionsOf owner =>
      exact sweeps_served h (step_removeAllAuctionsOf w owner) (fun _ hd => hd) (fun _ => rfl)
        fun r hop => by cases hop
  | elapse seconds => exact served_of_same rfl rfl fun r found hop => by cases hop
  | session guid session =>
      have hsame := sameHouse_setSession (w := w) guid session
      have hstep : step c w (.session guid session) = w.setSession guid session := rfl
      refine served_of_same ?_ ?_ fun r found hop => by cases hop
      · rw [hstep, hsame.rest]
      · rw [hstep, hsame.rest]
  | modifyMoney guid amount =>
      have hsame := sameHouse_modifyMoney (w := w) guid amount
      have hstep : step c w (.modifyMoney guid amount) = w.modifyMoney guid amount := rfl
      refine served_of_same ?_ ?_ fun r found hop => by cases hop
      · rw [hstep, hsame.rest]
      · rw [hstep, hsame.rest]

theorem allCovered_iff {ended : AuctionEntry → Bool} : allCovered c ended w = true ↔
    ∀ k a, w.auctions.lookup k = some a → (ended a && a.bidder.isSome) = true →
      covered c a = true := by
  unfold allCovered
  rw [List.all_eq_true]
  refine ⟨fun hall k a ha hended => ?_, fun hall e he => ?_⟩
  · have hone := hall ⟨k, a⟩ (AList.mem_lookup_iff.1 ha)
    rw [Bool.or_eq_true, hended] at hone
    exact hone.resolve_left Bool.false_ne_true
  · cases hended : ended e.2 && e.2.bidder.isSome with
    | false => rfl
    | true => exact hall e.1 e.2 (AList.mem_lookup_iff.2 he) hended

/-- The loops are balanced exactly if all sales among what is over are covered. -/
theorem sweeps_balanced (h : Sound w) (ended : AuctionEntry → Bool) :
    (World.houses.foldl (World.sweep c ended) w).gold =
        w.gold + Ledger.weigh w.auctions (fun _ a => overFlow c ended a) ↔
      allCovered c ended w = true := by
  have hsplit : pending c ended w = Ledger.weigh w.auctions (fun _ a => overFlow c ended a) +
      Ledger.weigh w.auctions fun _ a => if ended a && a.bidder.isSome then excess c a else 0 := by
    rw [← Ledger.weigh_add]
    refine Ledger.weigh_congr fun k a _ => ?_
    unfold overFlow settleGold
    cases ended a <;> cases a.bidder <;> simp
  have hnonneg : ∀ k a, w.auctions.lookup k = some a →
      0 ≤ if ended a && a.bidder.isSome then excess c a else 0 := by
    intro k a ha
    have hl := h.listed k a ha
    split
    · exact excess_nonneg hl.bid_le hl.deposit_le
    · exact Int.le_refl 0
  have hzero := Ledger.weigh_eq_zero_iff hnonneg
  rw [sweeps_gold ended h, hsplit, allCovered_iff]
  refine ⟨fun heq k a ha hended => ?_, fun hall => ?_⟩
  · have hexcess := hzero.1 (by omega) k a ha
    rw [if_pos hended] at hexcess
    have hl := h.listed k a ha
    exact (excess_eq_zero hl.bid_le hl.deposit_le).1 hexcess
  · have hnone := hzero.2 fun k a ha => by
      split <;> rename_i hended
      · have hl := h.listed k a ha
        exact (excess_eq_zero hl.bid_le hl.deposit_le).2 (hall k a ha hended)
      · rfl
    omega

/-- A step is balanced exactly if its sales are covered. -/
theorem step_balanced (h : Sound w) (op : Op) :
    (step c w op).gold = w.gold + flow c w op ↔ coveredOp c w op = true := by
  have hsame : ∀ op', step c w op' = w → flow c w op' = 0 →
      (step c w op').gold = w.gold + flow c w op' := by
    intro op' hstep hflow
    rw [hstep, hflow, add_zero]
  cases op with
  | sell r =>
      refine ⟨fun _ => rfl, fun _ => ?_⟩
      cases hok : w.checkSell c r with
      | error reply =>
          refine hsame _ ?_ ?_
          · simp only [step, World.handleAuctionSellItem, hok]
          · simp only [flow, hok]
      | ok listing =>
          obtain ⟨house, a⟩ := listing
          have hoffered := checkSell_ok hok
          have hgold := (openAuction_changed hoffered (h.lookup_new house)).gold
          rw [sellChange_gold hoffered.bid] at hgold
          simp only [step, World.handleAuctionSellItem, flow, hok]
          exact hgold
  | bid r =>
      cases hok : w.checkBid c r with
      | error reply =>
          simp only [coveredOp, hok, iff_true]
          refine hsame _ ?_ ?_
          · simp only [step, World.handleAuctionPlaceBid, hok]
          · simp only [flow, hok]
      | ok found =>
          obtain ⟨k, a⟩ := found
          obtain ⟨hbidding, -⟩ := checkBid_ok hok
          have hl := h.listed k a hbidding.lookup
          obtain ⟨ch, -, hle⟩ := hbidding.purse
          have hmoney := ch.purse.money_le
          obtain ⟨x, hc, -, -, -, hx, -⟩ := placeBid_changed h hok
          have hgold : (step c w (.bid r)).gold = w.gold + x.gold := hc.gold
          simp only [coveredOp, flow, hok]
          cases hreaches : a.reachesBuyout r.price with
          | true =>
              rw [if_pos hreaches] at hx
              simp only [AuctionEntry.reachesBuyout, Bool.not_eq_eq_eq_not, Bool.not_true,
                Bool.or_eq_false_iff, decide_eq_false_iff_not] at hreaches
              have hlt := hl.buyout hreaches.2
              have hexcess := excess_eq_zero (c := c) (a := a.withBid r.player a.buyout)
                (show a.buyout ≤ maxMoneyAmount by omega) hl.deposit_le
              rw [hx, buyChange_gold hl hlt.le] at hgold
              simp only [if_true, Bool.not_true, Bool.false_or]
              rw [← hexcess]
              omega
          | false =>
              rw [hx, hreaches, if_neg Bool.false_ne_true, bidChange_gold hl hbidding.higher.le]
                at hgold
              simp only [Bool.false_eq_true, if_false, Bool.not_false, Bool.true_or, iff_true]
              exact hgold
  | cancel r =>
      refine ⟨fun _ => rfl, fun _ => ?_⟩
      cases hok : w.checkRemove c r with
      | error reply =>
          refine hsame _ ?_ ?_
          · simp only [step, World.handleAuctionRemoveItem, hok]
          · simp only [flow, hok]
      | ok found =>
          obtain ⟨k, a⟩ := found
          obtain ⟨hremoving, -⟩ := checkRemove_ok hok
          have hl := h.listed k a hremoving.lookup
          have hgold := (cancelAuction_changed hl hremoving).gold
          rw [cancelChange_gold hl] at hgold
          simp only [step, World.handleAuctionRemoveItem, flow, hok]
          exact hgold
  | update =>
      rw [step_update]
      exact sweeps_balanced h w.expired
  | removeAllAuctionsOf owner =>
      rw [step_removeAllAuctionsOf]
      exact sweeps_balanced h fun a => a.owner = owner
  | elapse seconds => exact ⟨fun _ => rfl, fun _ => (add_zero w.gold).symm⟩
  | session guid session =>
      refine ⟨fun _ => rfl, fun _ => ?_⟩
      simp only [step, flow, add_zero]
      unfold World.setSession
      cases hch : w.characters.lookup guid with
      | none => rfl
      | some ch =>
          have hinsert := Ledger.weigh_insert hch { ch with session := session }
            fun _ ch => (ch.purse.money : Int)
          have hpurses : (Ledger.weigh (w.characters.insert guid { ch with session := session })
              fun _ ch => (ch.purse.money : Int)) = w.purses := add_left_cancel hinsert
          exact congrArg (fun n => n + w.tally (fun _ a => a.bid) fun m => m.money) hpurses
  | modifyMoney guid amount =>
      refine ⟨fun _ => rfl, fun _ => ?_⟩
      have hhouse := sameHouse_modifyMoney (w := w) guid amount
      have htally : (w.modifyMoney guid amount).tally (fun _ a => a.bid) (fun m => m.money) =
          w.tally (fun _ a => a.bid) fun m => m.money := by
        rw [hhouse.rest]
        rfl
      have hstep : step c w (.modifyMoney guid amount) = w.modifyMoney guid amount := rfl
      rw [hstep]
      unfold World.gold
      rw [htally]
      simp only [flow]
      omega

theorem sweeps_places (h : Sound w) (ended : AuctionEntry → Bool) (i : ItemGuid) :
    (World.houses.foldl (World.sweep c ended) w).places i = w.places i := by
  refine (sweeps_rule (fun w' => Sound w' ∧ w'.places i = w.places i) ended ?_ _ w ⟨h, rfl⟩).2
  rintro w' k a ⟨h', hplaces⟩ ha -
  have hc := settle_changed (c := c) (h'.listed k a ha) ha
  refine ⟨h'.change hc settleChange_proper, ?_⟩
  rw [hc.places settleChange_proper settleChange_carries, hplaces]

/-- No step makes an item or loses one. -/
theorem step_places (h : Sound w) (op : Op) (i : ItemGuid) :
    (step c w op).places i = w.places i := by
  cases op with
  | sell r =>
      simp only [step, World.handleAuctionSellItem]
      cases hok : w.checkSell c r with
      | error reply => rfl
      | ok listing =>
          obtain ⟨house, a⟩ := listing
          have hoffered := checkSell_ok hok
          have hc := openAuction_changed hoffered (h.lookup_new house)
          exact hc.places (sellChange_proper hoffered) (sellChange_carries hoffered) i
  | bid r =>
      cases hok : w.checkBid c r with
      | error reply => simp only [step, World.handleAuctionPlaceBid, hok]
      | ok found =>
          obtain ⟨k, a⟩ := found
          obtain ⟨x, hc, hp, -, -, hx, -⟩ := placeBid_changed h hok
          refine hc.places hp ?_ i
          rw [hx]
          split
          · exact buyChange_carries
          · exact bidChange_carries
  | cancel r =>
      simp only [step, World.handleAuctionRemoveItem]
      cases hok : w.checkRemove c r with
      | error reply => rfl
      | ok found =>
          obtain ⟨k, a⟩ := found
          obtain ⟨hremoving, -⟩ := checkRemove_ok hok
          have hc := cancelAuction_changed (h.listed k a hremoving.lookup) hremoving
          exact hc.places cancelChange_proper cancelChange_carries i
  | update =>
      rw [step_update]
      exact sweeps_places h _ i
  | removeAllAuctionsOf owner =>
      rw [step_removeAllAuctionsOf]
      exact sweeps_places h _ i
  | elapse seconds => rfl
  | session guid session =>
      have hsame := sameHouse_setSession (w := w) guid session
      simp only [step]
      rw [hsame.rest]
      rfl
  | modifyMoney guid amount =>
      have hsame := sameHouse_modifyMoney (w := w) guid amount
      simp only [step]
      rw [hsame.rest]
      rfl

theorem run_places (ops : List Op) (i : ItemGuid) : ∀ w, Sound w →
    (run c w ops).places i = w.places i := by
  induction ops with
  | nil => exact fun w _ => rfl
  | cons op ops ih => exact fun w h => (ih _ (sound_step h op)).trans (step_places h op i)

theorem conservedSteps_iff (ops : List Op) : ∀ w, Sound w →
    (ConservedSteps c w ops ↔ coveredRun c w ops = true) := by
  induction ops with
  | nil => exact fun w _ => ⟨fun _ => rfl, fun _ => trivial⟩
  | cons op ops ih =>
      intro w h
      simp only [ConservedSteps, coveredRun, Bool.and_eq_true]
      rw [ih _ (sound_step h op), ← step_balanced h op]
      exact ⟨fun hboth => ⟨hboth.1.gold, hboth.2⟩,
        fun hboth => ⟨⟨hboth.1, step_served h op⟩, hboth.2⟩⟩

end Steps

/-- For an auction that is not open, all that was charged to one who did not win it came
back. -/
theorem Booked.closed_charged {w : World} {charges : Nat → Guid → Int} (hb : Booked w charges)
    {id : Nat} {guid : Guid} (hclosed : ∀ house, (house, id) ∉ w.auctions)
    (hnot : ∀ m ∈ w.mails, m.isFor id guid = true → m.isWon = false) :
    charges id guid = w.refunded id guid := by
  have hheld : w.heldBid id guid = 0 := by
    refine Ledger.weigh_eq_zero fun k a ha => if_neg fun hboth => hclosed k.1 ?_
    rw [← hboth.1]
    exact AList.lookup_isSome.1 (Option.isSome_of_eq_some ha)
  have hprice : w.pricePaid id guid = 0 := by
    refine List.sum_eq_zero fun n hn => ?_
    obtain ⟨m, hm, rfl⟩ := List.mem_map.1 hn
    refine if_neg fun hboth => ?_
    rw [Bool.and_eq_true] at hboth
    rw [hnot m hm hboth.1] at hboth
    cases hboth.2
  rw [hb, hheld, hprice]
  omega

/-- A run keeps the balance exactly if each of its sales covers the cut. -/
theorem conserved_runs (c : Config) (time : Nat) (characters : Ledger Guid Character)
    (inventory : ItemGuid → Option Carried) (ops : List Op) :
    Conserved c (start time characters inventory) ops ↔
      coveredRun c (start time characters inventory) ops = true := by
  obtain ⟨hsound, hbooked⟩ := reachable_spec c time characters inventory ops
  have hstart := sound_start time characters inventory
  rw [← conservedSteps_iff ops _ hstart]
  refine ⟨Conserved.steps, fun hsteps => ⟨hsteps, fun k a guid ha => ?_, fun id guid hclosed hnot =>
    hbooked.closed_charged hclosed hnot, fun i hi => ?_⟩⟩
  · exact hbooked.open_charged hsound ha guid
  · have hplaces := run_places (c := c) ops i _ hstart
    unfold World.places at hplaces
    rw [hplaces, hi]
    rfl

/-- A house at a rate that makes its cut greater than the bid. -/
def greedyHouse : Config where
  twoSideInteraction := true
  factionTemplate := fun _ => none
  auctionHouseStore := fun _ => some ⟨7, 15⟩
  auctionTime := id
  getAuctionDeposit := fun _ _ _ => 0
  -- `Rate.Auction.Cut` is 25
  auctionCut := fun x => x * 25 / 100

theorem second_account : (2 : Nat) ≠ 0 := by decide

theorem hundred_le_maxMoneyAmount : 100 ≤ maxMoneyAmount := by decide

def sellerAndBuyer : Ledger Guid Character :=
  AList.insert 1 (inTown 1 0 Nat.one_ne_zero (Nat.zero_le maxMoneyAmount))
    (AList.insert 2 (inTown 2 100 second_account hundred_le_maxMoneyAmount) ∅)

def sellersItem (item : ItemGuid) : Option Carried :=
  if item = 9 then some ⟨1, ⟨25, 1, 0, false, 0⟩⟩ else none

/-- An item is bought out for 100 copper. -/
def boughtOut : List Op :=
  [.sell ⟨1, some 12, 9, 50, 100, 720, true⟩, .elapse 60, .bid ⟨2, some 12, 1, 100⟩]

/-- The cut is 125, and the seller is mailed nearly all the copper that 32 bits hold. -/
theorem boughtOut_not_conserved :
    ¬ Conserved greedyHouse (start 0 sellerAndBuyer sellersItem) boughtOut := by
  intro hconserved
  obtain ⟨-, -, hbuy, -⟩ := hconserved.steps
  have hview : (step greedyHouse (run greedyHouse (start 0 sellerAndBuyer sellersItem)
      (boughtOut.take 2)) (.bid ⟨2, some 12, 1, 100⟩)).gold = 4294967271 ∧
      (run greedyHouse (start 0 sellerAndBuyer sellersItem) (boughtOut.take 2)).gold = 100 ∧
      flow greedyHouse (run greedyHouse (start 0 sellerAndBuyer sellersItem) (boughtOut.take 2))
        (.bid ⟨2, some 12, 1, 100⟩) = -125 := by
    decide
  obtain ⟨hafter, hbefore, hflow⟩ := hview
  have hgold := hbuy.gold
  have hleft : (4294967271 : Int) = 100 + -125 := by
    rw [← hafter, ← hbefore, ← hflow]
    exact hgold
  omega

end Sunstrider.Auctions
