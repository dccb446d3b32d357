import Sunstrider.Proofs.AuctionChanges

/-!
# The books of the auction house

What a player was charged for an auction is read off his purse, at his bids. What
became of it is read off the state: it is held as the bid of the open auction, it
was mailed back, or it is the price of an auction he won. The two agree in every
state of every run.

A step makes one change, or for an expiry one change after the other, and a change
is proper when it is about one auction: its item is the one of the auction, its
mails name the auction, and it does not leave the auction both open and won. That
alone keeps the state sound.
-/

namespace Sunstrider.Auctions

open Lib Inventory

/-! ## Accounts -/

/-- The mail says that the auction was won. -/
def AuctionMail.isWon (m : AuctionMail) : Bool := m.subject.response = .won

/-- The mail brings back a bid. -/
def AuctionMail.isRefund (m : AuctionMail) : Bool :=
  m.subject.response = .outbidded || m.subject.response = .cancelledToBidder

/-- The mail is about the auction, to the player. -/
def AuctionMail.isFor (m : AuctionMail) (id : Nat) (guid : Guid) : Bool :=
  m.subject.auctionId = id && m.receiver = guid

namespace World

/-- The gold that was mailed back to a player for his bids on an auction. -/
def refunded (w : World) (id : Nat) (guid : Guid) : Int :=
  (w.mails.map fun m => if m.isFor id guid && m.isRefund then (m.money : Int) else 0).sum

/-- The price of the auction, for the player who won it. -/
def pricePaid (w : World) (id : Nat) (guid : Guid) : Int :=
  (w.mails.map fun m => if m.isFor id guid && m.isWon then (m.body.bid : Int) else 0).sum

/-- The bid of a player that an open auction holds. -/
def heldBid (w : World) (id : Nat) (guid : Guid) : Int :=
  Ledger.weigh w.auctions fun k a => if k.2 = id ∧ a.bidder = some guid then (a.bid : Int) else 0

/-- An auction is open or was won, and how often. -/
def lots (w : World) (id : Nat) : Int :=
  w.tally (fun k _ => if k.2 = id then 1 else 0)
    fun m => if m.subject.auctionId = id ∧ m.isWon = true then 1 else 0

end World

/-- What the step takes from the player for the auction. -/
def chargedAt (c : Config) (id : Nat) (guid : Guid) (w : World) : Op → Int
  | .bid r =>
      if r.auctionId = id ∧ r.player = guid then
        w.money guid - (step c w (.bid r)).money guid
      else 0
  | _ => 0

/-- What the run takes from the player for the auction. -/
def charged (c : Config) (id : Nat) (guid : Guid) (w : World) : List Op → Int
  | [] => 0
  | op :: ops => chargedAt c id guid w op + charged c id guid (step c w op) ops

/-- The state accounts for all that was charged. -/
def Booked (w : World) (charges : Nat → Guid → Int) : Prop :=
  ∀ id guid, charges id guid = w.heldBid id guid + w.refunded id guid + w.pricePaid id guid

/-! ## Sound states -/

structure Sound (w : World) : Prop where
  listed : ∀ k a, w.auctions.lookup k = some a → Listed w k a
  oneItem : ∀ k k' a a', w.auctions.lookup k = some a → w.auctions.lookup k' = some a' →
    a.itemGUIDLow = a'.itemGUIDLow → k = k'
  mailed : ∀ m ∈ w.mails, m.subject.auctionId < w.auctionId
  lots : ∀ id, w.lots id ≤ 1

/-- A change about one auction. -/
structure Change.Proper (w : World) (x : Change) : Prop where
  item : ∀ a, x.old = some a ∨ x.new = some a → a.itemGUIDLow = x.item
  opened : x.old = none → x.key.2 = w.auctionId ∧ w.mAitems x.item = none ∧ x.mails = []
  mails : ∀ m ∈ x.mails, m.subject.auctionId = x.key.2
  won : x.new.isSome.toNat + x.mails.countP AuctionMail.isWon ≤ 1
  owner : ∀ a, x.new = some a → w.Known a.owner
  bidder : ∀ a, x.new = some a → ∀ b, a.bidder = some b → w.Known b
  noBid : ∀ a, x.new = some a → a.bidder = none → a.bid = 0
  bid_le : ∀ a, x.new = some a → a.bid ≤ maxMoneyAmount
  deposit_le : ∀ a, x.new = some a → a.deposit ≤ maxMoneyAmount
  buyout : ∀ a, x.new = some a → a.buyout ≠ 0 → a.bid < a.buyout

section Sound

variable {c : Config} {w w' : World} {x : Change} {k : House × Nat} {a : AuctionEntry}

/-- An id that was not given yet is of no auction. -/
theorem Sound.lots_fresh (h : Sound w) (id : Nat) (hid : w.auctionId ≤ id) : w.lots id = 0 := by
  have hauctions : Ledger.weigh w.auctions (fun k _ => if k.2 = id then (1 : Int) else 0) = 0 := by
    refine Ledger.weigh_eq_zero fun k a ha => if_neg fun hk => ?_
    have hlt := (h.listed k a ha).id_lt
    omega
  have hmails : (w.mails.map fun m =>
      if m.subject.auctionId = id ∧ m.isWon = true then (1 : Int) else 0).sum = 0 := by
    refine List.sum_eq_zero fun n hn => ?_
    obtain ⟨m, hm, rfl⟩ := List.mem_map.1 hn
    refine if_neg fun hboth => ?_
    have hlt := h.mailed m hm
    omega
  unfold World.lots World.tally
  rw [hauctions, hmails]
  rfl

theorem sum_won {id : Nat} (mails : List AuctionMail) (hid : ∀ m ∈ mails, m.subject.auctionId = id) :
    (mails.map fun m => if m.subject.auctionId = id ∧ m.isWon = true then (1 : Int) else 0).sum =
      mails.countP AuctionMail.isWon := by
  induction mails with
  | nil => rfl
  | cons m mails ih =>
      have hm := hid m List.mem_cons_self
      rw [List.map_cons, List.sum_cons, List.countP_cons,
        ih fun m hin => hid m (List.mem_cons_of_mem _ hin)]
      cases hwon : m.isWon with
      | false => simp
      | true =>
          simp [hm]
          omega

theorem sum_won_ne {id id' : Nat} (mails : List AuctionMail)
    (hid : ∀ m ∈ mails, m.subject.auctionId = id') (hne : id' ≠ id) :
    (mails.map fun m => if m.subject.auctionId = id ∧ m.isWon = true then (1 : Int) else 0).sum =
      0 := by
  refine List.sum_eq_zero fun n hn => ?_
  obtain ⟨m, hm, rfl⟩ := List.mem_map.1 hn
  exact if_neg fun hboth => hne ((hid m hm).symm.trans hboth.1)

/-- A change about one auction keeps the state sound. -/
theorem Sound.change (h : Sound w) (hc : Changed w w' x) (hp : x.Proper w) : Sound w' := by
  have hle : w.auctionId ≤ w'.auctionId := by
    rw [hc.auctionId]
    omega
  have hkey : x.key.2 < w'.auctionId := by
    rw [hc.auctionId]
    cases hold : x.old with
    | none =>
        rw [(hp.opened hold).1]
        exact Nat.lt_succ_self _
    | some a => exact (h.listed _ a (hc.old.trans hold)).id_lt
  -- an auction that stays has another item
  have hother : ∀ k a, k ≠ x.key → w.auctions.lookup k = some a → a.itemGUIDLow ≠ x.item := by
    intro k a hk ha hitem
    cases hold : x.old with
    | none =>
        have hheld := (h.listed k a ha).item
        rw [hitem, (hp.opened hold).2.1] at hheld
        cases hheld
    | some b =>
        refine hk (h.oneItem k x.key a b ha (hc.old.trans hold) ?_)
        rw [hitem, hp.item b (.inl hold)]
  refine ⟨?_, ?_, ?_, ?_⟩
  · intro k a ha
    obtain ⟨rfl, hnew⟩ | ⟨hk, ha⟩ := hc.lookup_cases ha
    · refine ⟨hkey, (hc.pays.known _).2 (hp.owner a hnew),
        fun b hb => (hc.pays.known b).2 (hp.bidder a hnew b hb), hp.noBid a hnew, hp.bid_le a hnew,
        hp.deposit_le a hnew, hp.buyout a hnew, ?_⟩
      rw [hc.mAitems, if_pos (hp.item a (.inr hnew)), hnew]
      rfl
    · have hl := h.listed k a ha
      refine ⟨by have := hl.id_lt; omega, (hc.pays.known _).2 hl.owner,
        fun b hb => (hc.pays.known b).2 (hl.bidder b hb), hl.noBid, hl.bid_le, hl.deposit_le,
        hl.buyout, ?_⟩
      rw [hc.mAitems, if_neg (hother k a hk ha)]
      exact hl.item
  · intro k k' a a' ha ha' hitem
    obtain ⟨hk, hnew⟩ | ⟨hk, ha⟩ := hc.lookup_cases ha <;>
      obtain ⟨hk', hnew'⟩ | ⟨hk', ha'⟩ := hc.lookup_cases ha'
    · rw [hk, hk']
    · exact absurd (hitem.symm.trans (hp.item a (.inr hnew))) (hother k' a' hk' ha')
    · exact absurd (hitem.trans (hp.item a' (.inr hnew'))) (hother k a hk ha)
    · exact h.oneItem k k' a a' ha ha' hitem
  · intro m hm
    rw [hc.mails] at hm
    rcases List.mem_append.1 hm with hm | hm
    · rw [hp.mails m hm]
      exact hkey
    · exact (h.mailed m hm).trans_le hle
  · intro id
    have hold := h.lots id
    unfold World.lots at hold ⊢
    rw [hc.tally]
    by_cases hid : x.key.2 = id
    · rw [sum_won x.mails fun m hm => (hp.mails m hm).trans hid]
      have hwon := hp.won
      cases hx : x.old with
      | none =>
          obtain ⟨hfresh, -, hnil⟩ := hp.opened hx
          have hzero := h.lots_fresh id (by omega)
          unfold World.lots at hzero
          rw [hzero, hnil]
          cases x.new <;> simp [hid]
      | some a =>
          cases hn : x.new with
          | none =>
              simp only [Option.elim_some, Option.elim_none, if_pos hid]
              rw [hn] at hwon
              simp only [Option.isSome_none, Bool.toNat_false] at hwon
              omega
          | some b =>
              simp only [Option.elim_some, if_pos hid]
              rw [hn] at hwon
              simp only [Option.isSome_some, Bool.toNat_true] at hwon
              omega
    · rw [sum_won_ne x.mails hp.mails hid]
      cases x.old <;> cases x.new <;> simp [hid] <;> omega

end Sound

/-! ## The changes are proper -/

section Proper

variable {c : Config} {w : World} {k : House × Nat} {a : AuctionEntry} {guid : Guid}

theorem sellChange_proper {r : World.SellRequest} {house : House} (h : Offered w r a) :
    (sellChange w house a).Proper w where
  item := by
    rintro b (hb | hb)
    · cases hb
    · cases hb
      rfl
  opened := fun _ => ⟨rfl, by rw [← h.notHeld, ← h.item]; rfl, rfl⟩
  mails := fun m hm => by cases hm
  won := Nat.le_refl 1
  owner := by
    rintro b ⟨⟩
    rw [h.owner]
    exact h.known
  bidder := by
    rintro b ⟨⟩ guid hb
    rw [h.bidder] at hb
    cases hb
  noBid := by
    rintro b ⟨⟩ -
    exact h.bid
  bid_le := by
    rintro b ⟨⟩
    rw [h.bid]
    exact Nat.zero_le _
  deposit_le := by
    rintro b ⟨⟩
    obtain ⟨ch, -, hle⟩ := h.deposit
    exact hle.trans ch.purse.money_le
  buyout := by
    rintro b ⟨⟩ hne
    rw [h.bid]
    exact Nat.pos_of_ne_zero hne

/-- Only the winner is told that he won. -/
theorem outbidBy_spec (c : Config) (id : Nat) (a : AuctionEntry) (guid : Guid) :
    ∀ m ∈ outbidBy c id a guid, m.subject.auctionId = id ∧ m.isWon = false := by
  unfold outbidBy outbid
  split
  · intro m hm
    cases hm
  · cases a.bidder with
    | none =>
        intro m hm
        cases hm
    | some bidder =>
        intro m hm
        obtain rfl := List.mem_singleton.1 hm
        exact ⟨rfl, rfl⟩

theorem countP_outbidBy (c : Config) (id : Nat) (a : AuctionEntry) (guid : Guid) :
    (outbidBy c id a guid).countP AuctionMail.isWon = 0 := by
  refine List.countP_eq_zero.2 fun m hm => ?_
  rw [(outbidBy_spec c id a guid m hm).2]
  exact Bool.false_ne_true

theorem bidChange_proper {price : Nat} (hlisted : Listed w k a) (h : Bidding w k a guid price)
    (hreaches : a.reachesBuyout price = false) : (bidChange c k a guid price).Proper w := by
  obtain ⟨ch, hch, hle⟩ := h.purse
  refine ⟨?_, fun hnone => (by cases hnone), fun m hm => (outbidBy_spec c k.2 a guid m hm).1, ?_,
    ?_, ?_, ?_, ?_, ?_, ?_⟩
  · rintro b (hb | hb) <;> cases hb <;> rfl
  · show 1 + (outbidBy c k.2 a guid).countP _ ≤ 1
    rw [countP_outbidBy]
  · rintro b ⟨⟩
    exact hlisted.owner
  · rintro b ⟨⟩ bidder hb
    obtain rfl := Option.some.inj hb
    exact World.known_of_lookup hch
  · rintro b ⟨⟩ hb
    cases hb
  · rintro b ⟨⟩
    exact hle.trans ch.purse.money_le
  · rintro b ⟨⟩
    exact hlisted.deposit_le
  · rintro b ⟨⟩ hne
    have hne' : a.buyout ≠ 0 := hne
    simp only [AuctionEntry.reachesBuyout, Bool.not_eq_false', Bool.or_eq_true, decide_eq_true_eq,
      hne', or_false] at hreaches
    exact hreaches

/-- A change that closes an auction, with at most one mail to a winner. -/
theorem closing_proper {payer : Guid} {paid : Nat} {mails : List AuctionMail}
    (hmails : ∀ m ∈ mails, m.subject.auctionId = k.2)
    (hwon : mails.countP AuctionMail.isWon ≤ 1) :
    Change.Proper w ⟨payer, paid, k, a.itemGUIDLow, some a, none, mails⟩ := by
  refine ⟨?_, fun hnone => (by cases hnone), hmails, ?_, ?_, ?_, ?_, ?_, ?_, ?_⟩
  · rintro b (hb | hb) <;> cases hb
    rfl
  · show 0 + mails.countP _ ≤ 1
    omega
  all_goals
    rintro b ⟨⟩

theorem buyChange_proper : (buyChange c k a guid).Proper w := by
  refine closing_proper ?_ ?_
  · intro m hm
    rcases List.mem_append.1 hm with hm | hm
    · rcases List.mem_pair.1 hm with rfl | rfl <;> rfl
    · rcases List.mem_cons.1 hm with rfl | hm
      · rfl
      · exact (outbidBy_spec c k.2 a guid m hm).1
  · rw [List.countP_append, List.countP_cons, countP_outbidBy]
    exact Nat.le_refl 1

theorem cancelChange_proper : (cancelChange c k a).Proper w := by
  unfold cancelChange cancelled
  cases a.bidder with
  | none =>
      refine closing_proper ?_ ?_
      · intro m hm
        obtain rfl := List.mem_singleton.1 hm
        rfl
      · exact Nat.zero_le 1
  | some bidder =>
      refine closing_proper ?_ ?_
      · intro m hm
        rcases List.mem_pair.1 hm with rfl | rfl <;> rfl
      · exact Nat.zero_le 1

theorem settleChange_proper : (settleChange c k a).Proper w := by
  unfold settleChange soldMails
  cases a.bidder with
  | none =>
      refine closing_proper ?_ ?_
      · intro m hm
        obtain rfl := List.mem_singleton.1 hm
        rfl
      · exact Nat.zero_le 1
  | some bidder =>
      refine closing_proper ?_ ?_
      · intro m hm
        rcases List.mem_pair.1 hm with rfl | rfl <;> rfl
      · exact Nat.le_refl 1

end Proper

/-! ## The books -/

/-- What a mail accounts for. -/
def AuctionMail.account (m : AuctionMail) (id : Nat) (guid : Guid) : Int :=
  (if m.isFor id guid && m.isRefund then (m.money : Int) else 0) +
    if m.isFor id guid && m.isWon then (m.body.bid : Int) else 0

/-- What an open auction accounts for. -/
def AuctionEntry.account (id : Nat) (guid : Guid) (k : House × Nat) (a : AuctionEntry) : Int :=
  if k.2 = id ∧ a.bidder = some guid then (a.bid : Int) else 0

/-- What was charged and has not come back by the change. -/
def Change.charge (x : Change) (id : Nat) (guid : Guid) : Int :=
  x.new.elim 0 (AuctionEntry.account id guid x.key) -
    x.old.elim 0 (AuctionEntry.account id guid x.key) +
    (x.mails.map fun m => m.account id guid).sum

section Books

variable {c : Config} {w w' : World} {x : Change} {charges : Nat → Guid → Int}
  {k : House × Nat} {a : AuctionEntry} {guid : Guid}

variable {id : Nat}

theorem booked_iff : Booked w charges ↔
    ∀ id guid, charges id guid =
      w.tally (AuctionEntry.account id guid) fun m => m.account id guid := by
  have hsum : ∀ id guid, w.heldBid id guid + w.refunded id guid + w.pricePaid id guid =
      w.tally (AuctionEntry.account id guid) fun m => m.account id guid := by
    intro id guid
    unfold World.tally AuctionMail.account
    rw [List.sum_map_add, ← add_assoc]
    rfl
  unfold Booked
  simp only [hsum]

/-- The charges of a change are entered into the books. -/
theorem Booked.change (h : Booked w charges) (hc : Changed w w' x) :
    Booked w' fun id guid => charges id guid + x.charge id guid := by
  rw [booked_iff] at h ⊢
  intro id guid
  rw [hc.tally, h id guid]
  unfold Change.charge
  omega

theorem account_won (hid : k.2 = id) (b guid : Guid) :
    (a.wonMail k.2 b).account id guid = if b = guid then (a.bid : Int) else 0 := by
  simp [AuctionMail.account, AuctionMail.isFor, AuctionMail.isRefund, AuctionMail.isWon,
    AuctionEntry.wonMail, AuctionEntry.mail, hid]

theorem account_outbidded (hid : k.2 = id) (b guid : Guid) :
    (a.outbiddedMail c k.2 b).account id guid = if b = guid then (a.bid : Int) else 0 := by
  simp [AuctionMail.account, AuctionMail.isFor, AuctionMail.isRefund, AuctionMail.isWon,
    AuctionEntry.outbiddedMail, AuctionEntry.mail, hid]

theorem account_cancelled (hid : k.2 = id) (b guid : Guid) :
    (a.cancelledToBidderMail k.2 b).account id guid = if b = guid then (a.bid : Int) else 0 := by
  simp [AuctionMail.account, AuctionMail.isFor, AuctionMail.isRefund, AuctionMail.isWon,
    AuctionEntry.cancelledToBidderMail, AuctionEntry.mail, hid]

/-- A mail about another auction accounts for nothing. -/
theorem account_ne {m : AuctionMail} (hid : m.subject.auctionId ≠ id) : m.account id guid = 0 := by
  simp [AuctionMail.account, AuctionMail.isFor, hid]

/-- The change is about another auction. -/
theorem charge_ne (hp : x.Proper w) (hid : x.key.2 ≠ id) : x.charge id guid = 0 := by
  have hmails : (x.mails.map fun m => m.account id guid).sum = 0 := by
    refine List.sum_eq_zero fun n hn => ?_
    obtain ⟨m, hm, rfl⟩ := List.mem_map.1 hn
    exact account_ne fun heq => hid ((hp.mails m hm).symm.trans heq)
  have hentry : ∀ a, AuctionEntry.account id guid x.key a = 0 := fun a =>
    if_neg fun hboth => hid hboth.1
  unfold Change.charge
  rw [hmails]
  cases x.old <;> cases x.new <;> simp [hentry]

/-- A mail that is neither a refund nor for a winner accounts for nothing. -/
theorem account_other {m : AuctionMail} (hr : m.isRefund = false) (hw : m.isWon = false) :
    m.account id guid = 0 := by
  simp [AuctionMail.account, hr, hw]

theorem sum_outbidBy (hid : k.2 = id) (payer guid : Guid) :
    ((outbidBy c k.2 a payer).map fun m => m.account id guid).sum =
      if a.bidder = some guid ∧ guid ≠ payer then (a.bid : Int) else 0 := by
  unfold outbidBy outbid
  cases hb : a.bidder with
  | none => simp
  | some b =>
      by_cases hself : b = payer
      · subst hself
        simp [eq_comm]
      · have hmail := account_outbidded (c := c) (a := a) hid b guid
        simp only [Option.some.injEq, hself, if_false, Option.elim_some, List.map_cons,
          List.map_nil, List.sum_cons, List.sum_nil, hmail, add_zero]
        by_cases hg : b = guid
        · subst hg
          simp [hself]
        · simp [hg]

theorem sellChange_charge {house : House} (hb : a.bidder = none) (id : Nat) :
    (sellChange w house a).charge id guid = 0 := by
  simp [Change.charge, sellChange, AuctionEntry.account, hb]

/-- A bid is charged to the bidder, less the bid that was his own. -/
theorem bidChange_charge {price : Nat} (hlisted : Listed w k a) (h : Bidding w k a guid price)
    (hreaches : a.reachesBuyout price = false) (id : Nat) (g : Guid) :
    (bidChange c k a guid price).charge id g =
      if k.2 = id ∧ guid = g then (a.toPay guid price : Int) else 0 := by
  by_cases hid : k.2 = id
  · have hle := h.higher
    have hsum := sum_outbidBy (c := c) (a := a) hid guid g
    show AuctionEntry.account id g k (a.withBid guid price) - AuctionEntry.account id g k a +
      ((outbidBy c k.2 a guid).map fun m => m.account id g).sum = _
    rw [hsum]
    unfold AuctionEntry.account AuctionEntry.withBid AuctionEntry.toPay
    by_cases hg : guid = g
    · subst hg
      by_cases hb : a.bidder = some guid
      · simp [hid, hb]
        omega
      · simp [hid, hb]
    · by_cases hb : a.bidder = some g
      · simp [hid, hb, hg, Ne.symm hg]
      · simp [hb, hg]
  · rw [charge_ne (bidChange_proper hlisted h hreaches) hid, if_neg fun hboth => hid hboth.1]

theorem buyChange_charge (hlisted : Listed w k a) (hbuyout : a.buyout ≠ 0) (id : Nat) (g : Guid) :
    (buyChange c k a guid).charge id g =
      if k.2 = id ∧ guid = g then (a.toPay guid a.buyout : Int) else 0 := by
  by_cases hid : k.2 = id
  · have hlt := hlisted.buyout hbuyout
    have hsum := sum_outbidBy (c := c) (a := a) hid guid g
    have hwon := account_won (a := a.withBid guid a.buyout) hid guid g
    have hsucc : ((a.withBid guid a.buyout).successfulMail c k.2).account id g = 0 :=
      account_other rfl rfl
    have hpending : ((a.withBid guid a.buyout).salePendingMail c k.2).account id g = 0 :=
      account_other rfl rfl
    show 0 - AuctionEntry.account id g k a + ((soldMails c k.2 (a.withBid guid a.buyout) guid ++
      (a.withBid guid a.buyout).salePendingMail c k.2 :: outbidBy c k.2 a guid).map
        fun m => m.account id g).sum = _
    simp only [soldMails, List.map_append, List.map_cons, List.map_nil, List.sum_append,
      List.sum_cons, List.sum_nil, hwon, hsucc, hpending, hsum, add_zero, zero_add]
    unfold AuctionEntry.account AuctionEntry.withBid AuctionEntry.toPay
    by_cases hg : guid = g
    · subst hg
      by_cases hb : a.bidder = some guid
      · simp [hid, hb]
        omega
      · simp [hid, hb]
    · by_cases hb : a.bidder = some g
      · simp [hid, hb, hg, Ne.symm hg]
      · simp [hb, hg]
  · rw [charge_ne (buyChange_proper (w := w)) hid, if_neg fun hboth => hid hboth.1]

theorem cancelChange_charge (hp : (cancelChange c k a).Proper w) (id : Nat) (g : Guid) :
    (cancelChange c k a).charge id g = 0 := by
  by_cases hid : k.2 = id
  · subst hid
    have hcanceled : (a.canceledMail k.2).account k.2 g = 0 := account_other rfl rfl
    show 0 - AuctionEntry.account k.2 g k a +
      ((a.canceledMail k.2 :: cancelled k.2 a).map fun m => m.account k.2 g).sum = 0
    rw [List.map_cons, List.sum_cons, hcanceled]
    unfold AuctionEntry.account cancelled
    cases hb : a.bidder with
    | none => simp
    | some b =>
        have hmail := account_cancelled (a := a) (k := k) rfl b g
        by_cases hg : b = g
        · subst hg
          simp [hmail]
        · simp [hmail, hg]
  · exact charge_ne hp hid

theorem settleChange_charge (hp : (settleChange c k a).Proper w) (id : Nat) (g : Guid) :
    (settleChange c k a).charge id g = 0 := by
  by_cases hid : k.2 = id
  · subst hid
    show 0 - AuctionEntry.account k.2 g k a +
      ((a.bidder.elim [a.expiredMail k.2] (soldMails c k.2 a)).map fun m => m.account k.2 g).sum = 0
    unfold AuctionEntry.account
    cases hb : a.bidder with
    | none =>
        have hexpired : (a.expiredMail k.2).account k.2 g = 0 := account_other rfl rfl
        simp [hexpired]
    | some b =>
        have hwon := account_won (a := a) (k := k) rfl b g
        have hsucc : (a.successfulMail c k.2).account k.2 g = 0 := account_other rfl rfl
        by_cases hg : b = g
        · subst hg
          simp [soldMails, hwon, hsucc]
        · simp [soldMails, hwon, hsucc, hg]
  · exact charge_ne hp hid

end Books

/-! ## Steps and runs -/

section Steps

variable {c : Config} {w w' : World} {charges : Nat → Guid → Int}

/-- Only the purses and sessions of characters differ, and the time. -/
structure SameHouse (w w' : World) : Prop where
  known : ∀ g, w'.Known g ↔ w.Known g
  rest : w' = { w with characters := w'.characters, gameTime := w'.gameTime }

theorem SameHouse.sound (hs : SameHouse w w') (h : Sound w) : Sound w' := by
  rw [hs.rest]
  refine ⟨fun k a ha => ?_, h.oneItem, h.mailed, h.lots⟩
  have hl := h.listed k a ha
  exact ⟨hl.id_lt, (hs.known _).2 hl.owner, fun b hb => (hs.known b).2 (hl.bidder b hb), hl.noBid,
    hl.bid_le, hl.deposit_le, hl.buyout, hl.item⟩

theorem SameHouse.booked (hs : SameHouse w w') (h : Booked w charges) : Booked w' charges := by
  rw [hs.rest]
  exact h

theorem known_insert {guid : Guid} {ch ch' : Character} (hch : w.characters.lookup guid = some ch)
    (g : Guid) : ((w.characters.insert guid ch').lookup g).isSome = true ↔ w.Known g := by
  unfold World.Known
  by_cases hg : g = guid
  · subst hg
    simp only [AList.lookup_insert, hch, Option.isSome_some]
  · rw [AList.lookup_insert_ne hg]

theorem sameHouse_modifyMoney (guid : Guid) (amount : Int) :
    SameHouse w (w.modifyMoney guid amount) := by
  unfold World.modifyMoney
  cases hch : w.characters.lookup guid with
  | none => exact ⟨fun _ => Iff.rfl, rfl⟩
  | some ch => exact ⟨known_insert hch, rfl⟩

theorem sameHouse_setSession (guid : Guid) (session : Option Session) :
    SameHouse w (w.setSession guid session) := by
  unfold World.setSession
  cases hch : w.characters.lookup guid with
  | none => exact ⟨fun _ => Iff.rfl, rfl⟩
  | some ch => exact ⟨known_insert hch, rfl⟩

/-- What settling an auction keeps, the loops over the houses keep. -/
theorem sweeps_rule (P : World → Prop) (ended : AuctionEntry → Bool)
    (hsettle : ∀ w k a, P w → w.auctions.lookup k = some a → ended a = true → P (w.settle c k a))
    (hs : List House) : ∀ w, P w → P (hs.foldl (World.sweep c ended) w) := by
  have hone : ∀ house w id, P w → P (World.sweepOne c ended house w id) := by
    intro house w id hp
    unfold World.sweepOne
    cases ha : w.auctions.lookup (house, id) with
    | none => exact hp
    | some a =>
        simp only []
        split <;> rename_i hended
        · exact hsettle w _ a hp ha hended
        · exact hp
  have hids : ∀ house (ids : List Nat) w, P w → P (ids.foldl (World.sweepOne c ended house) w) := by
    intro house ids
    induction ids with
    | nil => exact fun w hp => hp
    | cons id ids ih => exact fun w hp => ih _ (hone house w id hp)
  induction hs with
  | nil => exact fun w hp => hp
  | cons house hs ih => exact fun w hp => ih _ (hids house _ w hp)

theorem sweeps_spec (ended : AuctionEntry → Bool) (h : Sound w) (hb : Booked w charges) :
    Sound (World.houses.foldl (World.sweep c ended) w) ∧
      Booked (World.houses.foldl (World.sweep c ended) w) charges := by
  refine sweeps_rule (fun w => Sound w ∧ Booked w charges) ended ?_ _ w ⟨h, hb⟩
  rintro w k a ⟨h, hb⟩ ha -
  have hc := settle_changed (c := c) (h.listed k a ha) ha
  have hp := settleChange_proper (c := c) (w := w) (k := k) (a := a)
  refine ⟨h.change hc hp, ?_⟩
  have hbooked := hb.change hc
  simpa only [settleChange_charge hp, add_zero] using hbooked

theorem Sound.lookup_new (h : Sound w) (house : House) :
    w.auctions.lookup (house, w.auctionId) = none := by
  cases ha : w.auctions.lookup (house, w.auctionId) with
  | none => rfl
  | some a => exact absurd (h.listed _ a ha).id_lt (Nat.lt_irrefl _)

/-- An accepted bid is one of the two changes. -/
theorem placeBid_changed (h : Sound w) {r : World.BidRequest} {k : House × Nat} {a : AuctionEntry}
    (hok : w.checkBid c r = .ok (k, a)) :
    ∃ x, Changed w (w.handleAuctionPlaceBid c r).1 x ∧ x.Proper w ∧ x.payer = r.player ∧
      x.paid = a.toPay r.player (a.amount r.price) ∧
      x = (if a.reachesBuyout r.price then buyChange c k a r.player
        else bidChange c k a r.player r.price) ∧
      ∀ id g, x.charge id g = if k.2 = id ∧ r.player = g then (x.paid : Int) else 0 := by
  obtain ⟨hbidding, -⟩ := checkBid_ok hok
  have hlisted := h.listed k a hbidding.lookup
  unfold World.handleAuctionPlaceBid AuctionEntry.amount
  simp only [hok]
  cases hreaches : a.reachesBuyout r.price with
  | true =>
      have hne : a.buyout ≠ 0 := by
        unfold AuctionEntry.reachesBuyout at hreaches
        intro hzero
        simp [hzero] at hreaches
      exact ⟨_, buyOut_changed hlisted hbidding hreaches, buyChange_proper, rfl, rfl, rfl,
        buyChange_charge hlisted hne⟩
  | false =>
      exact ⟨_, bidOn_changed hlisted hbidding, bidChange_proper hlisted hbidding hreaches, rfl, rfl,
        rfl, bidChange_charge hlisted hbidding hreaches⟩

/-- A step keeps the state sound and the books right. -/
theorem step_spec (h : Sound w) (hb : Booked w charges) (op : Op) :
    Sound (step c w op) ∧
      Booked (step c w op) fun id guid => charges id guid + chargedAt c id guid w op := by
  cases op with
  | sell r =>
      simp only [step, chargedAt, add_zero]
      unfold World.handleAuctionSellItem
      cases hok : w.checkSell c r with
      | error reply => exact ⟨h, hb⟩
      | ok found =>
          obtain ⟨house, a⟩ := found
          have hoffered := checkSell_ok hok
          have hc := openAuction_changed hoffered (h.lookup_new house)
          refine ⟨h.change hc (sellChange_proper hoffered), ?_⟩
          have hbooked := hb.change hc
          simpa only [sellChange_charge hoffered.bidder, add_zero] using hbooked
  | bid r =>
      cases hok : w.checkBid c r with
      | error reply =>
          have hsame : step c w (.bid r) = w := by
            simp only [step, World.handleAuctionPlaceBid, hok]
          simp only [chargedAt, hsame, sub_self, ite_self, add_zero]
          exact ⟨h, hb⟩
      | ok found =>
          obtain ⟨k, a⟩ := found
          obtain ⟨x, hc, hp, hpayer, -, -, hcharge⟩ := placeBid_changed h hok
          refine ⟨h.change hc hp, ?_⟩
          have hbooked := hb.change hc
          have hid := (checkBid_ok hok).2
          have hcharged : ∀ id g, chargedAt c id g w (.bid r) = x.charge id g := by
            intro id g
            rw [hcharge, hid]
            show (if r.auctionId = id ∧ r.player = g then
              w.money g - (step c w (.bid r)).money g else 0) = _
            split <;> rename_i hboth
            · have hself : (step c w (.bid r)).money g = w.money g - x.paid := by
                rw [← hboth.2, ← hpayer]
                exact hc.pays.self
              omega
            · rfl
          simp only [hcharged]
          exact hbooked
  | cancel r =>
      simp only [step, chargedAt, add_zero]
      unfold World.handleAuctionRemoveItem
      cases hok : w.checkRemove c r with
      | error reply => exact ⟨h, hb⟩
      | ok found =>
          obtain ⟨k, a⟩ := found
          obtain ⟨hremoving, -⟩ := checkRemove_ok hok
          have hc := cancelAuction_changed (h.listed k a hremoving.lookup) hremoving
          have hp := cancelChange_proper (c := c) (w := w) (k := k) (a := a)
          refine ⟨h.change hc hp, ?_⟩
          have hbooked := hb.change hc
          simpa only [cancelChange_charge hp, add_zero] using hbooked
  | update =>
      simp only [chargedAt, add_zero]
      exact sweeps_spec _ h hb
  | removeAllAuctionsOf owner =>
      simp only [chargedAt, add_zero]
      exact sweeps_spec _ h hb
  | elapse seconds =>
      simp only [chargedAt, add_zero]
      have hs : SameHouse w (step c w (.elapse seconds)) := ⟨fun _ => Iff.rfl, rfl⟩
      exact ⟨hs.sound h, hs.booked hb⟩
  | session guid session =>
      simp only [chargedAt, add_zero]
      have hs := sameHouse_setSession (w := w) guid session
      exact ⟨hs.sound h, hs.booked hb⟩
  | modifyMoney guid amount =>
      simp only [chargedAt, add_zero]
      have hs := sameHouse_modifyMoney (w := w) guid amount
      exact ⟨hs.sound h, hs.booked hb⟩

theorem sound_step (h : Sound w) (op : Op) : Sound (step c w op) := by
  have hb : Booked w (fun id guid => w.heldBid id guid + w.refunded id guid +
    w.pricePaid id guid) := fun _ _ => rfl
  exact (step_spec h hb op).1

theorem run_spec (ops : List Op) : ∀ w charges, Sound w → Booked w charges →
    Sound (run c w ops) ∧
      Booked (run c w ops) fun id guid => charges id guid + charged c id guid w ops := by
  induction ops with
  | nil =>
      intro w charges h hb
      simp only [charged, add_zero]
      exact ⟨h, hb⟩
  | cons op ops ih =>
      intro w charges h hb
      obtain ⟨h', hb'⟩ := step_spec (c := c) h hb op
      obtain ⟨hrun, hbooked⟩ := ih _ _ h' hb'
      refine ⟨hrun, ?_⟩
      simp only [charged, ← add_assoc]
      exact hbooked

end Steps

/-! ## Reading the books -/

section Reading

variable {c : Config} {w : World} {charges : Nat → Guid → Int} {k : House × Nat}
  {a : AuctionEntry}

theorem lots_eq (w : World) (id : Nat) :
    w.lots id = (Ledger.count w.auctions (fun k _ => k.2 = id) : Int) +
      w.mails.countP fun m => m.subject.auctionId = id ∧ m.isWon = true := by
  unfold World.lots World.tally
  rw [Ledger.weigh_ite_eq_count, Ledger.sum_ite_eq_countP]

/-- An open auction was not won. -/
theorem Sound.not_won (h : Sound w) (ha : w.auctions.lookup k = some a) {m : AuctionMail}
    (hm : m ∈ w.mails) (hid : m.subject.auctionId = k.2) : m.isWon = false := by
  have hlots := h.lots k.2
  rw [lots_eq] at hlots
  have hopen := Ledger.count_pos (p := fun k' _ => k'.2 = k.2) ha (decide_eq_true rfl)
  have hnone : w.mails.countP (fun m => m.subject.auctionId = k.2 ∧ m.isWon = true) = 0 := by omega
  have hm := List.countP_eq_zero.1 hnone m hm
  simpa [hid] using hm

/-- Two open auctions have two ids. -/
theorem Sound.oneId (h : Sound w) (ha : w.auctions.lookup k = some a) {k' : House × Nat}
    {a' : AuctionEntry} (ha' : w.auctions.lookup k' = some a') (hid : k'.2 = k.2) : k' = k := by
  have hlots := h.lots k.2
  rw [lots_eq] at hlots
  have hone := Ledger.count_erase ha fun k' _ => k'.2 = k.2
  rw [decide_eq_true rfl, Bool.toNat_true] at hone
  by_contra hne
  have hin : (w.auctions.erase k).lookup k' = some a' := by rwa [AList.lookup_erase_ne hne]
  have hpos := Ledger.count_pos (p := fun k' _ => k'.2 = k.2) hin (decide_eq_true hid)
  omega

/-- For an open auction the bidder was charged his bid, net of what was mailed back. -/
theorem Booked.open_charged (hb : Booked w charges) (h : Sound w)
    (ha : w.auctions.lookup k = some a) (guid : Guid) :
    charges k.2 guid = w.refunded k.2 guid + if a.bidder = some guid then (a.bid : Int) else 0 := by
  have hprice : w.pricePaid k.2 guid = 0 := by
    refine List.sum_eq_zero fun n hn => ?_
    obtain ⟨m, hm, rfl⟩ := List.mem_map.1 hn
    refine if_neg fun hboth => ?_
    simp only [AuctionMail.isFor, Bool.and_eq_true, decide_eq_true_eq] at hboth
    rw [h.not_won ha hm hboth.1.1] at hboth
    cases hboth.2
  have hheld : w.heldBid k.2 guid = if a.bidder = some guid then (a.bid : Int) else 0 := by
    have herase := Ledger.weigh_erase ha
      fun k' a => if k'.2 = k.2 ∧ a.bidder = some guid then (a.bid : Int) else 0
    have hrest : Ledger.weigh (w.auctions.erase k)
        (fun k' a => if k'.2 = k.2 ∧ a.bidder = some guid then (a.bid : Int) else 0) = 0 := by
      refine Ledger.weigh_eq_zero fun k' a' ha' => if_neg fun hboth => ?_
      by_cases hk : k' = k
      · rw [hk, AList.lookup_erase] at ha'
        cases ha'
      · rw [AList.lookup_erase_ne hk] at ha'
        exact hk (h.oneId ha ha' hboth.1)
    unfold World.heldBid
    rw [← herase, hrest]
    simp
  rw [hb k.2 guid, hprice, hheld]
  omega

/-- The winner of an auction was charged its price, net of what was mailed back. -/
theorem Booked.won_charged (hb : Booked w charges) (h : Sound w) {m : AuctionMail}
    (hm : m ∈ w.mails) (hwon : m.isWon = true) :
    charges m.subject.auctionId m.receiver =
      w.refunded m.subject.auctionId m.receiver + m.body.bid := by
  obtain ⟨l₁, l₂, hmails⟩ := List.append_of_mem hm
  have hlots := h.lots m.subject.auctionId
  rw [lots_eq, hmails, List.countP_append, List.countP_cons] at hlots
  simp only [hwon, and_self, decide_true, if_true] at hlots
  have hclosed : Ledger.count w.auctions (fun k _ => k.2 = m.subject.auctionId) = 0 := by omega
  have hheld : w.heldBid m.subject.auctionId m.receiver = 0 := by
    refine Ledger.weigh_eq_zero fun k a ha => if_neg fun hboth => ?_
    exact of_decide_eq_false (Ledger.of_count_eq_zero hclosed ha) hboth.1
  have hnone : ∀ l : List AuctionMail,
      l.countP (fun m' => m'.subject.auctionId = m.subject.auctionId ∧ m'.isWon = true) = 0 →
      (l.map fun m' => if m'.isFor m.subject.auctionId m.receiver && m'.isWon
        then (m'.body.bid : Int) else 0).sum = 0 := by
    intro l hl
    refine List.sum_eq_zero fun n hn => ?_
    obtain ⟨m', hm', rfl⟩ := List.mem_map.1 hn
    have hnot := List.countP_eq_zero.1 hl m' hm'
    refine if_neg fun hboth => hnot ?_
    simp only [AuctionMail.isFor, Bool.and_eq_true, decide_eq_true_eq] at hboth
    exact decide_eq_true ⟨hboth.1.1, hboth.2⟩
  have hprice : w.pricePaid m.subject.auctionId m.receiver = m.body.bid := by
    unfold World.pricePaid
    rw [hmails, List.map_append, List.map_cons, List.sum_append, List.sum_cons,
      hnone l₁ (by omega), hnone l₂ (by omega)]
    simp [AuctionMail.isFor, hwon]
  rw [hb, hheld, hprice]
  omega

end Reading

section Start

variable (c : Config) (time : Nat) (characters : Ledger Guid Character)
  (inventory : ItemGuid → Option Carried)

theorem sound_start : Sound (start time characters inventory) := by
  refine ⟨?_, ?_, ?_, ?_⟩
  · intro k a ha
    cases ha
  · intro k k' a a' ha
    cases ha
  · intro m hm
    cases hm
  · exact fun _ => Int.zero_le_ofNat 1

theorem reachable_spec (ops : List Op) :
    Sound (run c (start time characters inventory) ops) ∧
      Booked (run c (start time characters inventory) ops) fun id guid =>
        charged c id guid (start time characters inventory) ops := by
  have hbooked : Booked (start time characters inventory) fun _ _ => 0 := fun _ _ => rfl
  have hrun := run_spec (c := c) ops _ _ (sound_start time characters inventory) hbooked
  simpa only [zero_add] using hrun

end Start

/-- A character in the world, alone on his account. -/
def inTown (accountId : Nat) (money : Nat) (hid : accountId ≠ 0) (hle : money ≤ maxMoneyAmount) :
    Character :=
  ⟨accountId, hid, some ⟨true, accountId⟩, ⟨money, hle⟩⟩

end Sunstrider.Auctions
