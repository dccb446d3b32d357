import Sunstrider.Proofs.AuctionRuns

/-!
# Which bids are accepted

A bid that is taken passes the current bid, by the minimum increment when it does
not reach the buyout, and a winner was charged what he won the auction for. The
handler never looks at the starting bid. An auction keeps its starting bid all the
same once its first bid does, since bids only grow; so the first bid of each
auction decides, and a run is fair exactly if every first bid that the handler
accepts is at least the starting bid.
-/

namespace Sunstrider.Auctions

open Lib Inventory

/-- The request was carried out. -/
def accepted (reply : Reply) : Bool := reply.any (·.error = .ok)

/-- The auction that a bid names. -/
def World.auctionFor (c : Config) (w : World) (r : World.BidRequest) : Option AuctionEntry :=
  r.auctioneer.bind fun faction => w.auctions.lookup (c.getAuctionsMap faction, r.auctionId)

/-- What is asked of an accepted bid. -/
structure FairBid (a : AuctionEntry) (price : Nat) : Prop where
  startbid : a.startbid ≤ a.amount price
  higher : a.bid < a.amount price
  increment : a.reachesBuyout price = false → a.bid + a.getAuctionOutBid ≤ price

/-- An accepted bid is fair, and a rejected request changes nothing. -/
def FairStep (c : Config) (w : World) : Op → Prop
  | .sell r => accepted (w.handleAuctionSellItem c r).2 = false → step c w (.sell r) = w
  | .bid r =>
      (accepted (w.handleAuctionPlaceBid c r).2 = true →
        ∃ a, w.auctionFor c r = some a ∧ FairBid a r.price) ∧
      (accepted (w.handleAuctionPlaceBid c r).2 = false → step c w (.bid r) = w)
  | .cancel r => accepted (w.handleAuctionRemoveItem c r).2 = false → step c w (.cancel r) = w
  | _ => True

def FairSteps (c : Config) (w : World) : List Op → Prop
  | [] => True
  | op :: ops => FairStep c w op ∧ FairSteps c (step c w op) ops

/-- All steps of the run are fair, and who wins an auction was charged its final price, net of
the bids that were mailed back to him. -/
structure Fair (c : Config) (w : World) (ops : List Op) : Prop where
  steps : FairSteps c w ops
  winner : ∀ m ∈ (run c w ops).mails, m.isWon = true →
    charged c m.subject.auctionId m.receiver w ops -
      (run c w ops).refunded m.subject.auctionId m.receiver = m.body.bid

/-- If the step is the first bid on an auction and passes the checks, it is at least the
starting bid. -/
def opOk (c : Config) (w : World) : Op → Bool
  | .bid r =>
      match w.checkBid c r with
      | .error _ => true
      | .ok (_, a) => a.bidder.isSome || a.startbid ≤ a.amount r.price
  | _ => true

def okRun (c : Config) (w : World) : List Op → Bool
  | [] => true
  | op :: ops => opOk c w op && okRun c (step c w op) ops

/-- Every bid is at least the starting bid. -/
def Started (w : World) : Prop :=
  ∀ k a, w.auctions.lookup k = some a → a.bidder.isSome = true → a.startbid ≤ a.bid

section Steps

variable {c : Config} {w w' : World}

variable {k : House × Nat} {a : AuctionEntry} {r : World.BidRequest}

theorem outBid_fits (h : Listed w k a) :
    uint32 (a.bid + a.getAuctionOutBid) = a.bid + a.getAuctionOutBid := by
  have hle := h.bid_le
  unfold maxMoneyAmount at hle
  have hout : a.getAuctionOutBid ≤ a.bid / 100 * 5 + 1 := by
    unfold AuctionEntry.getAuctionOutBid
    simp only []
    split <;> omega
  rw [uint32_of_lt (by omega) (by omega)]
  omega

/-- What passes the checks passes the current bid. -/
theorem Bidding.higher_amount {guid : Guid} {price : Nat} (h : Bidding w k a guid price)
    (hl : Listed w k a) : a.bid < a.amount price := by
  unfold AuctionEntry.amount
  split <;> rename_i hreaches
  · refine hl.buyout ?_
    simp only [AuctionEntry.reachesBuyout, Bool.not_eq_eq_eq_not, Bool.not_true,
      Bool.or_eq_false_iff, decide_eq_false_iff_not] at hreaches
    exact hreaches.2
  · exact h.higher

theorem auctionFor_of_checkBid (hok : w.checkBid c r = .ok (k, a)) : w.auctionFor c r = some a := by
  simp only [World.checkBid, found_bind_ok, require_bind_ok] at hok
  obtain ⟨pl, -, -, faction, hfaction, b, hb, -, -, -, -, -, -, hok⟩ := hok
  cases hok
  unfold World.auctionFor
  rw [hfaction]
  exact hb

/-- No check answers that the bid was accepted. -/
theorem checkBid_rejects : Rejects (fun reply => accepted reply = false) (w.checkBid c r) := by
  refine Rejects.found rfl fun pl => Rejects.require rfl ?_
  refine Rejects.found rfl fun faction => Rejects.found rfl fun a => ?_
  refine Rejects.require rfl (Rejects.require rfl (Rejects.require rfl ?_))
  exact Rejects.require rfl (Rejects.require rfl (Rejects.require rfl (Rejects.ok _)))

theorem fairBid_of (h : Sound w) (hok : w.checkBid c r = .ok (k, a))
    (hstart : a.startbid ≤ a.amount r.price) : FairBid a r.price := by
  obtain ⟨hbidding, -⟩ := checkBid_ok hok
  have hl := h.listed k a hbidding.lookup
  refine ⟨hstart, hbidding.higher_amount hl, fun hreaches => ?_⟩
  have henough := hbidding.enough
  rw [hreaches, outBid_fits hl] at henough
  exact henough.resolve_left Bool.false_ne_true

/-- A step is fair exactly if it is no first bid under the starting bid. -/
theorem fairStep_iff (h : Sound w) (hs : Started w) (op : Op) :
    FairStep c w op ↔ opOk c w op = true := by
  have hsell : ∀ r, FairStep c w (.sell r) := by
    intro r
    simp only [FairStep, step, World.handleAuctionSellItem]
    cases w.checkSell c r with
    | error reply => exact fun _ => rfl
    | ok listing => exact fun hno => by cases hno
  have hcancel : ∀ r, FairStep c w (.cancel r) := by
    intro r
    simp only [FairStep, step, World.handleAuctionRemoveItem]
    cases w.checkRemove c r with
    | error reply => exact fun _ => rfl
    | ok found => exact fun hno => by cases hno
  cases op with
  | sell r => exact ⟨fun _ => rfl, fun _ => hsell r⟩
  | cancel r => exact ⟨fun _ => rfl, fun _ => hcancel r⟩
  | bid r =>
      simp only [FairStep, opOk, step, World.handleAuctionPlaceBid]
      cases hok : w.checkBid c r with
      | error reply =>
          refine ⟨fun _ => rfl, fun _ => ⟨fun hyes => ?_, fun _ => rfl⟩⟩
          rw [checkBid_rejects reply hok] at hyes
          cases hyes
      | ok found =>
          obtain ⟨k, a⟩ := found
          have hfor := auctionFor_of_checkBid hok
          refine ⟨fun hfair => ?_, fun hfirst => ⟨fun _ => ⟨a, hfor, fairBid_of h hok ?_⟩,
            fun hno => by cases hno⟩⟩
          · obtain ⟨b, hb, hbid⟩ := hfair.1 rfl
            cases hfor.symm.trans hb
            simp only [hbid.startbid, decide_true, Bool.or_true]
          · simp only [Bool.or_eq_true, decide_eq_true_eq] at hfirst
            rcases hfirst with hbidder | hle
            · obtain ⟨hbidding, -⟩ := checkBid_ok hok
              have hl := h.listed k a hbidding.lookup
              have hhigher := hbidding.higher_amount hl
              have hstarted := hs k a hbidding.lookup hbidder
              omega
            · exact hle
  | update => exact ⟨fun _ => rfl, fun _ => trivial⟩
  | removeAllAuctionsOf owner => exact ⟨fun _ => rfl, fun _ => trivial⟩
  | elapse seconds => exact ⟨fun _ => rfl, fun _ => trivial⟩
  | session guid session => exact ⟨fun _ => rfl, fun _ => trivial⟩
  | modifyMoney guid amount => exact ⟨fun _ => rfl, fun _ => trivial⟩

theorem Started.change {x : Change} (hs : Started w) (hc : Changed w w' x)
    (hnew : ∀ a, x.new = some a → a.bidder.isSome = true → a.startbid ≤ a.bid) : Started w' := by
  intro k a ha hbidder
  obtain ⟨-, hx⟩ | ⟨-, ha⟩ := hc.lookup_cases ha
  · exact hnew a hx hbidder
  · exact hs k a ha hbidder

theorem started_sweeps (h : Sound w) (hs : Started w) (ended : AuctionEntry → Bool) :
    Started (World.houses.foldl (World.sweep c ended) w) := by
  refine (sweeps_rule (fun w => Sound w ∧ Started w) ended ?_ _ w ⟨h, hs⟩).2
  rintro w k a ⟨h, hs⟩ ha -
  have hc := settle_changed (c := c) (h.listed k a ha) ha
  exact ⟨h.change hc settleChange_proper, hs.change hc fun _ hnew => by cases hnew⟩

/-- Bids only grow, so a step that is no first bid under the starting bid keeps them all at
least at the starting bid. -/
theorem started_step (h : Sound w) (hs : Started w) (op : Op) (hok : opOk c w op = true) :
    Started (step c w op) := by
  cases op with
  | sell r =>
      simp only [step]
      unfold World.handleAuctionSellItem
      cases hsell : w.checkSell c r with
      | error reply => exact hs
      | ok listing =>
          obtain ⟨house, a⟩ := listing
          have hoffered := checkSell_ok hsell
          refine hs.change (openAuction_changed hoffered (h.lookup_new house)) ?_
          rintro b ⟨⟩ hbidder
          rw [hoffered.bidder] at hbidder
          cases hbidder
  | bid r =>
      have hfair := (fairStep_iff h hs (.bid r)).2 hok
      cases hbid : w.checkBid c r with
      | error reply =>
          simp only [step, World.handleAuctionPlaceBid, hbid]
          exact hs
      | ok found =>
          obtain ⟨k, a⟩ := found
          obtain ⟨x, hc, -, -, -, hx, -⟩ := placeBid_changed h hbid
          refine hs.change hc ?_
          have haccepted : accepted (w.handleAuctionPlaceBid c r).2 = true := by
            simp only [World.handleAuctionPlaceBid, hbid]
            rfl
          obtain ⟨b, hb, hfairBid⟩ := hfair.1 haccepted
          cases (auctionFor_of_checkBid hbid).symm.trans hb
          have hstart := hfairBid.startbid
          unfold AuctionEntry.amount at hstart
          rw [hx]
          split <;> rename_i hreaches
          · intro b hnew
            cases hnew
          · rw [if_neg hreaches] at hstart
            rintro b ⟨⟩ -
            exact hstart
  | cancel r =>
      simp only [step]
      unfold World.handleAuctionRemoveItem
      cases hremove : w.checkRemove c r with
      | error reply => exact hs
      | ok found =>
          obtain ⟨k, a⟩ := found
          obtain ⟨hremoving, -⟩ := checkRemove_ok hremove
          exact hs.change (cancelAuction_changed (h.listed k a hremoving.lookup) hremoving)
            fun _ hnew => by cases hnew
  | update => exact started_sweeps h hs _
  | removeAllAuctionsOf owner => exact started_sweeps h hs _
  | elapse seconds => exact hs
  | session guid session =>
      have hsame := sameHouse_setSession (w := w) guid session
      simp only [step]
      rw [hsame.rest]
      exact hs
  | modifyMoney guid amount =>
      have hsame := sameHouse_modifyMoney (w := w) guid amount
      simp only [step]
      rw [hsame.rest]
      exact hs

theorem fairSteps_iff (ops : List Op) : ∀ w, Sound w → Started w →
    (FairSteps c w ops ↔ okRun c w ops = true) := by
  induction ops with
  | nil => exact fun w _ _ => ⟨fun _ => rfl, fun _ => trivial⟩
  | cons op ops ih =>
      intro w h hs
      simp only [FairSteps, okRun, Bool.and_eq_true]
      rw [fairStep_iff h hs op]
      refine and_congr_right fun hok => ?_
      exact ih _ (sound_step h op) (started_step h hs op hok)

end Steps

/-- A run is fair exactly if each first bid that it accepts is at least the starting bid. -/
theorem fair_runs (c : Config) (time : Nat) (characters : Ledger Guid Character)
    (inventory : ItemGuid → Option Carried) (ops : List Op) :
    Fair c (start time characters inventory) ops ↔
      okRun c (start time characters inventory) ops = true := by
  obtain ⟨hsound, hbooked⟩ := reachable_spec c time characters inventory ops
  have hstarted : Started (start time characters inventory) := by
    intro k a ha
    cases ha
  rw [← fairSteps_iff ops _ (sound_start time characters inventory) hstarted]
  refine ⟨Fair.steps, fun hsteps => ⟨hsteps, fun m hm hwon => ?_⟩⟩
  have hcharged := hbooked.won_charged hsound hm hwon
  omega

/-- A neutral house that takes five percent. -/
def neutralHouse : Config where
  twoSideInteraction := true
  factionTemplate := fun _ => none
  auctionHouseStore := fun _ => some ⟨7, 15⟩
  auctionTime := id
  getAuctionDeposit := fun _ _ _ => 20
  auctionCut := fun x => x / 100

/-- A seller and two buyers. -/
def traders : Ledger Guid Character :=
  ((AList.insert 1 (inTown 1 100 (by decide) (by decide))
    (AList.insert 2 (inTown 2 5000 (by decide) (by decide)) ∅))).insert 3
      (inTown 3 5000 (by decide) (by decide))

/-- The seller carries the item 9. -/
def sellersBag (item : ItemGuid) : Option Carried :=
  if item = 9 then some ⟨1, ⟨25, 1, 10, false, 0⟩⟩ else none

/-- The item is offered from 1000 on, and the first bid is one copper. -/
def oneCopper : List Op :=
  [.sell ⟨1, some 12, 9, 1000, 3000, 720, true⟩, .elapse 60, .bid ⟨2, some 12, 1, 1⟩]

theorem oneCopper_unfair : ¬ Fair neutralHouse (start 0 traders sellersBag) oneCopper := by
  intro hfair
  obtain ⟨-, -, hbid, -⟩ := hfair.steps
  obtain ⟨a, ha, hfairBid⟩ := hbid.1 (by decide)
  have hview : ((run neutralHouse (start 0 traders sellersBag) (oneCopper.take 2)).auctionFor
      neutralHouse ⟨2, some 12, 1, 1⟩).map (fun a => (a.startbid, a.amount 1)) = some (1000, 1) := by
    decide
  have hmap : (some a).map (fun a => (a.startbid, a.amount 1)) = some (1000, 1) :=
    (congrArg _ ha).symm.trans hview
  have hpair := Option.some.inj hmap
  have hstart : a.startbid ≤ a.amount 1 := hfairBid.startbid
  simp only [Prod.mk.injEq] at hpair
  omega

end Sunstrider.Auctions
