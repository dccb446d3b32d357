import Sunstrider.Inventory.BuyBack
import Sunstrider.Lib.Runs

/-!
# Which sold item has to go

A ledger is kept beside the player: of each slot the number of the sale whose
item it holds, and the times of all sales in order. While the recorded times
increase, an older time is an earlier sale.

The loop looks for the oldest item among the slots before the first free one. If
all slots are taken that is the oldest of all. If the first slot is free its time
is zero, nothing is older, and the item goes there. In between the search ends in
a taken slot although there is a free one. It is not reached as long as the
current slot is free, which every removal sees to; a sale moves it to the next
slot, whatever is there.
-/

namespace Sunstrider.Inventory

open Lib

/-! ## The search -/

namespace SellingPlayer

variable {player : SellingPlayer}

/-- `m_currentBuybackSlot` is a buyback slot, and a free one has no time. -/
structure Orderly (player : SellingPlayer) : Prop where
  current : player.currentBuybackSlot ∈ buybackSlots
  free : ∀ slot ∈ buybackSlots, player.items slot = none →
    player.buybackTimestamp (slot - buybackSlotStart) = 0

theorem oldestSlot_zero (slots : List Nat) (oldest : Nat) :
    player.oldestSlot slots 0 oldest = oldest := by
  induction slots with
  | nil => rfl
  | cons i slots ih =>
      rw [oldestSlot]
      cases player.items i with
      | none => rfl
      | some pItem => simp [ih]

/-- The search ends in a slot it has found taken. -/
theorem oldestSlot_taken (slots : List Nat) (oldestTime oldest : Nat)
    (htaken : player.items oldest ≠ none) :
    player.items (player.oldestSlot slots oldestTime oldest) ≠ none ∧
      player.oldestSlot slots oldestTime oldest ∈ oldest :: slots := by
  induction slots generalizing oldestTime oldest with
  | nil => exact ⟨htaken, List.mem_singleton.2 rfl⟩
  | cons i slots ih =>
      rw [oldestSlot]
      cases hi : player.items i with
      | none => exact ⟨htaken, List.mem_cons_self⟩
      | some pItem =>
          simp only
          split
          · obtain ⟨hresult, hmem⟩ := ih (player.buybackTimestamp (i - buybackSlotStart)) i
              (by rw [hi]; exact Option.some_ne_none _)
            exact ⟨hresult, List.mem_cons_of_mem _ hmem⟩
          · obtain ⟨hresult, hmem⟩ := ih oldestTime oldest htaken
            refine ⟨hresult, ?_⟩
            rcases List.mem_cons.1 hmem with h | h
            · rw [h]
              exact List.mem_cons_self
            · exact List.mem_cons_of_mem _ (List.mem_cons_of_mem _ h)

/-- Where all are taken it is the oldest of them. -/
theorem oldestSlot_le (slots : List Nat) (oldest : Nat)
    (hfull : ∀ slot ∈ slots, player.items slot ≠ none) (slot : Nat)
    (hslot : slot ∈ oldest :: slots) :
    player.buybackTimestamp
        (player.oldestSlot slots (player.buybackTimestamp (oldest - buybackSlotStart)) oldest -
          buybackSlotStart) ≤
      player.buybackTimestamp (slot - buybackSlotStart) := by
  induction slots generalizing oldest slot with
  | nil =>
      rw [List.mem_singleton.1 hslot]
      exact Nat.le_refl _
  | cons i slots ih =>
      have hrest := fun slot h => hfull slot (List.mem_cons_of_mem _ h)
      rw [oldestSlot]
      cases hi : player.items i with
      | none => exact absurd hi (hfull i List.mem_cons_self)
      | some pItem =>
          simp only
          split
          · rename_i hlt
            rcases List.mem_cons.1 hslot with h | h
            · rw [h]
              exact Nat.le_trans (ih i hrest i List.mem_cons_self) (Nat.le_of_lt hlt)
            · exact ih i hrest slot h
          · rename_i hle
            rcases List.mem_cons.1 hslot with h | h
            · rw [h]
              exact ih oldest hrest oldest List.mem_cons_self
            · rcases List.mem_cons.1 h with h | h
              · rw [h]
                exact Nat.le_trans (ih oldest hrest oldest List.mem_cons_self)
                  (Nat.le_of_not_lt hle)
              · exact ih oldest hrest slot (List.mem_cons_of_mem _ h)

theorem buybackSlots_eq :
    buybackSlots = buybackSlotStart :: slotsFrom (buybackSlotStart + 1) buybackSlotEnd := rfl

theorem start_mem : buybackSlotStart ∈ buybackSlots := List.mem_cons_self

/-- The current slot is taken. -/
theorem slotForSold_of_taken (htaken : player.items player.currentBuybackSlot ≠ none) :
    player.slotForSold = player.oldestSlot (slotsFrom (buybackSlotStart + 1) buybackSlotEnd)
      (player.buybackTimestamp 0) buybackSlotStart := by
  rw [slotForSold]
  cases hitem : player.items player.currentBuybackSlot with
  | none => exact absurd hitem htaken
  | some pItem => rfl

theorem slotForSold_mem (h : player.Orderly) : player.slotForSold ∈ buybackSlots := by
  by_cases hcurrent : player.items player.currentBuybackSlot = none
  · rw [slotForSold, hcurrent]
    exact h.current
  · rw [slotForSold_of_taken hcurrent]
    by_cases hstart : player.items buybackSlotStart = none
    · have htime : player.buybackTimestamp 0 = 0 := h.free _ start_mem hstart
      rw [htime, oldestSlot_zero]
      exact start_mem
    · rw [buybackSlots_eq]
      exact (oldestSlot_taken _ _ _ hstart).2

/-- A free slot is found where the current or the first one is free. -/
theorem slotForSold_free (h : player.Orderly) :
    player.items player.slotForSold = none ↔
      player.items player.currentBuybackSlot = none ∨ player.items buybackSlotStart = none := by
  by_cases hcurrent : player.items player.currentBuybackSlot = none
  · rw [slotForSold, hcurrent]
    simp [hcurrent]
  · rw [slotForSold_of_taken hcurrent]
    by_cases hstart : player.items buybackSlotStart = none
    · have htime : player.buybackTimestamp 0 = 0 := h.free _ start_mem hstart
      rw [htime, oldestSlot_zero]
      simp [hstart]
    · simp [hcurrent, hstart, (oldestSlot_taken _ _ _ hstart).1]

theorem slotForSold_oldest (hfull : ∀ slot ∈ buybackSlots, player.items slot ≠ none)
    (hcurrent : player.currentBuybackSlot ∈ buybackSlots) (slot : Nat)
    (hslot : slot ∈ buybackSlots) :
    player.buybackTimestamp (player.slotForSold - buybackSlotStart) ≤
      player.buybackTimestamp (slot - buybackSlotStart) := by
  rw [slotForSold_of_taken (hfull _ hcurrent)]
  rw [buybackSlots_eq] at hslot hfull
  exact oldestSlot_le _ buybackSlotStart (fun slot h => hfull slot (List.mem_cons_of_mem _ h)) slot
    hslot

/-! ## The two operations -/

theorem mem_buybackSlots {slot : Nat} :
    slot ∈ buybackSlots ↔ buybackSlotStart ≤ slot ∧ slot < buybackSlotEnd := mem_slotsFrom

theorem sub_start_inj {slot other : Nat} (hslot : slot ∈ buybackSlots)
    (hother : other ∈ buybackSlots) :
    slot - buybackSlotStart = other - buybackSlotStart ↔ slot = other := by
  rw [mem_buybackSlots] at hslot hother
  omega

variable {sellPrice : SellPrices} {o : Objects} {slot : Nat} {del : Bool} {base : Int}
  {pItem : ItemRef}

/-- What an emptied slot leaves. -/
theorem removeItemFromBuyBackSlot_spec (player : SellingPlayer) (del : Bool)
    (hslot : slot ∈ buybackSlots) :
    (player.removeItemFromBuyBackSlot slot del).items = Function.update player.items slot none ∧
    (player.removeItemFromBuyBackSlot slot del).buybackTimestamp =
      Function.update player.buybackTimestamp (slot - buybackSlotStart) 0 ∧
    (player.removeItemFromBuyBackSlot slot del).logintime = player.logintime ∧
    (player.removeItemFromBuyBackSlot slot del).removed =
      (match player.items slot with
      | some pItem => if del then pItem :: player.removed else player.removed
      | none => player.removed) ∧
    ((player.removeItemFromBuyBackSlot slot del).currentBuybackSlot = player.currentBuybackSlot ∨
      (player.removeItemFromBuyBackSlot slot del).currentBuybackSlot = slot) := by
  simp only [removeItemFromBuyBackSlot, if_pos (mem_buybackSlots.1 hslot)]
  split
  · exact ⟨rfl, rfl, rfl, rfl, .inr rfl⟩
  · exact ⟨rfl, rfl, rfl, rfl, .inl rfl⟩

theorem removeItemFromBuyBackSlot_outside (hslot : slot ∉ buybackSlots) :
    player.removeItemFromBuyBackSlot slot del = player :=
  if_neg fun h => hslot (mem_buybackSlots.2 h)

theorem addItemToBuyBackSlot_spec (sellPrice : SellPrices) (o : Objects) (base : Int)
    (pItem : ItemRef) (h : player.Orderly) :
    let sold := player.addItemToBuyBackSlot sellPrice o base (some pItem)
    sold.items = Function.update player.items player.slotForSold (some pItem) ∧
    sold.buybackTimestamp = Function.update player.buybackTimestamp
      (player.slotForSold - buybackSlotStart) (player.etime base) ∧
    sold.logintime = player.logintime ∧
    sold.removed = (match player.items player.slotForSold with
      | some evicted => evicted :: player.removed
      | none => player.removed) ∧
    sold.currentBuybackSlot ∈ buybackSlots := by
  have hslot := slotForSold_mem h
  obtain ⟨hitems, htime, hlogin, hremoved, hcurrent⟩ :=
    removeItemFromBuyBackSlot_spec player true hslot
  have hmem : (player.removeItemFromBuyBackSlot player.slotForSold true).currentBuybackSlot ∈
      buybackSlots := by
    rcases hcurrent with heq | heq
    · rw [heq]
      exact h.current
    · rw [heq]
      exact hslot
  refine ⟨?_, ?_, hlogin, ?_, ?_⟩
  · simp only [addItemToBuyBackSlot]
    rw [hitems, Function.update_idem]
  · simp only [addItemToBuyBackSlot]
    rw [htime, Function.update_idem]
    simp only [etime, hlogin]
  · simp only [addItemToBuyBackSlot]
    rw [hremoved]
    cases player.items player.slotForSold with
    | none => rfl
    | some evicted => rfl
  · simp only [addItemToBuyBackSlot]
    rw [mem_buybackSlots] at hmem ⊢
    split <;> omega

theorem Orderly.remove (h : player.Orderly) (slot : Nat) (del : Bool) :
    (player.removeItemFromBuyBackSlot slot del).Orderly := by
  by_cases hslot : slot ∈ buybackSlots
  · obtain ⟨hitems, htime, -, -, hcurrent⟩ :=
      removeItemFromBuyBackSlot_spec player del hslot
    refine ⟨?_, fun other hother hfree => ?_⟩
    · rcases hcurrent with heq | heq
      · rw [heq]
        exact h.current
      · rw [heq]
        exact hslot
    · rw [htime]
      rw [hitems] at hfree
      by_cases heq : other = slot
      · rw [heq, Function.update_self]
      · rw [Function.update_of_ne heq] at hfree
        rw [Function.update_of_ne (mt (sub_start_inj hother hslot).1 heq)]
        exact h.free other hother hfree
  · rw [removeItemFromBuyBackSlot_outside hslot]
    exact h

theorem Orderly.add (h : player.Orderly) :
    (player.addItemToBuyBackSlot sellPrice o base (some pItem)).Orderly := by
  obtain ⟨hitems, htime, -, -, hcurrent⟩ :=
    addItemToBuyBackSlot_spec sellPrice o base pItem h
  refine ⟨hcurrent, fun other hother hfree => ?_⟩
  rw [hitems] at hfree
  by_cases heq : other = player.slotForSold
  · rw [heq, Function.update_self] at hfree
    cases hfree
  · rw [Function.update_of_ne heq] at hfree
    rw [htime, Function.update_of_ne (mt (sub_start_inj hother (slotForSold_mem h)).1 heq)]
    exact h.free other hother hfree

theorem orderly_login (guid : Nat) (items : Nat → Option ItemRef) (logintime : Int) :
    (login guid items logintime).Orderly :=
  ⟨start_mem, fun _ _ _ => rfl⟩

end SellingPlayer

/-! ## The ledger -/

/-- A sale, or an item bought back or deleted. -/
inductive BuyBackCall
  | addItemToBuyBackSlot (base : Int) (pItem : ItemRef)
  | removeItemFromBuyBackSlot (slot : Nat) (del : Bool)

/-- A player and what he has sold when. -/
structure SaleLedger where
  player : SellingPlayer
  /-- Of each slot the number of the sale whose item it holds. -/
  saleOf : Nat → Nat
  /-- The recorded times of all sales. -/
  times : List Nat

namespace SaleLedger

variable {sellPrice : SellPrices} {o : Objects} {ledger : SaleLedger}

/-- Nothing sold yet. -/
def opened (player : SellingPlayer) : SaleLedger := ⟨player, fun _ => 0, []⟩

def step (sellPrice : SellPrices) (o : Objects) (ledger : SaleLedger) :
    BuyBackCall → SaleLedger
  | .addItemToBuyBackSlot base pItem =>
      { player := ledger.player.addItemToBuyBackSlot sellPrice o base (some pItem)
        saleOf := Function.update ledger.saleOf ledger.player.slotForSold ledger.times.length
        times := ledger.times ++ [ledger.player.etime base] }
  | .removeItemFromBuyBackSlot slot del =>
      { ledger with player := ledger.player.removeItemFromBuyBackSlot slot del }

/-- The next sale is recorded with a later time. -/
def Later (ledger : SaleLedger) : BuyBackCall → Prop
  | .addItemToBuyBackSlot base _ => ∀ t ∈ ledger.times, t < ledger.player.etime base
  | .removeItemFromBuyBackSlot _ _ => True

instance decidableLater (ledger : SaleLedger) (call : BuyBackCall) :
    Decidable (ledger.Later call) :=
  match call with
  | .addItemToBuyBackSlot base _ =>
      inferInstanceAs (Decidable (∀ t ∈ ledger.times, t < ledger.player.etime base))
  | .removeItemFromBuyBackSlot _ _ => isTrue trivial

/-- A sale goes to a free slot if there is one; if there is none, the item sold
first of all that are there makes room. -/
def Right (sellPrice : SellPrices) (o : Objects) (ledger : SaleLedger) : BuyBackCall → Prop
  | .addItemToBuyBackSlot base pItem =>
      let player := ledger.player
      let sold := player.addItemToBuyBackSlot sellPrice o base (some pItem)
      ∃ slot ∈ buybackSlots,
        slot = player.slotForSold ∧
        sold.items = Function.update player.items slot (some pItem) ∧
        ((∃ free ∈ buybackSlots, player.items free = none) →
          player.items slot = none ∧ sold.removed = player.removed) ∧
        ((∀ taken ∈ buybackSlots, player.items taken ≠ none) →
          (∃ evicted, player.items slot = some evicted ∧
            sold.removed = evicted :: player.removed) ∧
          ∀ other ∈ buybackSlots, ledger.saleOf slot ≤ ledger.saleOf other)
  | .removeItemFromBuyBackSlot _ _ => True

/-- Where a sale looks first there is room, or there is none at all. -/
def Roomy (ledger : SaleLedger) : BuyBackCall → Prop
  | .addItemToBuyBackSlot _ _ =>
      ledger.player.items ledger.player.currentBuybackSlot = none ∨
      ledger.player.items buybackSlotStart = none ∨
      ∀ slot ∈ buybackSlots, ledger.player.items slot ≠ none
  | .removeItemFromBuyBackSlot _ _ => True

/-- What is in a slot was sold at the time the slot shows. -/
structure Recorded (ledger : SaleLedger) : Prop where
  orderly : ledger.player.Orderly
  sorted : ledger.times.Pairwise (· < ·)
  recorded : ∀ slot ∈ buybackSlots, ledger.player.items slot ≠ none →
    ledger.times[ledger.saleOf slot]? =
      some (ledger.player.buybackTimestamp (slot - buybackSlotStart))

/-- The earlier time is the earlier sale. -/
theorem Recorded.saleOf_le (h : ledger.Recorded) {slot other : Nat}
    (hslot : slot ∈ buybackSlots) (hother : other ∈ buybackSlots)
    (htaken : ledger.player.items slot ≠ none) (hotaken : ledger.player.items other ≠ none)
    (hle : ledger.player.buybackTimestamp (slot - buybackSlotStart) ≤
      ledger.player.buybackTimestamp (other - buybackSlotStart)) :
    ledger.saleOf slot ≤ ledger.saleOf other := by
  have hfirst := h.recorded slot hslot htaken
  have hsecond := h.recorded other hother hotaken
  obtain ⟨hlt, htime⟩ := List.getElem?_eq_some_iff.1 hfirst
  obtain ⟨holt, hotime⟩ := List.getElem?_eq_some_iff.1 hsecond
  by_contra hgt
  have hsorted := List.pairwise_iff_getElem.1 h.sorted _ _ holt hlt (Nat.lt_of_not_le hgt)
  omega

theorem recorded_opened {player : SellingPlayer} (h : player.Orderly)
    (hempty : ∀ slot ∈ buybackSlots, player.items slot = none) : (opened player).Recorded :=
  ⟨h, List.Pairwise.nil, fun slot hslot htaken => absurd (hempty slot hslot) htaken⟩

theorem Recorded.step (h : ledger.Recorded) (call : BuyBackCall) (hlater : ledger.Later call) :
    (ledger.step sellPrice o call).Recorded := by
  cases call with
  | addItemToBuyBackSlot base pItem =>
      obtain ⟨hitems, htime, -, -, -⟩ := SellingPlayer.addItemToBuyBackSlot_spec
        sellPrice o base pItem h.orderly
      refine ⟨h.orderly.add, ?_, fun slot hslot htaken => ?_⟩
      · refine List.pairwise_append.2 ⟨h.sorted, List.pairwise_singleton _ _, ?_⟩
        intro t ht t' ht'
        rw [List.mem_singleton.1 ht']
        exact hlater t ht
      · simp only [SaleLedger.step] at htaken ⊢
        rw [hitems] at htaken
        rw [htime]
        by_cases heq : slot = ledger.player.slotForSold
        · rw [heq, Function.update_self, Function.update_self, List.getElem?_concat_length]
        · rw [Function.update_of_ne heq] at htaken
          have hne := mt (SellingPlayer.sub_start_inj hslot
            (SellingPlayer.slotForSold_mem h.orderly)).1 heq
          rw [Function.update_of_ne heq, Function.update_of_ne hne]
          have hrecorded := h.recorded slot hslot htaken
          rw [List.getElem?_append_left (List.getElem?_eq_some_iff.1 hrecorded).1]
          exact hrecorded
  | removeItemFromBuyBackSlot slot del =>
      refine ⟨h.orderly.remove slot del, h.sorted, fun other hother htaken => ?_⟩
      by_cases hslot : slot ∈ buybackSlots
      · obtain ⟨hitems, htime, -⟩ :=
          SellingPlayer.removeItemFromBuyBackSlot_spec ledger.player del hslot
        simp only [SaleLedger.step] at htaken ⊢
        rw [hitems] at htaken
        have heq : other ≠ slot := by
          intro heq
          rw [heq, Function.update_self] at htaken
          exact htaken rfl
        rw [Function.update_of_ne heq] at htaken
        rw [htime, Function.update_of_ne (mt (SellingPlayer.sub_start_inj hother hslot).1 heq)]
        exact h.recorded other hother htaken
      · simp only [SaleLedger.step] at htaken ⊢
        rw [SellingPlayer.removeItemFromBuyBackSlot_outside hslot] at htaken ⊢
        exact h.recorded other hother htaken

theorem Recorded.right_iff (h : ledger.Recorded) (call : BuyBackCall) :
    Right sellPrice o ledger call ↔ ledger.Roomy call := by
  cases call with
  | removeItemFromBuyBackSlot slot del => exact Iff.rfl
  | addItemToBuyBackSlot base pItem =>
      obtain ⟨hitems, -, -, hremoved, -⟩ := SellingPlayer.addItemToBuyBackSlot_spec
        sellPrice o base pItem h.orderly
      have hmem := SellingPlayer.slotForSold_mem h.orderly
      have hfree := SellingPlayer.slotForSold_free h.orderly
      constructor
      · rintro ⟨slot, -, rfl, -, hroom, -⟩
        by_cases hany : ∃ free ∈ buybackSlots, ledger.player.items free = none
        · rcases hfree.1 (hroom hany).1 with hcurrent | hstart
          · exact .inl hcurrent
          · exact .inr (.inl hstart)
        · exact .inr (.inr fun slot hslot hnone => hany ⟨slot, hslot, hnone⟩)
      · intro hroomy
        refine ⟨_, hmem, rfl, hitems, ?_, ?_⟩
        · rintro ⟨free, hin, hnone⟩
          have hslot : ledger.player.items ledger.player.slotForSold = none := by
            rcases hroomy with hcurrent | hstart | hfull
            · exact hfree.2 (.inl hcurrent)
            · exact hfree.2 (.inr hstart)
            · exact absurd hnone (hfull free hin)
          rw [hslot] at hremoved
          exact ⟨hslot, hremoved⟩
        · intro hfull
          obtain ⟨evicted, hevicted⟩ := Option.ne_none_iff_exists'.1 (hfull _ hmem)
          rw [hevicted] at hremoved
          refine ⟨⟨evicted, hevicted, hremoved⟩, fun other hother => ?_⟩
          exact h.saleOf_le hmem hother (hfull _ hmem) (hfull _ hother)
            (SellingPlayer.slotForSold_oldest hfull h.orderly.current other hother)

/-! ## Runs -/

theorem recorded_login (guid : Nat) (items : Nat → Option ItemRef) (logintime : Int) :
    (opened (SellingPlayer.login guid items logintime)).Recorded :=
  recorded_opened (SellingPlayer.orderly_login guid items logintime)
    fun _ hslot => if_pos hslot

/-- Since the player has logged in, and while the recorded times increase: every
sale takes a free slot if there is one, and else that of the first sale, if and
only if each found its current slot free, or the first one, or none. -/
theorem sales_right_iff (sellPrice : SellPrices) (o : Objects) (guid : Nat)
    (items : Nat → Option ItemRef) (logintime : Int) (calls : List BuyBackCall)
    (hlater : Along (step sellPrice o) Later
      (opened (SellingPlayer.login guid items logintime)) calls) :
    Along (step sellPrice o) (Right sellPrice o)
        (opened (SellingPlayer.login guid items logintime)) calls ↔
      Along (step sellPrice o) Roomy
        (opened (SellingPlayer.login guid items logintime)) calls :=
  Along.congr (fun _ call h hnext => h.step call hnext) (fun _ call h _ => h.right_iff call)
    (recorded_login guid items logintime) hlater

/-- Nobody in particular, who sells items of no particular price. -/
def newSeller : SaleLedger := opened (SellingPlayer.login 1 (fun _ => none) 0)

def plainItem : Item where
  entry := 0
  count := 1
  bagslot _ := none
  slot := 0
  container := none
  owner := 1
  soulBound := false
  lootGenerated := false
  inTrade := false
  gemIds := []

def plainItems : Objects := ⟨fun _ => plainItem, 100⟩

theorem sales_right_iff_once :
    Along (step (fun _ => some 1) plainItems) (Right (fun _ => some 1) plainItems) newSeller
        [.addItemToBuyBackSlot 1 0, .addItemToBuyBackSlot 2 1] ↔
      Along (step (fun _ => some 1) plainItems) Roomy newSeller
        [.addItemToBuyBackSlot 1 0, .addItemToBuyBackSlot 2 1] :=
  sales_right_iff (fun _ => some 1) plainItems 1 (fun _ => none) 0
    [.addItemToBuyBackSlot 1 0, .addItemToBuyBackSlot 2 1]
    ⟨by decide, by decide, trivial⟩

/-- Twelve sales fill the slots, two items are bought back and one is sold. -/
def twelveSoldTwoBack : List BuyBackCall :=
  (List.range 12).map (fun n : Nat => BuyBackCall.addItemToBuyBackSlot n n) ++
    [.removeItemFromBuyBackSlot 77 false, .removeItemFromBuyBackSlot 81 false,
      .addItemToBuyBackSlot 12 12]

set_option maxRecDepth 4096 in
/-- The next sale deletes the item in the first slot, and slot 81 is free. -/
theorem sale_evicts_with_room :
    (newSeller.player.removed = [] ∧
      (twelveSoldTwoBack.foldl (step (fun _ => some 1) plainItems) newSeller).player.removed = [] ∧
      (twelveSoldTwoBack.foldl (step (fun _ => some 1) plainItems) newSeller).player.items 81 =
        none) ∧
    ((twelveSoldTwoBack ++ [BuyBackCall.addItemToBuyBackSlot 13 13]).foldl
      (step (fun _ => some 1) plainItems) newSeller).player.removed = [0] ∧
    ¬ Along (step (fun _ => some 1) plainItems) (Right (fun _ => some 1) plainItems) newSeller
      (twelveSoldTwoBack ++ [.addItemToBuyBackSlot 13 13]) := by
  have hfree : (twelveSoldTwoBack.foldl (step (fun _ => some 1) plainItems)
      newSeller).player.items 81 = none := by decide +kernel
  refine ⟨⟨rfl, by decide +kernel, hfree⟩, by decide +kernel, fun hright => ?_⟩
  obtain ⟨-, hlast, -⟩ := Along.append.1 hright
  obtain ⟨slot, -, rfl, -, hroom, -⟩ := hlast
  have hevicts := (hroom ⟨81, by decide, hfree⟩).1
  revert hevicts
  decide +kernel

end SaleLedger

end Sunstrider.Inventory
