import Sunstrider.Proofs.StoredItems
import Sunstrider.Proofs.CanStoreItem

/-!
# The parted stack

Between the check and the store a split is an inventory that lacks the units, and a
new item in no slot that has them: `parted`. Storing or banking the new item brings
the units back, and so does giving up. A plan for at most 255 units loses nothing
when it lists its shares in eight bits.
-/

namespace Sunstrider.Inventory

open Lib

namespace Holdings

variable {mgr : ObjectMgr} {h h' : Holdings} {pos src : Pos} {r pItem : ItemRef} {k count : Nat}

/-! ## Plans -/

theorem stackable_le (t : ItemTemplate) : t.stackable ≤ t.getMaxStackSize := by
  have := t.stackable_lt
  unfold ItemTemplate.getMaxStackSize
  split <;> omega

theorem getMaxStackSize_lt (t : ItemTemplate) : t.getMaxStackSize < pow32 := by
  have := t.stackable_lt
  unfold ItemTemplate.getMaxStackSize pow32
  split <;> omega

/-- A share that a position can take, or less, has its place there. -/
theorem fits_of_takes (hloose : h.itemAt mgr pos ≠ some pItem) {R : Pos → Prop}
    (hR : R pos → Storable mgr h.objects h.player pos)
    (hempty : R pos → pos.bag = inventorySlotBag0 → isBagSlot pos.slot →
      ∀ j, (h.objects.item pItem).bagslot j = none)
    (htakes : Takes mgr h.objects h.player ((h.objects.item pItem).template mgr) (some pItem) R
      pos k) {n : Nat} (hn : n ≤ k) : Fits mgr h pItem pos n := by
  have hslot : slotItem mgr h.objects h.player (some pItem) pos = h.itemAt mgr pos := if_neg hloose
  unfold Takes at htakes
  rw [hslot] at htakes
  have hmax := stackable_le ((h.objects.item pItem).template mgr)
  have hstack := ((h.objects.item pItem).template mgr).stackable_lt
  rcases htakes with ⟨hpos, hr, hk⟩ | ⟨r, hr, he, -, hk⟩
  · exact .inl ⟨hpos, hR hr, by omega, hempty hr⟩
  · refine .inr ⟨r, hr, he.trans (mgr.itemId_proto _), ?_⟩
    unfold pow32
    omega

theorem suits_of_takes (hloose : h.itemAt mgr pos ≠ some pItem) {R : Pos → Prop}
    (htakes : Takes mgr h.objects h.player ((h.objects.item pItem).template mgr) (some pItem) R
      pos k) {n : Nat} (hn : n ≤ k) (hpos : 0 < n) :
    h.Suits mgr (h.objects.item pItem).entry ⟨pos, n⟩ := by
  have hslot : slotItem mgr h.objects h.player (some pItem) pos = h.itemAt mgr pos := if_neg hloose
  unfold Takes at htakes
  rw [hslot] at htakes
  have hmax := stackable_le ((h.objects.item pItem).template mgr)
  refine ⟨hpos, ?_⟩
  show h.unitsAt mgr _ pos + n ≤ _
  rcases htakes with ⟨hempty, -, hk⟩ | ⟨r, hr, he, -, hk⟩
  · rw [unitsAt_nothing hempty]
    unfold Item.template at *
    omega
  · rw [unitsAt_some hr, if_pos (he.trans (mgr.itemId_proto _))]
    unfold Item.template at *
    omega

/-- What the shares of a plan come to is what it is for, when none is cut. -/
theorem planOf_counts {shares : List (Pos × Nat)} (hsmall : ∀ e ∈ shares, e.2 < 256) :
    (∀ d ∈ planOf shares, ∃ e ∈ shares, d = ⟨e.1, e.2⟩) ∧
      ((planOf shares).map (·.count)).sum = room shares := by
  refine ⟨fun d hd => ?_, (sum_planOf shares).2.2 hsmall⟩
  obtain ⟨e, he, rfl⟩ := List.mem_map.1 hd
  refine ⟨e, he, ?_⟩
  show (⟨e.1, e.2 % 256⟩ : ItemPosCount) = _
  rw [Nat.mod_eq_of_lt (hsmall e he)]

theorem share_le_room {shares : List (Pos × Nat)} {e : Pos × Nat} (he : e ∈ shares) :
    e.2 ≤ room shares := by
  unfold room
  exact List.single_le_sum (by simp) _ (List.mem_map_of_mem he)

/-- The plan for an item that may go anywhere. -/
theorem plan_anywhere (hcount : 0 < (h.objects.item r).count)
    (hlt : (h.objects.item r).count < pow32)
    (hres : (canStoreItem mgr h.objects h.player ⟨nullBag, nullSlot⟩ r false).res = .ok) :
    ∃ shares : List (Pos × Nat),
      (canStoreItem mgr h.objects h.player ⟨nullBag, nullSlot⟩ r false).dest = planOf shares ∧
      (shares.map Prod.fst).Nodup ∧ room shares = (h.objects.item r).count ∧
      (∀ e ∈ shares, Takes mgr h.objects h.player ((h.objects.item r).template mgr) (some r)
        (admits mgr h.objects h.player ((h.objects.item r).template mgr) ·) e.1 e.2) ∧
      ((∀ e ∈ shares, e.2 < 256) ↔ Unclipped mgr h.objects h.player
        ((h.objects.item r).template mgr) (some r) (h.objects.item r).count) ∧
      ((∀ e ∈ shares, e.2 < 256) → ∀ e ∈ shares, 0 < e.2) := by
  obtain ⟨shares', hdest', -, hroom', hshares'⟩ :=
    canStoreItem_plansAll hcount hlt (fun hb => absurd rfl hb) hres
  have haccepts := canStoreItem_accepts hcount hlt (fun hb => absurd rfl hb) hres
  have hout := outcome_of_pos mgr h.objects h.player ((h.objects.item r).template mgr) (some r)
    hcount 0 false
  rw [← haccepts] at hout
  obtain ⟨shares, hdest, hnodup, hroom, htakes, hclip⟩ := hout.shares
  rw [Nat.min_eq_right (hout.res_ok.1 hres).1] at hroom
  refine ⟨shares, hdest, hnodup, hroom, htakes, hclip, fun hsmall e he => ?_⟩
  -- the two lists of shares are listed alike, and neither has a share that is cut
  have hsmall' : ∀ e ∈ shares', e.2 < 256 := by
    rw [← (sum_planOf shares').2, ← hdest', hdest, (sum_planOf shares).2.2 hsmall]
    omega
  have hmem : (⟨e.1, e.2⟩ : ItemPosCount) ∈ planOf shares' := by
    rw [← hdest', hdest]
    refine List.mem_map.2 ⟨e, he, ?_⟩
    show (⟨e.1, e.2 % 256⟩ : ItemPosCount) = _
    rw [Nat.mod_eq_of_lt (hsmall e he)]
  obtain ⟨e', he', heq⟩ := (planOf_counts hsmall').1 _ hmem
  rw [(ItemPosCount.mk.inj heq).2]
  exact (hshares' e' he').2

/-- A plan for a whole item of at most 255 units is carried out to the last of them. -/
theorem storeItem_plansAll (hf : h.Filed mgr) (hwaits : h.Waits mgr pItem)
    (hempty : ∀ j, (h.objects.item pItem).bagslot j = none)
    (hcount : (h.objects.item pItem).count < 256) {dest : List ItemPosCount}
    (hplan : PlansAll mgr h.objects h.player ((h.objects.item pItem).template mgr) pItem
      (h.objects.item pItem).count dest) :
    Grows mgr h (h.objects.item pItem).entry (h.objects.item pItem).count
        (h.storeItem mgr dest pItem).1 ∧
      (h.Counted mgr → (h.storeItem mgr dest pItem).1.Counted mgr) := by
  obtain ⟨shares, rfl, hnodup, hroom, hshares⟩ := hplan
  have hsmall : ∀ e ∈ shares, e.2 < 256 := fun e he => by
    have := share_le_room he
    omega
  obtain ⟨hlisted, hsum⟩ := planOf_counts hsmall
  have hgrows := storeItem_grows (planOf shares) hf hwaits (by rwa [planOf_pos]) fun d hd => by
    obtain ⟨e, he, rfl⟩ := hlisted d hd
    exact fits_of_takes (hwaits.loose _) id (fun _ _ _ => hempty) (hshares e he).1 (Nat.le_refl _)
  rw [hsum, hroom] at hgrows
  refine ⟨hgrows.1, fun hcounted => hgrows.2 hcounted fun d hd => ?_⟩
  obtain ⟨e, he, rfl⟩ := hlisted d hd
  exact suits_of_takes (hwaits.loose _) (hshares e he).1 (Nat.le_refl _) (hshares e he).2

/-! ## The parted stack -/

/-- The inventory with the new item made. -/
def cloned (mgr : ObjectMgr) (h : Holdings) (r : ItemRef) (count : Nat) : Holdings :=
  { h with objects := withClone mgr h.objects r count h.player.guid }

/-- The inventory that lacks the units; the new item is the next reference. -/
def parted (mgr : ObjectMgr) (h : Holdings) (r : ItemRef) (count : Nat) : Holdings :=
  (h.cloned mgr r count).modify r fun i => { i with count := sub32 i.count count }

/-- The checks a split has passed when the new item is made. -/
structure Parts (mgr : ObjectMgr) (h : Holdings) (src : Pos) (count : Nat) (r : ItemRef) :
    Prop where
  stack : h.itemAt mgr src = some r
  asked : 0 < count
  less : count < (h.objects.item r).count
  free : (h.objects.item r).lootGenerated = false
  known : mgr.known (h.objects.item r).entry = true

theorem cloned_old {x : ItemRef} (hx : x < h.objects.next) :
    (h.cloned mgr r count).objects.item x = h.objects.item x := withClone_old _ hx

theorem cloned_new : (h.cloned mgr r count).objects.item h.objects.next =
    cloneOf mgr (h.objects.item r) count h.player.guid := withClone_new _

theorem parted_item (x : ItemRef) : (h.parted mgr r count).objects.item x =
    if x = r then
      { (h.cloned mgr r count).objects.item r with
        count := sub32 ((h.cloned mgr r count).objects.item r).count count }
    else (h.cloned mgr r count).objects.item x := by
  unfold parted Holdings.modify
  dsimp only
  rw [modify_item]

theorem parted_same (x : ItemRef) :
    ((h.parted mgr r count).objects.item x).entry =
        ((h.cloned mgr r count).objects.item x).entry ∧
      ((h.parted mgr r count).objects.item x).bagslot =
        ((h.cloned mgr r count).objects.item x).bagslot := by
  rw [parted_item]
  split
  · rename_i hx
    rw [hx]
    exact ⟨rfl, rfl⟩
  · exact ⟨rfl, rfl⟩

section Parted

variable (hf : h.Filed mgr) (hcounted : h.Counted mgr) (hp : Parts mgr h src count r)

include hf

theorem itemAt_cloned (q : Pos) : (h.cloned mgr r count).itemAt mgr q = h.itemAt mgr q := by
  refine itemAt_congr rfl ?_
  intro b _ hb
  rw [cloned_old (hf.made (itemAt_ownBag hb))]

theorem itemAt_parted (q : Pos) : (h.parted mgr r count).itemAt mgr q = h.itemAt mgr q := by
  rw [← itemAt_cloned hf q]
  apply itemAt_of_same
  · rfl
  · exact parted_same

theorem unitsAt_cloned (e : Nat) (q : Pos) :
    (h.cloned mgr r count).unitsAt mgr e q = h.unitsAt mgr e q := by
  cases hr : h.itemAt mgr q with
  | none => rw [unitsAt_nothing hr, unitsAt_nothing ((itemAt_cloned hf q).trans hr)]
  | some x =>
      rw [unitsAt_some hr, unitsAt_some ((itemAt_cloned hf q).trans hr), cloned_old (hf.made hr)]

theorem filed_parted : (h.parted mgr r count).Filed mgr where
  apart hr hr' := by
    rw [itemAt_parted hf] at hr hr'
    exact hf.apart hr hr'
  made hr := by
    rw [itemAt_parted hf] at hr
    exact Nat.lt_succ_of_lt (hf.made hr)

theorem loose_new : (h.parted mgr r count).Loose mgr h.objects.next := by
  intro q hq
  rw [itemAt_parted hf] at hq
  exact Nat.lt_irrefl _ (hf.made hq)

include hp

theorem parted_new : (h.parted mgr r count).objects.item h.objects.next =
    cloneOf mgr (h.objects.item r) count h.player.guid := by
  rw [parted_item, if_neg, cloned_new]
  exact Nat.ne_of_gt (hf.made hp.stack)

theorem waits_new : (h.parted mgr r count).Waits mgr h.objects.next := by
  refine ⟨loose_new hf, Nat.lt_succ_self _, ?_⟩
  rw [parted_new hf hp]
  exact hp.known

include hcounted

theorem count_parted :
    ((h.parted mgr r count).objects.item r).count = (h.objects.item r).count - count := by
  have hmax := (hcounted src r hp.stack).2
  have hlt := getMaxStackSize_lt ((h.objects.item r).template mgr)
  have hless := hp.less
  rw [parted_item, if_pos rfl]
  show sub32 ((h.cloned mgr r count).objects.item r).count count = _
  rw [cloned_old (hf.made hp.stack)]
  unfold sub32
  unfold pow32 at *
  omega

theorem count_new : ((h.parted mgr r count).objects.item h.objects.next).count = count := by
  have hmax := (hcounted src r hp.stack).2
  have hless := hp.less
  rw [parted_new hf hp]
  exact Nat.min_eq_left (by omega)

theorem counted_parted : (h.parted mgr r count).Counted mgr := by
  intro q x hx
  rw [itemAt_parted hf] at hx
  have hmade := hf.made hx
  have hwas := hcounted q x hx
  unfold Item.template at hwas ⊢
  rw [(parted_same x).1, cloned_old hmade]
  by_cases hxr : x = r
  · subst hxr
    rw [count_parted hf hcounted hp]
    have := hp.less
    omega
  · rw [parted_item, if_neg hxr, cloned_old hmade]
    exact hwas

/-- With the units back the inventory is what it was. -/
theorem cloned_gains :
    Gains mgr (h.parted mgr r count) src (h.objects.item r).entry count (h.cloned mgr r count) := by
  have hmade := hf.made hp.stack
  have hless := hp.less
  refine grown_gains (filed_parted hf) ((itemAt_parted hf src).trans hp.stack) ?_ rfl rfl
    (fun x => ⟨(parted_same x).1.symm, (parted_same x).2.symm⟩) ?_ ?_
  · rw [(parted_same r).1, cloned_old hmade]
  · rw [count_parted hf hcounted hp, cloned_old hmade]
    omega
  · intro q x _ hx
    rw [parted_item, if_neg hx]

theorem unitsIn_parted (e : Nat) :
    (h.parted mgr r count).unitsIn mgr e positions +
        (if e = (h.objects.item r).entry then count else 0) = h.unitsIn mgr e positions := by
  rw [← (cloned_gains hf hcounted hp).unitsIn_positions (filed_parted hf)
    (mem_positions hp.stack)]
  exact unitsIn_congr fun q _ => unitsAt_cloned hf e q

end Parted

/-! ## What a split is to do -/

/-- A refused request leaves the inventory as it was and no new item. -/
structure Restored (h h' : Holdings) : Prop where
  player : h'.player = h.player
  items : ∀ {x}, x < h.objects.next → h'.objects.item x = h.objects.item x
  kept : ∀ {x}, x < h.objects.next → h'.removed x = h.removed x
  discarded : ∀ {x}, h.objects.next ≤ x → x < h'.objects.next → h'.removed x = true

/-- The units of every entry are still there, in stacks of a size their template allows;
on an error nothing has happened. -/
structure SplitRightly (mgr : ObjectMgr) (h : Holdings) (a : Holdings × Option InventoryResult) :
    Prop where
  conserved : ∀ entry, a.1.unitsIn mgr entry positions = h.unitsIn mgr entry positions
  stacked : a.1.Counted mgr
  refused : a.2 ≠ none → Restored h a.1

theorem Restored.itemAt (hr : Restored h h') (hf : h.Filed mgr) (q : Pos) :
    h'.itemAt mgr q = h.itemAt mgr q := by
  refine itemAt_congr (by rw [hr.player]) ?_
  intro b _ hb
  rw [hr.items (hf.made (itemAt_ownBag hb))]

/-- Nothing lost. -/
theorem splitRightly_of_restored (hr : Restored h h') (hf : h.Filed mgr)
    (hcounted : h.Counted mgr) (msg : Option InventoryResult) : SplitRightly mgr h (h', msg) where
  conserved e := by
    refine unitsIn_congr fun q _ => ?_
    cases hx : h.itemAt mgr q with
    | none => rw [unitsAt_nothing hx, unitsAt_nothing ((hr.itemAt hf q).trans hx)]
    | some x =>
        rw [unitsAt_some hx, unitsAt_some ((hr.itemAt hf q).trans hx), hr.items (hf.made hx)]
  stacked := by
    intro q x hx
    rw [hr.itemAt hf] at hx
    rw [hr.items (hf.made hx)]
    exact hcounted q x hx
  refused _ := hr

section Refused

variable (hf : h.Filed mgr) (hcounted : h.Counted mgr) (hp : Parts mgr h src count r)

include hf hcounted hp

/-- Where the check refuses, the stack gets its units back and the new item is deleted. -/
theorem restored_unsplit (msg : InventoryResult) :
    Restored h ((h.parted mgr r count).unsplit r h.objects.next count msg).1 := by
  have hitem : ∀ x, ((h.parted mgr r count).unsplit r h.objects.next count msg).1.objects.item x =
      if x = r then
        { (h.parted mgr r count).objects.item r with
          count := add32 ((h.parted mgr r count).objects.item r).count count }
      else (h.parted mgr r count).objects.item x := by
    intro x
    unfold unsplit Holdings.modify
    dsimp only
    rw [modify_item]
  have hremoved : ((h.parted mgr r count).unsplit r h.objects.next count msg).1.removed =
      Function.update h.removed h.objects.next true := rfl
  refine ⟨rfl, ?_, ?_, ?_⟩
  · intro x hx
    rw [hitem]
    split
    · rename_i hxr
      have hsum : add32 ((h.objects.item r).count - count) count = (h.objects.item r).count := by
        have hmax := (hcounted src r hp.stack).2
        have hlt := getMaxStackSize_lt ((h.objects.item r).template mgr)
        have hless := hp.less
        unfold add32
        unfold pow32 at *
        omega
      rw [count_parted hf hcounted hp, hsum, parted_item, if_pos rfl, cloned_old (hxr ▸ hx), hxr]
    · rename_i hxr
      rw [parted_item, if_neg hxr, cloned_old hx]
  · intro x hx
    rw [hremoved, Function.update_of_ne (Nat.ne_of_lt hx)]
  · intro x hold hnew
    have hx : x = h.objects.next := Nat.le_antisymm (Nat.le_of_lt_succ hnew) hold
    rw [hremoved, hx, Function.update_self]

/-- What brings the units back is right. -/
theorem splitRightly_of_grows
    (hgrows : Grows mgr (h.parted mgr r count) (h.objects.item r).entry count h')
    (hcounted' : h'.Counted mgr) : SplitRightly mgr h (h', none) where
  conserved e := by
    rw [← unitsIn_parted hf hcounted hp e]
    exact hgrows.units e
  stacked := hcounted'
  refused hmsg := absurd rfl hmsg

/-- The new item is stored, or banked. -/
theorem splitRightly_store (hcount : count < 256) {dest : List ItemPosCount}
    (hplan : PlansAll mgr (h.parted mgr r count).objects (h.parted mgr r count).player
      (((h.parted mgr r count).objects.item h.objects.next).template mgr) h.objects.next
      ((h.parted mgr r count).objects.item h.objects.next).count dest) :
    SplitRightly mgr h (((h.parted mgr r count).storeItem mgr dest h.objects.next).1, none) := by
  have hnew := parted_new hf hp
  have hsize := count_new hf hcounted hp
  obtain ⟨hgrows, hkeeps⟩ := storeItem_plansAll (filed_parted hf) (waits_new hf hp)
    (fun j => by rw [hnew]; rfl) (by omega) hplan
  rw [hsize, hnew] at hgrows
  exact splitRightly_of_grows hf hcounted hp hgrows (hkeeps (counted_parted hf hcounted hp))

end Refused

end Holdings

end Sunstrider.Inventory
