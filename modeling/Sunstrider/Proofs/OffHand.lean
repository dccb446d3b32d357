import Sunstrider.Proofs.PartedStack

/-!
# What is worn and what is in the off hand

Wearing an item adds its units in the one slot that was free for it. A two-handed
weapon that is worn now sends the item in the off hand to the bags, by a plan for as
many units as the stack there has: `bare` is the inventory in between. Where a slot
is asked for 256 of them the plan lists fewer units than there are.
-/

namespace Sunstrider.Inventory

open Lib

/-! ## The slot to wear it in -/

/-- A named slot the search comes back with is free. -/
theorem findEquipSlot_named {mgr : ObjectMgr} {w : Wearer} {o : Objects} {p : Player}
    {proto : ItemTemplate} {slot : Nat} (hslot : slot ≠ nullSlot)
    (hfound : findEquipSlot mgr w o p proto slot false ≠ nullSlot) :
    findEquipSlot mgr w o p proto slot false = slot ∧ p.getOwnItem slot = none := by
  unfold findEquipSlot at hfound ⊢
  dsimp only at hfound ⊢
  rw [if_pos hslot] at hfound ⊢
  split
  · rename_i hfree
    simp only [Bool.false_or, Bool.and_eq_true, Option.isNone_iff_eq_none] at hfree
    exact ⟨rfl, hfree.1⟩
  · rename_i htaken
    rw [if_neg htaken] at hfound
    exact absurd rfl hfound

theorem equipped_of_canEquipItem {mgr : ObjectMgr} {w : Wearer} {o : Objects} {p : Player}
    {slot : Nat} {pItem : ItemRef} {dest : Pos} (hslot : slot ≠ nullSlot)
    (hok : canEquipItem mgr w o p slot pItem false true = .ok dest) :
    dest = ⟨inventorySlotBag0, slot⟩ ∧ p.getOwnItem slot = none := by
  unfold canEquipItem at hok
  dsimp only at hok
  simp only [require_bind_ok] at hok
  obtain ⟨-, -, -, -, -, -, -, hfound, -, -, -, -, hok⟩ := hok
  obtain ⟨hsame, hfree⟩ := findEquipSlot_named hslot hfound
  rw [hsame] at hok
  refine ⟨?_, hfree⟩
  generalize (if ((o.item pItem).template mgr).itemClass = .quiver then
    otherQuiver mgr o p slot false else none) = worn at hok
  cases worn with
  | some pBag =>
      dsimp only at hok
      split at hok <;> cases hok
  | none =>
      simp only [require_bind_ok] at hok
      obtain ⟨-, -, -, hok⟩ := hok
      split at hok
      · rw [require_bind_ok] at hok
        obtain ⟨-, hok⟩ := hok
        exact (Except.ok.inj hok).symm
      · exact (Except.ok.inj hok).symm

namespace Holdings

variable {mgr : ObjectMgr} {h : Holdings} {pos : Pos} {r : ItemRef} {k : Nat}

/-! ## The item that is worn -/

theorem modify_modify (o : Objects) (r : ItemRef) (f g : Item → Item) :
    (o.modify r f).modify r g = o.modify r fun i => g (f i) := by
  unfold Objects.modify
  dsimp only
  rw [Function.update_self, Function.update_idem]

/-- What is worn is put into its slot as if it were stored, but for what binds it. -/
theorem visualizeItem_eq (mgr : ObjectMgr) (h : Holdings) (slot : Nat) (r : ItemRef) :
    ∃ bound : Bool, h.visualizeItem mgr slot r =
      h.placed mgr (h.objects.modify r fun i => { i with soulBound := i.soulBound || bound }) r
        ⟨inventorySlotBag0, slot⟩ := by
  refine ⟨decide (((h.objects.item r).template mgr).bonding = .whenEquiped ∨
    ((h.objects.item r).template mgr).bonding = .whenPickedUp ∨
    ((h.objects.item r).template mgr).bonding = .questItem), ?_⟩
  unfold visualizeItem placed
  rw [if_pos rfl]
  dsimp only
  rw [modify_modify, modify_modify]
  congr 1
  unfold Objects.modify
  congr 2
  unfold Item.bindWhenStored Item.template
  dsimp only
  split
  · rename_i hbinds
    have hbound : ((mgr.proto (h.objects.item r).entry).bonding = .whenEquiped ∨
        (mgr.proto (h.objects.item r).entry).bonding = .whenPickedUp ∨
        (mgr.proto (h.objects.item r).entry).bonding = .questItem) := by
      rcases hbinds with hb | hb | hb
      · exact .inr (.inl hb)
      · exact .inr (.inr hb)
      · exact .inl hb.1
    rw [decide_eq_true hbound, Bool.or_true]
  · rfl

theorem visualizeItem_gains (hf : h.Filed mgr) (hwaits : h.Waits mgr r) {slot : Nat}
    (hslot : isOwnSlot slot = true) (hfree : h.player.getOwnItem slot = none)
    (hempty : ∀ j, (h.objects.item r).bagslot j = none) :
    Gains mgr h ⟨inventorySlotBag0, slot⟩ (h.objects.item r).entry (h.objects.item r).count
      (h.visualizeItem mgr slot r) := by
  obtain ⟨bound, heq⟩ := visualizeItem_eq mgr h slot r
  have hitem : ∀ x, ((h.objects.modify r fun i =>
      { i with soulBound := i.soulBound || bound }).item x).entry = (h.objects.item x).entry ∧
      ((h.objects.modify r fun i =>
        { i with soulBound := i.soulBound || bound }).item x).count = (h.objects.item x).count ∧
      ((h.objects.modify r fun i =>
        { i with soulBound := i.soulBound || bound }).item x).bagslot =
          (h.objects.item x).bagslot := by
    intro x
    rw [modify_item]
    split
    · rename_i hx
      rw [hx]
      exact ⟨rfl, rfl, rfl⟩
    · exact ⟨rfl, rfl, rfl⟩
  rw [heq]
  refine placed_gains hf ⟨hwaits.loose, Nat.le_refl _, hwaits.made, ?_, fun _ => (hitem _).1,
    (hitem r).1, (hitem r).2.1, ?_⟩ hfree (by unfold Storable; rwa [if_pos rfl])
  · intro x _ hx
    rw [modify_item, if_neg hx]
  · intro _ _ j
    rw [(hitem r).2.2]
    exact hempty j

/-! ## The off hand -/

/-- The inventory without the item in a slot of the player. -/
def bare (h : Holdings) (slot : Nat) (r : ItemRef) : Holdings :=
  { h.destroyAlone ⟨inventorySlotBag0, slot⟩ r with removed := h.removed }

theorem removeItem_own {slot : Nat} (hr : h.player.getOwnItem slot = some r) :
    h.removeItem mgr ⟨inventorySlotBag0, slot⟩ = h.bare slot r := by
  have hr' : h.player.getItemByPos mgr h.objects ⟨inventorySlotBag0, slot⟩ = some r := hr
  unfold removeItem bare
  rw [hr', destroyAlone_own rfl]
  rfl

theorem bare_item (h : Holdings) (slot : Nat) (r x : ItemRef) :
    ((h.bare slot r).objects.item x).entry = (h.objects.item x).entry ∧
      ((h.bare slot r).objects.item x).count = (h.objects.item x).count := by
  unfold bare
  rw [destroyAlone_own rfl]
  dsimp only
  rw [modify_item]
  split
  · rename_i hx
    rw [hx]
    exact ⟨rfl, rfl⟩
  · exact ⟨rfl, rfl⟩

theorem next_bare (h : Holdings) (slot : Nat) (r : ItemRef) :
    (h.bare slot r).objects.next = h.objects.next := by
  unfold bare
  rw [destroyAlone_own rfl]
  rfl

section Bare

variable {slot : Nat} (hslot : slot < equipmentSlotEnd)

include hslot

theorem itemAt_bare (q : Pos) : (h.bare slot r).itemAt mgr q =
    if q = ⟨inventorySlotBag0, slot⟩ then none else h.itemAt mgr q := by
  have hat : (h.bare slot r).itemAt mgr q =
      if Hides ⟨inventorySlotBag0, slot⟩ q then none else h.itemAt mgr q :=
    itemAt_destroyAlone_own rfl q
  rw [hat]
  by_cases hq : q = ⟨inventorySlotBag0, slot⟩
  · rw [if_pos (.inl hq), if_pos hq]
  · rw [if_neg hq]
    split
    · rename_i hhides
      have hroot : slot = rootSlot q := by
        rcases hhides with he | he
        · exact absurd he hq
        · exact (Pos.mk.inj he).2
      by_cases hown : q.bag = inventorySlotBag0
      · rw [eq_own hown, rootSlot_own] at hroot
        exact absurd ((eq_own hown).trans (by rw [← hroot])) hq
      · -- there are no contents under what is equipped
        rw [rootSlot_inBag hown] at hroot
        have hq' : q = ⟨slot, q.slot⟩ := by
          cases q
          rw [hroot]
        rw [hq', itemAt_under_equipment h hslot]
    · rfl

variable (hf : h.Filed mgr) (hr : h.player.getOwnItem slot = some r)

include hf

theorem filed_bare : (h.bare slot r).Filed mgr where
  apart hx hx' := by
    rw [itemAt_bare hslot] at hx hx'
    split at hx
    · cases hx
    · split at hx'
      · cases hx'
      · exact hf.apart hx hx'
  made hx := by
    rw [itemAt_bare hslot] at hx
    rw [next_bare]
    split at hx
    · cases hx
    · exact hf.made hx

omit hf in
theorem counted_bare (hcounted : h.Counted mgr) : (h.bare slot r).Counted mgr := by
  intro q x hx
  rw [itemAt_bare hslot] at hx
  obtain ⟨hentry, hcount⟩ := bare_item h slot r x
  unfold Item.template
  rw [hentry, hcount]
  split at hx
  · cases hx
  · exact hcounted q x hx

include hr

variable (mgr) in
/-- The inventory is the bare one and the item in its slot. -/
theorem bare_gains :
    Gains mgr (h.bare slot r) ⟨inventorySlotBag0, slot⟩ (h.objects.item r).entry
      (h.objects.item r).count h where
  filed := hf
  next := Nat.le_of_eq (next_bare h slot r)
  entries _ := (bare_item h slot r _).1.symm
  keeps hx := by
    rw [itemAt_bare hslot] at hx
    split at hx
    · cases hx
    · exact hx
  elsewhere hq := by rw [itemAt_bare hslot, if_neg hq]
  count _ _ := (bare_item h slot r _).2.symm
  units e := by
    have hempty : (h.bare slot r).itemAt mgr ⟨inventorySlotBag0, slot⟩ = none := by
      rw [itemAt_bare hslot, if_pos rfl]
    have hat : h.itemAt mgr ⟨inventorySlotBag0, slot⟩ = some r := hr
    rw [unitsAt_nothing hempty, unitsAt_some hat, Nat.zero_add]
    simp only [eq_comm]

theorem loose_bare : (h.bare slot r).Loose mgr r := by
  intro q hq
  rw [itemAt_bare hslot] at hq
  split at hq
  · cases hq
  · rename_i hne
    exact hne (hf.apart hq hr)

omit hf in
/-- What a position can take it can take with the item out of its slot. -/
theorem takes_bare {R : Pos → Prop} (hR : R pos → pos ≠ ⟨inventorySlotBag0, slot⟩)
    (htakes : Takes mgr h.objects h.player ((h.objects.item r).template mgr) (some r) R pos k) :
    pos ≠ ⟨inventorySlotBag0, slot⟩ ∧
      Takes mgr (h.bare slot r).objects (h.bare slot r).player
        (((h.bare slot r).objects.item r).template mgr) (some r) R pos k := by
  have hat : h.itemAt mgr ⟨inventorySlotBag0, slot⟩ = some r := hr
  have htemplate : ((h.bare slot r).objects.item r).template mgr =
      (h.objects.item r).template mgr := by
    unfold Item.template
    rw [(bare_item h slot r r).1]
  have hne : pos ≠ ⟨inventorySlotBag0, slot⟩ := by
    rcases htakes with ⟨-, hin, -⟩ | ⟨x, hx, -⟩
    · exact hR hin
    · rintro rfl
      have hnone : slotItem mgr h.objects h.player (some r) ⟨inventorySlotBag0, slot⟩ = none :=
        if_pos hat
      rw [hnone] at hx
      cases hx
  have hslotItem : slotItem mgr (h.bare slot r).objects (h.bare slot r).player (some r) pos =
      slotItem mgr h.objects h.player (some r) pos := by
    have hsame : (h.bare slot r).itemAt mgr pos = h.itemAt mgr pos := by
      rw [itemAt_bare hslot, if_neg hne]
    unfold Holdings.itemAt at hsame
    unfold slotItem
    rw [hsame]
  refine ⟨hne, ?_⟩
  unfold Takes at htakes ⊢
  rw [hslotItem, htemplate]
  rcases htakes with hfree | ⟨x, hx, he, hlt, hk⟩
  · exact .inl hfree
  · obtain ⟨hentry, hcount⟩ := bare_item h slot r x
    exact .inr ⟨x, hx, hentry.trans he, by rwa [hcount], by rwa [hcount]⟩

/-- The place of a share, in the inventory without the item. -/
theorem fits_bare
    (htakes : Takes mgr h.objects h.player ((h.objects.item r).template mgr) (some r)
      (admits mgr h.objects h.player ((h.objects.item r).template mgr) ·) pos k) {n : Nat}
    (hn : n ≤ k) :
    Fits mgr (h.bare slot r) r pos n ∧
      (0 < n → (h.bare slot r).Suits mgr (h.objects.item r).entry ⟨pos, n⟩) := by
  have hslots : admits mgr h.objects h.player ((h.objects.item r).template mgr) pos = true →
      pos.bag = inventorySlotBag0 → ¬ isBagSlot pos.slot ∧ equipmentSlotEnd ≤ pos.slot := by
    intro hadm hown
    unfold admits at hadm
    rw [if_pos hown] at hadm
    simp only [Bool.or_eq_true, Bool.and_eq_true, decide_eq_true_eq] at hadm
    simp only [isBagSlot, Bool.or_eq_true, Bool.and_eq_true, decide_eq_true_eq]
    unfold keyringSlotStart keyringSlotEnd inventorySlotItemStart inventorySlotItemEnd at hadm
    unfold inventorySlotBagStart inventorySlotBagEnd bankSlotBagStart bankSlotBagEnd
      equipmentSlotEnd
    omega
  have hadmits : admits mgr h.objects h.player ((h.objects.item r).template mgr) pos = true →
      pos ≠ ⟨inventorySlotBag0, slot⟩ := by
    rintro hadm rfl
    exact Nat.not_le_of_gt hslot (hslots hadm rfl).2
  have hg := bare_gains mgr hslot hf hr
  obtain ⟨hne, htakes⟩ := takes_bare hslot hr hadmits htakes
  have hloose := loose_bare hslot hf hr pos
  have hentry := (bare_item h slot r r).1
  refine ⟨fits_of_takes hloose ?_ ?_ htakes hn, fun hpos => ?_⟩
  · intro hadm
    have hst := storable_of_admits hadm
    unfold Storable at hst ⊢
    split
    · rename_i hown
      rwa [if_pos hown] at hst
    · rename_i hown
      rw [if_neg hown] at hst
      obtain ⟨hbagSlot, b, hb, hlt⟩ := hst
      have hroot : (⟨inventorySlotBag0, pos.bag⟩ : Pos) ≠ ⟨inventorySlotBag0, slot⟩ := by
        intro he
        rw [Pos.mk.injEq] at he
        rw [he.2] at hbagSlot
        simp only [isBagSlot, Bool.or_eq_true, Bool.and_eq_true, decide_eq_true_eq] at hbagSlot
        unfold inventorySlotBagStart inventorySlotBagEnd bankSlotBagStart bankSlotBagEnd at hbagSlot
        unfold equipmentSlotEnd at hslot
        omega
      refine ⟨hbagSlot, b, ?_, ?_⟩
      · exact (hg.elsewhere hroot).symm.trans hb
      · unfold Item.getBagSize Item.isBag Item.template at hlt ⊢
        rwa [(bare_item h slot r b).1]
  · intro hadm hown hbagSlot
    exact absurd hbagSlot (hslots hadm hown).1
  · rw [← hentry]
    exact suits_of_takes hloose htakes hn hpos

/-- The item in a slot is stored away: all of it where no share is cut, and less of it
where one is. -/
theorem stored_away (hcounted : h.Counted mgr)
    (hres : (canStoreItem mgr h.objects h.player ⟨nullBag, nullSlot⟩ r false).res = .ok) :
    let dest := (canStoreItem mgr h.objects h.player ⟨nullBag, nullSlot⟩ r false).dest
    let after := ((h.removeItem mgr ⟨inventorySlotBag0, slot⟩).storeItem mgr dest r).1
    let unclipped := Unclipped mgr h.objects h.player ((h.objects.item r).template mgr) (some r)
      (h.objects.item r).count
    (unclipped → (∀ e, after.unitsIn mgr e positions = h.unitsIn mgr e positions) ∧
      after.Counted mgr) ∧
    (¬ unclipped → after.unitsIn mgr (h.objects.item r).entry positions <
      h.unitsIn mgr (h.objects.item r).entry positions) := by
  intro dest after unclipped
  have hat : h.itemAt mgr ⟨inventorySlotBag0, slot⟩ = some r := hr
  obtain ⟨hpos, hmax⟩ := hcounted _ _ hat
  have hlt := getMaxStackSize_lt ((h.objects.item r).template mgr)
  obtain ⟨shares, hdest, hnodup, hroom, htakes, hclip, hsome⟩ :=
    plan_anywhere hpos (Nat.lt_of_le_of_lt hmax hlt) hres
  have hdest : dest = planOf shares := hdest
  have hentry := (bare_item h slot r r).1
  have hwaits : (h.bare slot r).Waits mgr r :=
    ⟨loose_bare hslot hf hr, (next_bare h slot r) ▸ hf.made hat,
      hentry ▸ known_of_canStoreItem hres⟩
  have hlisted : ∀ d ∈ dest, ∃ e ∈ shares, d.pos = e.1 ∧ d.count = e.2 % 256 := by
    intro d hd
    obtain ⟨e, he, rfl⟩ := List.mem_map.1 (show d ∈ planOf shares from hdest ▸ hd)
    exact ⟨e, he, rfl, rfl⟩
  obtain ⟨hgrows, hcounts⟩ := storeItem_grows dest (filed_bare hslot hf) hwaits
    (by rw [hdest, planOf_pos]; exact hnodup) fun d hd => by
      obtain ⟨e, he, hdpos, hdcount⟩ := hlisted d hd
      rw [hdpos, hdcount]
      exact (fits_bare hslot hf hr (htakes e he) (Nat.mod_le ..)).1
  have hafter : after = ((h.bare slot r).storeItem mgr dest r).1 := by
    show ((h.removeItem mgr _).storeItem mgr dest r).1 = _
    rw [removeItem_own hr]
  rw [← hafter, hentry] at hgrows hcounts
  have hwhole := (bare_gains mgr hslot hf hr).unitsIn_positions (filed_bare hslot hf)
    (mem_positions hat)
  have hsum : (dest.map (·.count)).sum = ((planOf shares).map (·.count)).sum := by
    rw [hdest]
  obtain ⟨hle, hfull⟩ := sum_planOf shares
  refine ⟨fun hun => ⟨fun e => ?_, ?_⟩, fun hclipped => ?_⟩
  · rw [hgrows.units, hwhole, hsum, hfull.2 (hclip.2 hun), hroom]
  · refine hcounts (counted_bare hslot hcounted) fun d hd => ?_
    obtain ⟨e, he, hdpos, hdcount⟩ := hlisted d hd
    have hsmall := hclip.2 hun
    rw [Nat.mod_eq_of_lt (hsmall e he)] at hdcount
    have hd' : d = ⟨e.1, e.2⟩ := by
      cases d
      exact congrArg₂ _ hdpos hdcount
    rw [hd']
    exact (fits_bare hslot hf hr (htakes e he) (Nat.le_refl _)).2 (hsome hsmall e he)
  · have hne : ((planOf shares).map (·.count)).sum ≠ room shares :=
      fun he => hclipped (hclip.1 (hfull.1 he))
    rw [hgrows.units, hwhole, if_pos rfl, if_pos rfl, hsum]
    omega

end Bare

/-- The item in the off hand has to go, and some slot is asked for 256 units of it. -/
def OffhandCut (mgr : ObjectMgr) (h : Holdings) : Prop :=
  ∃ offItem, h.player.getOwnItem equipmentSlotOffhand = some offItem ∧
    holdsTwoHandWeapon mgr h.objects h.player = true ∧
    (canStoreItem mgr h.objects h.player ⟨nullBag, nullSlot⟩ offItem false).res = .ok ∧
    ¬ Unclipped mgr h.objects h.player ((h.objects.item offItem).template mgr) (some offItem)
      (h.objects.item offItem).count

/-- `AutoUnequipOffhandIfNeed` keeps what there is, but for the units a cut share leaves out. -/
theorem autoUnequipOffhandIfNeed_units (hf : h.Filed mgr) (hcounted : h.Counted mgr) :
    (¬ OffhandCut mgr h →
      (∀ e, (h.autoUnequipOffhandIfNeed mgr).unitsIn mgr e positions =
        h.unitsIn mgr e positions) ∧ (h.autoUnequipOffhandIfNeed mgr).Counted mgr) ∧
    (OffhandCut mgr h → ∃ e, (h.autoUnequipOffhandIfNeed mgr).unitsIn mgr e positions <
      h.unitsIn mgr e positions) := by
  cases hoff : h.player.getOwnItem equipmentSlotOffhand with
  | none =>
      have hsame : h.autoUnequipOffhandIfNeed mgr = h := by
        unfold autoUnequipOffhandIfNeed
        rw [hoff]
      rw [hsame]
      refine ⟨fun _ => ⟨fun _ => rfl, hcounted⟩, ?_⟩
      rintro ⟨offItem, hoff', -⟩
      rw [hoff] at hoff'
      cases hoff'
  | some offItem =>
      have hcut : OffhandCut mgr h ↔ holdsTwoHandWeapon mgr h.objects h.player = true ∧
          (canStoreItem mgr h.objects h.player ⟨nullBag, nullSlot⟩ offItem false).res = .ok ∧
          ¬ Unclipped mgr h.objects h.player ((h.objects.item offItem).template mgr) (some offItem)
            (h.objects.item offItem).count := by
        constructor
        · rintro ⟨x, hx, hrest⟩
          rw [hoff] at hx
          cases hx
          exact hrest
        · exact fun hrest => ⟨offItem, hoff, hrest⟩
      rw [hcut]
      unfold autoUnequipOffhandIfNeed
      rw [hoff]
      dsimp only
      split
      · rename_i hhand
        refine ⟨fun _ => ⟨fun _ => rfl, hcounted⟩, fun hcut => ?_⟩
        rw [hcut.1] at hhand
        cases hhand
      · rename_i hhand
        split
        · rename_i hres
          obtain ⟨hwhole, hless⟩ :=
            stored_away (by decide) hf hoff hcounted hres
          refine ⟨fun hnot => hwhole (not_not.1 fun hun => hnot ⟨?_, hres, hun⟩),
            fun hcut => ?_⟩
          · simpa using hhand
          · exact ⟨_, hless hcut.2.2⟩
        · rename_i hres
          exact ⟨fun _ => ⟨fun _ => rfl, hcounted⟩, fun hcut => absurd hcut.2.1 hres⟩

end Holdings

end Sunstrider.Inventory
