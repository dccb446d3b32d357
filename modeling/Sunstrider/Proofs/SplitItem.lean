import Sunstrider.Proofs.OffHand
import Sunstrider.Proofs.DestroyedUnits

/-!
# What a split does to the units

Whichever of the three kinds of position the part goes to, it is either accepted, and
the units are back with it, or refused, and the inventory is restored. Only the units
of another item may be lost, those in the off hand of someone who wears the part.
-/

namespace Sunstrider.Inventory

namespace Holdings

variable {mgr : ObjectMgr} {h : Holdings} {src : Pos} {r : ItemRef} {count : Nat}

/-! ## The request -/

/-- The request passes what the handler looks at. -/
structure Accepted (mgr : ObjectMgr) (h : Holdings) (src dst : Pos) : Prop where
  moves : src ≠ dst
  src : h.player.isValidPos mgr h.objects src = true
  dst : h.player.isValidPos mgr h.objects dst = true

/-- The inventory with the new item worn. -/
def worn (mgr : ObjectMgr) (h : Holdings) (r : ItemRef) (count slot : Nat) : Holdings :=
  (h.parted mgr r count).visualizeItem mgr slot h.objects.next

/-- The new item is worn, and what has to leave the off hand for it loses units. -/
def LosesOffhand (mgr : ObjectMgr) (w : Wearer) (h : Holdings) (src dst : Pos) (count : Nat) :
    Prop :=
  Accepted mgr h src dst ∧ ∃ r, Parts mgr h src count r ∧ dst.isEquipmentPos = true ∧
    (∃ dest, canEquipItem mgr w (h.parted mgr r count).objects (h.parted mgr r count).player
      dst.slot h.objects.next false true = .ok dest) ∧
    OffhandCut mgr (h.worn mgr r count dst.slot)

section Request

variable {w : Wearer} {dst : Pos}
variable (hf : h.Filed mgr) (hcounted : h.Counted mgr) (hp : Parts mgr h src count r)

include hf hcounted hp

theorem worn_right (hdst : dst.isEquipmentPos = true)
    (hfree : (h.parted mgr r count).player.getOwnItem dst.slot = none) :
    (h.worn mgr r count dst.slot).Filed mgr ∧ (h.worn mgr r count dst.slot).Counted mgr ∧
      ∀ e, (h.worn mgr r count dst.slot).unitsIn mgr e positions = h.unitsIn mgr e positions := by
  have hslot : isOwnSlot dst.slot = true := by
    simp only [Pos.isEquipmentPos, Bool.or_eq_true, Bool.and_eq_true, decide_eq_true_eq] at hdst
    simp only [isOwnSlot, Bool.or_eq_true, Bool.and_eq_true, decide_eq_true_eq]
    unfold equipmentSlotEnd inventorySlotBagStart inventorySlotBagEnd at hdst
    unfold bankSlotBagEnd
    omega
  have hnew := parted_new hf hp
  have hsize := count_new hf hcounted hp
  have hg := visualizeItem_gains (filed_parted hf) (waits_new hf hp) hslot hfree
    (fun j => by rw [hnew]; rfl)
  rw [hsize, hnew] at hg
  have hempty : (h.parted mgr r count).itemAt mgr ⟨inventorySlotBag0, dst.slot⟩ = none := hfree
  have hmax := (hcounted src r hp.stack).2
  have hless := hp.less
  have hroom : (h.parted mgr r count).unitsAt mgr (h.objects.item r).entry
      ⟨inventorySlotBag0, dst.slot⟩ + count ≤
        (mgr.proto (h.objects.item r).entry).getMaxStackSize := by
    rw [unitsAt_nothing hempty]
    unfold Item.template at hmax
    omega
  refine ⟨hg.filed, hg.counted (filed_parted hf) (counted_parted hf hcounted hp) hp.asked hroom,
    fun e => ?_⟩
  have hpos : (⟨inventorySlotBag0, dst.slot⟩ : Pos) ∈ positions :=
    mem_positions_of_storable (show Storable mgr h.objects h.player _ by
      unfold Storable
      rwa [if_pos rfl])
  rw [← unitsIn_parted hf hcounted hp e]
  exact hg.unitsIn_positions (filed_parted hf) hpos e

/-- Behind the check the new item is worn and the off hand looked after. -/
theorem splitRightly_worn_iff (hdst : dst.isEquipmentPos = true) {dest : Pos}
    (hok : canEquipItem mgr w (h.parted mgr r count).objects (h.parted mgr r count).player
      dst.slot h.objects.next false true = .ok dest) :
    SplitRightly mgr h
        ((((h.parted mgr r count).equipItem mgr dest h.objects.next).autoUnequipOffhandIfNeed mgr),
          none) ↔
      ¬ OffhandCut mgr (h.worn mgr r count dst.slot) := by
  have hslot : dst.slot ≠ nullSlot := by
    simp only [Pos.isEquipmentPos, Bool.or_eq_true, Bool.and_eq_true, decide_eq_true_eq] at hdst
    unfold equipmentSlotEnd inventorySlotBagStart inventorySlotBagEnd at hdst
    unfold nullSlot
    omega
  obtain ⟨rfl, hfree⟩ := equipped_of_canEquipItem hslot hok
  have hequip : (h.parted mgr r count).equipItem mgr ⟨inventorySlotBag0, dst.slot⟩
      h.objects.next = h.worn mgr r count dst.slot := by
    have hnone : (h.parted mgr r count).player.getItemByPos mgr (h.parted mgr r count).objects
        ⟨inventorySlotBag0, dst.slot⟩ = none := hfree
    unfold equipItem worn
    rw [hnone]
  obtain ⟨hfiled, hstacked, hunits⟩ := worn_right hf hcounted hp hdst hfree
  obtain ⟨hkeeps, hloses⟩ := autoUnequipOffhandIfNeed_units hfiled hstacked
  rw [hequip]
  constructor
  · intro hright hcut
    obtain ⟨e, hless⟩ := hloses hcut
    have := hright.conserved e
    rw [← hunits e] at this
    exact Nat.ne_of_lt hless this
  · intro hcut
    obtain ⟨hsame, hcounted'⟩ := hkeeps hcut
    exact ⟨fun e => (hsame e).trans (hunits e), hcounted', fun hmsg => absurd rfl hmsg⟩

omit hcounted hp in
/-- Every place that was there is still there. -/
theorem isValidPos_parted (hvalid : h.player.isValidPos mgr h.objects dst = true) :
    (h.parted mgr r count).player.isValidPos mgr (h.parted mgr r count).objects dst = true := by
  have hplayer : (h.parted mgr r count).player = h.player := rfl
  unfold Player.isValidPos at hvalid ⊢
  rw [hplayer]
  cases hb : h.player.getOwnItem dst.bag with
  | none =>
      rw [hb] at hvalid
      exact hvalid
  | some b =>
      have hmade : b < h.objects.next := hf.made (itemAt_ownBag hb)
      have hsize : ((h.parted mgr r count).objects.item b).getBagSize mgr =
          (h.objects.item b).getBagSize mgr := by
        unfold Item.getBagSize Item.isBag Item.template
        rw [(parted_same b).1, cloned_old hmade]
      rw [hb] at hvalid
      dsimp only at hvalid ⊢
      rwa [hsize]

/-- What `SplitItem` does once the new item is made. -/
theorem splitItem_parted_iff (hcount : count < 256)
    (hvalid : h.player.isValidPos mgr h.objects dst = true) :
    SplitRightly mgr h (h.splitItem mgr w src dst count) ↔
      ¬ (dst.isEquipmentPos = true ∧
        (∃ dest, canEquipItem mgr w (h.parted mgr r count).objects (h.parted mgr r count).player
          dst.slot h.objects.next false true = .ok dest) ∧
        OffhandCut mgr (h.worn mgr r count dst.slot)) := by
  have hstack : h.player.getItemByPos mgr h.objects src = some r := hp.stack
  have hless := hp.less
  have hclone : h.objects.cloneItem mgr r count h.player.guid =
      some (withClone mgr h.objects r count h.player.guid, h.objects.next) :=
    cloneItem_eq _ hp.known hp.asked
  have hsize := count_new hf hcounted hp
  have hrefuse := fun msg => splitRightly_of_restored (restored_unsplit hf hcounted hp msg) hf
    hcounted (some msg)
  have hparted : Holdings.modify { h with objects := withClone mgr h.objects r count h.player.guid }
      r (fun i => { i with count := sub32 i.count count }) = h.parted mgr r count := rfl
  unfold splitItem
  rw [hstack]
  dsimp only
  rw [if_neg (by omega), if_neg (by omega), if_neg (by simp [hp.free]), hclone]
  dsimp only
  rw [hparted]
  by_cases hinv : dst.isInventoryPos = true
  · have hnot : ¬ dst.isEquipmentPos = true := by
      simp only [Pos.isInventoryPos, Pos.isEquipmentPos, Bool.or_eq_true, Bool.and_eq_true,
        decide_eq_true_eq] at hinv ⊢
      unfold inventorySlotBag0 nullSlot inventorySlotItemStart inventorySlotItemEnd
        inventorySlotBagStart inventorySlotBagEnd keyringSlotStart keyringSlotEnd at *
      unfold equipmentSlotEnd
      omega
    rw [if_pos hinv]
    refine iff_of_true ?_ fun hworn => hnot hworn.1
    split
    · exact hrefuse _
    · rename_i hres
      refine splitRightly_store hf hcounted hp hcount (canStoreItem_plansAll ?_ ?_ ?_ ?_)
      · rw [hsize]
        exact hp.asked
      · rw [hsize]
        unfold pow32
        omega
      · intro _ hown
        simp only [Pos.isInventoryPos, Bool.or_eq_true, Bool.and_eq_true,
          decide_eq_true_eq] at hinv
        omega
      · exact not_not.1 hres
  · rw [if_neg hinv]
    by_cases hbank : dst.isBankPos = true
    · have hnot : ¬ dst.isEquipmentPos = true := by
        simp only [Pos.isBankPos, Pos.isEquipmentPos, Bool.or_eq_true, Bool.and_eq_true,
          decide_eq_true_eq] at hbank ⊢
        unfold inventorySlotBag0 bankSlotItemStart bankSlotItemEnd bankSlotBagStart
          bankSlotBagEnd at *
        unfold equipmentSlotEnd inventorySlotBagStart inventorySlotBagEnd
        omega
      rw [if_pos hbank]
      refine iff_of_true ?_ fun hworn => hnot hworn.1
      split
      · exact hrefuse _
      · rename_i hres
        refine splitRightly_store hf hcounted hp hcount (canBankItem_plansAll ?_ hbank ?_ ?_)
        · rw [hsize]
          exact hp.asked
        · exact isValidPos_parted hf hvalid
        · exact not_not.1 hres
    · rw [if_neg hbank]
      by_cases hequip : dst.isEquipmentPos = true
      · rw [if_pos hequip]
        split
        · rename_i msg herr
          refine iff_of_true (hrefuse msg) ?_
          rintro ⟨-, ⟨dest, hok⟩, -⟩
          rw [herr] at hok
          cases hok
        · rename_i dest hok
          rw [splitRightly_worn_iff hf hcounted hp hequip hok]
          refine not_congr ⟨fun hcut => ⟨hequip, ⟨dest, hok⟩, hcut⟩, ?_⟩
          exact fun hworn => hworn.2.2
      · rw [if_neg hequip]
        refine iff_of_true ?_ fun hworn => hequip hworn.1
        -- a position in bag 0: the new item is made and left alone
        refine ⟨fun e => unitsIn_congr fun q _ => unitsAt_cloned hf e q, ?_,
          fun hmsg => absurd rfl hmsg⟩
        intro q x hx
        have hx' : h.itemAt mgr q = some x := (itemAt_cloned hf q).symm.trans hx
        have hmade := hf.made hx'
        show 0 < ((h.cloned mgr r count).objects.item x).count ∧
          ((h.cloned mgr r count).objects.item x).count ≤
            (((h.cloned mgr r count).objects.item x).template mgr).getMaxStackSize
        rw [cloned_old hmade]
        exact hcounted q x hx'

omit hcounted hp in
/-- A request that gets no further than the checks does nothing. -/
theorem splitRightly_nothing (hcounted : h.Counted mgr) (msg : Option InventoryResult) :
    SplitRightly mgr h (h, msg) := by
  refine splitRightly_of_restored ⟨rfl, fun _ => rfl, fun _ => rfl, ?_⟩ hf hcounted msg
  intro x hold hnew
  exact absurd hnew (Nat.not_lt_of_ge hold)

omit hf hcounted hp in
/-- For every request the handler accepts, `SplitItem` does nothing at all, or a stack is
parted. -/
theorem splitItem_parts (w : Wearer) (dst : Pos) (hcount : 0 < count) :
    (∃ msg, h.splitItem mgr w src dst count = (h, msg) ∧ ∀ r, ¬ Parts mgr h src count r) ∨
      ∃ r, Parts mgr h src count r := by
  by_cases hparts : ∃ r, Parts mgr h src count r
  · exact .inr hparts
  · refine .inl ?_
    have hnone : ∀ r, ¬ Parts mgr h src count r := fun r hr => hparts ⟨r, hr⟩
    unfold splitItem
    cases hstack : h.player.getItemByPos mgr h.objects src with
    | none => exact ⟨_, rfl, hnone⟩
    | some r =>
        dsimp only
        split
        · exact ⟨_, rfl, hnone⟩
        · rename_i hall
          split
          · exact ⟨_, rfl, hnone⟩
          · rename_i hmore
            split
            · exact ⟨_, rfl, hnone⟩
            · rename_i hfree
              have hunknown : mgr.getItemTemplate (h.objects.item r).entry = none := by
                refine if_neg fun hknown => hnone r ⟨hstack, hcount, by omega, ?_, hknown⟩
                simpa using hfree
              have hclone : h.objects.cloneItem mgr r count h.player.guid = none := by
                unfold Objects.cloneItem
                rw [if_neg (by omega), hunknown]
              rw [hclone]
              exact ⟨_, rfl, hnone⟩

end Request

/-- For every request with a count of eight bits, `SplitItem` keeps the units of every
entry in stacks of a proper size, and undoes what an error refuses, exactly when no off
hand loses units to it. -/
theorem handleSplitItemOpcode_right_iff (mgr : ObjectMgr) (w : Wearer) (h : Holdings)
    (src dst : Pos) (count : Nat) (hcount : count < 256) (hf : h.Filed mgr)
    (hcounted : h.Counted mgr) :
    SplitRightly mgr h (h.handleSplitItemOpcode mgr w src dst count) ↔
      ¬ LosesOffhand mgr w h src dst count := by
  unfold handleSplitItemOpcode
  split
  · rename_i hsame
    exact iff_of_true (splitRightly_nothing hf hcounted _) fun hloses => hloses.1.moves hsame
  · rename_i hmoves
    split
    · rename_i hzero
      refine iff_of_true (splitRightly_nothing hf hcounted _) ?_
      rintro ⟨-, r, hp, -⟩
      exact absurd hzero (Nat.ne_of_gt hp.asked)
    · rename_i hasked
      split
      · rename_i hsrc
        refine iff_of_true (splitRightly_nothing hf hcounted _) fun hloses => ?_
        rw [hloses.1.src] at hsrc
        cases hsrc
      · rename_i hsrc
        split
        · rename_i hdst
          refine iff_of_true (splitRightly_nothing hf hcounted _) fun hloses => ?_
          rw [hloses.1.dst] at hdst
          cases hdst
        · rename_i hdst
          have hsrc : h.player.isValidPos mgr h.objects src = true := by simpa using hsrc
          have hdst : h.player.isValidPos mgr h.objects dst = true := by simpa using hdst
          rcases splitItem_parts w dst (Nat.pos_of_ne_zero hasked)
            with ⟨msg, heq, hnone⟩ | ⟨r, hp⟩
          · rw [heq]
            refine iff_of_true (splitRightly_nothing hf hcounted _) ?_
            rintro ⟨-, r, hp, -⟩
            exact hnone r hp
          · rw [splitItem_parted_iff hf hcounted hp hcount hdst]
            refine not_congr ⟨fun hworn => ⟨⟨hmoves, hsrc, hdst⟩, r, hp, hworn⟩, ?_⟩
            rintro ⟨-, r', hp', hworn⟩
            obtain rfl : r' = r := Option.some.inj (hp'.stack.symm.trans hp.stack)
            exact hworn

/-! ## Two requests -/

/-- Someone who can use and wear everything. -/
def able : Wearer where
  hasUnitStateStunned := false
  isCharmed := false
  isInCombat := false
  isArenaInProgress := false
  weaponChangeTimer := 0
  canDualWield := true
  pClass := .other
  bankBagSlotCount := 0
  canUseItem := fun _ => .ok

theorem filed_fiveUnits : (fiveUnits false).Filed plainMgr where
  apart := (wellKept_fiveUnits false).apart
  made hr := by
    have hpos := itemAt_fiveUnits hr
    rw [hpos] at hr
    have hzero : (fiveUnits false).itemAt plainMgr ⟨inventorySlotBag0, 23⟩ = some 0 := rfl
    rw [hzero] at hr
    cases hr
    exact Nat.zero_lt_one

theorem counted_fiveUnits : (fiveUnits false).Counted plainMgr := fun _ _ _ =>
  ⟨show 0 < 5 by decide, show 5 ≤ (plainProto 7).getMaxStackSize by decide⟩

/-- Two of five units, to the next slot of the backpack. -/
theorem handleSplitItemOpcode_right_iff_two :
    SplitRightly plainMgr (fiveUnits false)
        ((fiveUnits false).handleSplitItemOpcode plainMgr able ⟨255, 23⟩ ⟨255, 24⟩ 2) ↔
      ¬ LosesOffhand plainMgr able (fiveUnits false) ⟨255, 23⟩ ⟨255, 24⟩ 2 :=
  handleSplitItemOpcode_right_iff plainMgr able (fiveUnits false) ⟨255, 23⟩ ⟨255, 24⟩ 2
    (by decide) filed_fiveUnits counted_fiveUnits

/-- Polearms, entry 1, stack to five; darts, entry 2, are held in the off hand and stack to
a thousand. -/
def armsProto (entry : Nat) : ItemTemplate :=
  { plainProto entry with
    itemId := entry
    itemClass := .weapon
    inventoryType := if entry = 1 then .twoHandWeapon else .holdable
    stackable := if entry = 1 then 5 else 1000
    stackable_lt := by split <;> decide }

def armsMgr : ObjectMgr := ⟨armsProto, fun _ => true, fun _ => rfl⟩

/-- Two polearms in the backpack, 300 darts in the off hand. -/
def polearms : Holdings where
  objects :=
    ⟨fun r =>
      { entry := if r = 0 then 1 else 2, count := if r = 0 then 2 else 300
        bagslot := fun _ => none, slot := if r = 0 then 23 else 16, container := none
        owner := 1, soulBound := false, lootGenerated := false, inTrade := false
        gemIds := [] }, 2⟩
  player := ⟨1, fun slot => if slot = 23 then some 0 else if slot = 16 then some 1 else none⟩
  removed := fun _ => false

theorem itemAt_polearms {pos : Pos} {r : ItemRef} (hr : polearms.itemAt armsMgr pos = some r) :
    (pos = ⟨inventorySlotBag0, 23⟩ ∧ r = 0) ∨
      (pos = ⟨inventorySlotBag0, 16⟩ ∧ r = 1) := by
  have hown : ∀ slot r, polearms.player.getOwnItem slot = some r →
      (slot = 23 ∧ r = 0) ∨ (slot = 16 ∧ r = 1) := by
    intro slot r hslot
    unfold Player.getOwnItem polearms at hslot
    dsimp only at hslot
    split at hslot
    · split at hslot
      · rename_i hs
        exact .inl ⟨hs, (Option.some.inj hslot).symm⟩
      · split at hslot
        · rename_i hs
          exact .inr ⟨hs, (Option.some.inj hslot).symm⟩
        · cases hslot
    · cases hslot
  by_cases hpos : pos.bag = inventorySlotBag0
  · rw [eq_own hpos] at hr ⊢
    rcases hown _ _ hr with ⟨hs, hx⟩ | ⟨hs, hx⟩
    · exact .inl ⟨by rw [hs], hx⟩
    · exact .inr ⟨by rw [hs], hx⟩
  · obtain ⟨pBag, hbag, hbagSlot, -⟩ := bagAt_of_itemAt hpos hr
    rcases hown _ _ hbag with ⟨hs, -⟩ | ⟨hs, -⟩
    · rw [hs] at hbagSlot
      exact absurd hbagSlot (by decide)
    · rw [hs] at hbagSlot
      exact absurd hbagSlot (by decide)

/-- One of the polearms is to be worn: the darts go to the backpack, and 44 arrive. -/
theorem polearm_loses_darts :
    polearms.Filed armsMgr ∧ polearms.Counted armsMgr ∧
      ¬ SplitRightly armsMgr polearms
        (polearms.handleSplitItemOpcode armsMgr able ⟨255, 23⟩ ⟨255, 15⟩ 1) := by
  refine ⟨⟨?_, ?_⟩, ?_, fun hright => ?_⟩
  · intro pos pos' r hr hr'
    rcases itemAt_polearms hr with ⟨hpos, hx⟩ | ⟨hpos, hx⟩ <;>
      rcases itemAt_polearms hr' with ⟨hpos', hx'⟩ | ⟨hpos', hx'⟩
    · rw [hpos, hpos']
    · exact absurd (hx.symm.trans hx') (by decide)
    · exact absurd (hx.symm.trans hx') (by decide)
    · rw [hpos, hpos']
  · intro pos r hr
    show r < 2
    rcases itemAt_polearms hr with ⟨-, rfl⟩ | ⟨-, rfl⟩ <;> decide
  · intro pos r hr
    rcases itemAt_polearms hr with ⟨-, rfl⟩ | ⟨-, rfl⟩
    · exact ⟨show 0 < 2 by decide, show 2 ≤ (armsProto 1).getMaxStackSize by decide⟩
    · exact ⟨show 0 < 300 by decide, show 300 ≤ (armsProto 2).getMaxStackSize by decide⟩
  · have hbefore : polearms.unitsIn armsMgr 2 positions = 300 := by decide +kernel
    have hafter : (polearms.handleSplitItemOpcode armsMgr able ⟨255, 23⟩ ⟨255, 15⟩
        1).1.unitsIn armsMgr 2 positions = 44 := by decide +kernel
    have hunits := hright.conserved 2
    rw [hbefore, hafter] at hunits
    cases hunits

end Holdings

end Sunstrider.Inventory
