import Sunstrider.Inventory.Store

/-!
# What one destroyed item takes along

An inventory is well kept when every item lies in one place only, records that
place as far as `DestroyItem` reads it, and has a count. There the contents of a
worn bag are never destroyed with it: `IsEquipped` is about the slots up to the
tabard, and from those `GetItemByPos` finds nothing. The slot is emptied and that
is all; whatever was in the bag is out of reach from then on.
-/

namespace Sunstrider.Inventory

namespace Holdings

variable {mgr : ObjectMgr} {h h' : Holdings}

variable {pos : Pos}

/-- Every item is in one place and records it; every stack has a count of 32 bits. -/
structure WellKept (mgr : ObjectMgr) (h : Holdings) : Prop where
  apart : ∀ {pos pos' r}, h.itemAt mgr pos = some r → h.itemAt mgr pos' = some r → pos = pos'
  own : ∀ {slot r}, h.itemAt mgr ⟨inventorySlotBag0, slot⟩ = some r →
    (h.objects.item r).slot = slot
  inBag : ∀ {pos r}, pos.bag ≠ inventorySlotBag0 → h.itemAt mgr pos = some r →
    (h.objects.item r).isInBag
  counted : ∀ {pos r}, h.itemAt mgr pos = some r →
    0 < (h.objects.item r).count ∧ (h.objects.item r).count < pow32

/-- The slot of the player that a position is in, or is in the bag of. -/
def rootSlot (pos : Pos) : Nat := if pos.bag = inventorySlotBag0 then pos.slot else pos.bag

/-- Once the first position is empty there is nothing at the second. -/
def Hides (p q : Pos) : Prop := q = p ∨ p = ⟨inventorySlotBag0, rootSlot q⟩

instance (p q : Pos) : Decidable (Hides p q) := by unfold Hides; infer_instance

theorem rootSlot_own (slot : Nat) : rootSlot ⟨inventorySlotBag0, slot⟩ = slot := if_pos rfl

theorem rootSlot_inBag (hpos : pos.bag ≠ inventorySlotBag0) :
    rootSlot pos = pos.bag := if_neg hpos

theorem eq_own (hpos : pos.bag = inventorySlotBag0) : pos = ⟨inventorySlotBag0, pos.slot⟩ := by
  cases pos
  subst hpos
  rfl

theorem hides_iff {p q : Pos} :
    Hides p q ↔ (q.bag = p.bag ∧ q.slot = p.slot) ∨
      (p.bag = inventorySlotBag0 ∧ q.bag ≠ inventorySlotBag0 ∧ q.bag = p.slot) := by
  obtain ⟨pbag, pslot⟩ := p
  obtain ⟨qbag, qslot⟩ := q
  unfold Hides rootSlot
  simp only [Pos.mk.injEq]
  split <;> omega

theorem itemAt_own (h : Holdings) (slot : Nat) :
    h.itemAt mgr ⟨inventorySlotBag0, slot⟩ = h.player.getOwnItem slot := rfl

theorem itemAt_inBag (hpos : pos.bag ≠ inventorySlotBag0) :
    h.itemAt mgr pos =
      if isBagSlot pos.bag then
        (h.player.getOwnItem pos.bag).bind fun b => (h.objects.item b).getItemByPos mgr pos.slot
      else none := by
  unfold itemAt Player.getItemByPos
  rw [if_neg hpos]
  cases h.player.getOwnItem pos.bag <;> rfl

/-- What is at a position depends on one slot of the player, and of the bag there. -/
theorem itemAt_congr
    (hown : h'.player.getOwnItem (rootSlot pos) = h.player.getOwnItem (rootSlot pos))
    (hbag : ∀ b, pos.bag ≠ inventorySlotBag0 → h.player.getOwnItem pos.bag = some b →
      (h'.objects.item b).getItemByPos mgr pos.slot =
      (h.objects.item b).getItemByPos mgr pos.slot) :
    h'.itemAt mgr pos = h.itemAt mgr pos := by
  by_cases hpos : pos.bag = inventorySlotBag0
  · rw [eq_own hpos, rootSlot_own] at hown
    rw [eq_own hpos]
    exact hown
  · rw [rootSlot_inBag hpos] at hown
    rw [itemAt_inBag hpos, itemAt_inBag hpos, hown]
    cases hb : h.player.getOwnItem pos.bag with
    | none => rfl
    | some b => simp only [Option.bind_some, hbag b hpos hb]

theorem itemAt_none_of_root (hroot : h.player.getOwnItem (rootSlot pos) = none) :
    h.itemAt mgr pos = none := by
  by_cases hpos : pos.bag = inventorySlotBag0
  · rw [eq_own hpos, rootSlot_own] at hroot
    rw [eq_own hpos]
    exact hroot
  · rw [rootSlot_inBag hpos] at hroot
    rw [itemAt_inBag hpos, hroot]
    split <;> rfl

theorem modify_item (o : Objects) (r r' : ItemRef) (f : Item → Item) :
    (o.modify r f).item r' = if r' = r then f (o.item r) else o.item r' := by
  unfold Objects.modify
  exact Function.update_apply ..

theorem getItemByPos_congr {i i' : Item} {slot : Nat} (hentry : i'.entry = i.entry)
    (hslot : i'.bagslot slot = i.bagslot slot) :
    i'.getItemByPos mgr slot = i.getItemByPos mgr slot := by
  unfold Item.getItemByPos Item.getBagSize Item.isBag Item.template
  rw [hentry, hslot]

/-! ## The object and its slot -/

theorem removeFromBag_item (o : Objects) (pBag : ItemRef) (slot : Nat) (r : ItemRef) :
    (o.removeFromBag pBag slot).item r =
      { o.item r with
        bagslot :=
          if r = pBag then Function.update (o.item r).bagslot slot none else (o.item r).bagslot
        container :=
          if (o.item pBag).bagslot slot = some r then none else (o.item r).container } := by
  unfold Objects.removeFromBag
  cases hr : (o.item pBag).bagslot slot with
  | none =>
      rw [modify_item]
      split
      · rename_i hrb
        rw [hrb]
        rfl
      · rfl
  | some r' =>
      simp only [modify_item, Option.some.injEq]
      by_cases hrb : r = pBag
      · subst hrb
        by_cases hrr : r = r'
        · subst hrr
          simp
        · simp [hrr, Ne.symm hrr]
      · by_cases hrr : r = r'
        · subst hrr
          simp [hrb]
        · simp [hrr, Ne.symm hrr, hrb]

section DestroyAlone

variable {pos : Pos} {r : ItemRef}

/-- An item outside bags: its slot is emptied. -/
theorem destroyAlone_own (hpos : pos.bag = inventorySlotBag0) :
    h.destroyAlone pos r =
      { objects := h.objects.modify r fun i => { i with slot := nullSlot }
        player := h.player.setSlot pos.slot none
        removed := Function.update h.removed r true } := by
  unfold destroyAlone Holdings.modify
  rw [if_pos hpos]

/-- An item in a bag: the slot of the bag is emptied. -/
theorem destroyAlone_inBag (hpos : pos.bag ≠ inventorySlotBag0) {pBag : ItemRef}
    (hbag : h.player.getOwnItem pos.bag = some pBag) :
    h.destroyAlone pos r =
      { objects :=
          (h.objects.removeFromBag pBag pos.slot).modify r fun i => { i with slot := nullSlot }
        player := h.player
        removed := Function.update h.removed r true } := by
  unfold destroyAlone Holdings.modify
  rw [if_neg hpos, hbag]

theorem removed_destroyAlone :
    (h.destroyAlone pos r).removed = Function.update h.removed r true := by
  by_cases hpos : pos.bag = inventorySlotBag0
  · rw [destroyAlone_own hpos]
  · unfold destroyAlone Holdings.modify
    rw [if_neg hpos]
    cases h.player.getOwnItem pos.bag <;> rfl

theorem bagAt_of_itemAt (hpos : pos.bag ≠ inventorySlotBag0) (hr : h.itemAt mgr pos = some r) :
    ∃ pBag, h.player.getOwnItem pos.bag = some pBag ∧ isBagSlot pos.bag ∧
      (h.objects.item pBag).getItemByPos mgr pos.slot = some r := by
  rw [itemAt_inBag hpos] at hr
  split at hr
  · rename_i hslot
    obtain ⟨pBag, hbag, hr⟩ := Option.bind_eq_some_iff.1 hr
    exact ⟨pBag, hbag, hslot, hr⟩
  · cases hr

/-- What a destroyed item leaves of the others, and of itself. -/
structure SameStack (i i' : Item) : Prop where
  entry : i'.entry = i.entry
  count : i'.count = i.count
  inTrade : i'.inTrade = i.inTrade

theorem sameStack_destroyAlone (hr : h.itemAt mgr pos = some r) (r' : ItemRef) :
    SameStack (h.objects.item r') ((h.destroyAlone pos r).objects.item r') := by
  by_cases hpos : pos.bag = inventorySlotBag0
  · rw [destroyAlone_own hpos]
    dsimp only
    rw [modify_item]
    split
    · rename_i hrr
      subst hrr
      exact ⟨rfl, rfl, rfl⟩
    · exact ⟨rfl, rfl, rfl⟩
  · obtain ⟨pBag, hbag, -⟩ := bagAt_of_itemAt hpos hr
    rw [destroyAlone_inBag hpos hbag]
    dsimp only
    rw [modify_item]
    split
    · rename_i hrr
      subst hrr
      rw [removeFromBag_item]
      exact ⟨rfl, rfl, rfl⟩
    · rw [removeFromBag_item]
      exact ⟨rfl, rfl, rfl⟩

/-- The others stay where they say they are. -/
theorem place_destroyAlone (hr : h.itemAt mgr pos = some r) {r' : ItemRef} (hrr : r' ≠ r) :
    ((h.destroyAlone pos r).objects.item r').slot = (h.objects.item r').slot ∧
      ((h.destroyAlone pos r).objects.item r').container = (h.objects.item r').container := by
  by_cases hpos : pos.bag = inventorySlotBag0
  · rw [destroyAlone_own hpos]
    dsimp only
    rw [modify_item, if_neg hrr]
    exact ⟨rfl, rfl⟩
  · obtain ⟨pBag, hbag, -, hin⟩ := bagAt_of_itemAt hpos hr
    have hslot : (h.objects.item pBag).bagslot pos.slot = some r := by
      unfold Item.getItemByPos at hin
      split at hin
      · exact hin
      · cases hin
    rw [destroyAlone_inBag hpos hbag]
    dsimp only
    rw [modify_item, if_neg hrr, removeFromBag_item]
    refine ⟨rfl, if_neg ?_⟩
    rw [hslot]
    exact fun he => hrr (Option.some.inj he).symm

theorem itemAt_destroyAlone_own (hpos : pos.bag = inventorySlotBag0) (q : Pos) :
    (h.destroyAlone pos r).itemAt mgr q = if Hides pos q then none else h.itemAt mgr q := by
  have hroot : Hides pos q ↔ rootSlot q = pos.slot := by
    constructor
    · rintro (rfl | hp)
      · rw [eq_own hpos, rootSlot_own]
      · rw [hp]
    · intro hq
      exact .inr (hq ▸ eq_own hpos)
  have hown : ∀ slot, (h.destroyAlone pos r).player.getOwnItem slot =
      if slot = pos.slot then none else h.player.getOwnItem slot := by
    intro slot
    rw [destroyAlone_own hpos]
    unfold Player.getOwnItem Player.setSlot
    dsimp only
    rw [Function.update_apply]
    split <;> split <;> rfl
  rw [if_congr hroot rfl rfl]
  split <;> rename_i hq
  · exact itemAt_none_of_root (by rw [hown, if_pos hq])
  · refine itemAt_congr (by rw [hown, if_neg hq]) ?_
    intro b _ _
    rw [destroyAlone_own hpos]
    dsimp only
    rw [modify_item]
    split <;> rename_i hb
    · exact getItemByPos_congr (hb ▸ rfl) (hb ▸ rfl)
    · rfl

theorem itemAt_destroyAlone_inBag (hk : h.WellKept mgr) (hpos : pos.bag ≠ inventorySlotBag0)
    (hr : h.itemAt mgr pos = some r) (q : Pos) :
    (h.destroyAlone pos r).itemAt mgr q = if Hides pos q then none else h.itemAt mgr q := by
  have hsame := sameStack_destroyAlone hr
  obtain ⟨pBag, hbag, hbagSlot, -⟩ := bagAt_of_itemAt hpos hr
  have hroot : Hides pos q ↔ q = pos := by
    refine ⟨?_, .inl⟩
    rintro (hq | hp)
    · exact hq
    · rw [hp] at hpos
      exact absurd rfl hpos
  have hbags : ∀ b, ((h.destroyAlone pos r).objects.item b).bagslot =
      if b = pBag then Function.update (h.objects.item b).bagslot pos.slot none
      else (h.objects.item b).bagslot := by
    intro b
    rw [destroyAlone_inBag hpos hbag]
    dsimp only
    rw [modify_item]
    split
    · rename_i hb
      rw [removeFromBag_item, ← hb]
    · rw [removeFromBag_item]
  rw [if_congr hroot rfl rfl]
  split <;> rename_i hq
  · subst hq
    rw [itemAt_inBag hpos, if_pos hbagSlot, destroyAlone_inBag hpos hbag]
    dsimp only
    rw [hbag, Option.bind_some]
    have hempty := hbags pBag
    rw [if_pos rfl, destroyAlone_inBag hpos hbag] at hempty
    unfold Item.getItemByPos
    rw [hempty, Function.update_self]
    split <;> rfl
  · refine itemAt_congr (by rw [destroyAlone_inBag hpos hbag]) ?_
    intro b hqbag hb
    refine getItemByPos_congr (hsame b).entry ?_
    rw [hbags]
    split <;> rename_i hbb
    · -- the same bag: it is worn in one slot only
      subst hbb
      have hplace : (⟨inventorySlotBag0, q.bag⟩ : Pos) = ⟨inventorySlotBag0, pos.bag⟩ :=
        hk.apart hb hbag
      rw [Function.update_of_ne]
      intro hslot
      apply hq
      cases q
      cases pos
      simp only [Pos.mk.injEq] at hplace hslot ⊢
      exact ⟨hplace.2, hslot⟩
    · rfl

theorem itemAt_destroyAlone (hk : h.WellKept mgr) (hr : h.itemAt mgr pos = some r) (q : Pos) :
    (h.destroyAlone pos r).itemAt mgr q = if Hides pos q then none else h.itemAt mgr q := by
  by_cases hpos : pos.bag = inventorySlotBag0
  · exact itemAt_destroyAlone_own hpos q
  · exact itemAt_destroyAlone_inBag hk hpos hr q

end DestroyAlone

/-! ## Contents -/

/-- There are no contents under the slots something is equipped in. -/
theorem itemAt_under_equipment (h : Holdings) {slot : Nat} (hslot : slot < equipmentSlotEnd)
    (j : Nat) : h.itemAt mgr ⟨slot, j⟩ = none := by
  unfold equipmentSlotEnd at hslot
  rw [itemAt_inBag (by show slot ≠ 255; omega), if_neg]
  unfold isBagSlot inventorySlotBagStart inventorySlotBagEnd bankSlotBagStart bankSlotBagEnd
  simp only [Bool.or_eq_true, Bool.and_eq_true, decide_eq_true_eq, not_or]
  omega

theorem destroyItem_nothing (depth : Nat) (hpos : h.itemAt mgr pos = none) :
    h.destroyItem mgr depth pos = h := by
  cases depth with
  | zero => rfl
  | succ depth =>
      unfold destroyItem
      rw [hpos]

/-- In a well kept inventory `DestroyItem` empties one slot. -/
theorem destroyItem_eq (hk : h.WellKept mgr) (depth : Nat) {r : ItemRef}
    (hr : h.itemAt mgr pos = some r) :
    h.destroyItem mgr (depth + 1) pos = h.destroyAlone pos r := by
  unfold destroyItem
  rw [hr]
  dsimp only
  split
  · rename_i hworn
    obtain ⟨-, hworn⟩ := hworn
    have hworn : (h.objects.item r).container = none ∧
        (h.objects.item r).slot < equipmentSlotEnd := by
      simpa [Item.isEquipped, Item.isInBag] using hworn
    have hslot : pos.slot < equipmentSlotEnd := by
      by_cases hpos : pos.bag = inventorySlotBag0
      · rw [eq_own hpos] at hr
        rw [← hk.own hr]
        exact hworn.2
      · have hin := hk.inBag hpos hr
        rw [Item.isInBag, hworn.1] at hin
        cases hin
    have hall : ∀ l : List Nat,
        l.foldl (fun h i => destroyItem mgr depth h ⟨pos.slot, i⟩) h = h := by
      intro l
      induction l with
      | nil => rfl
      | cons i l ih =>
          rw [List.foldl_cons, destroyItem_nothing depth (itemAt_under_equipment h hslot i), ih]
    rw [hall]
  · rfl

/-! ## Several positions -/

/-- What is left when the items at some positions have been destroyed. -/
structure Cleared (mgr : ObjectMgr) (h : Holdings) (gone : List Pos) (h' : Holdings) : Prop where
  kept : ∀ {q}, (∀ p ∈ gone, ¬ Hides p q) → h'.itemAt mgr q = h.itemAt mgr q
  lost : ∀ {p q}, p ∈ gone → Hides p q → h'.itemAt mgr q = none
  same : ∀ r, SameStack (h.objects.item r) (h'.objects.item r)
  place : ∀ {q r}, h'.itemAt mgr q = some r →
    (h'.objects.item r).slot = (h.objects.item r).slot ∧
      (h'.objects.item r).container = (h.objects.item r).container
  removed : ∀ {r}, (∀ p ∈ gone, h.itemAt mgr p ≠ some r) → h'.removed r = h.removed r

namespace Cleared

variable {gone : List Pos}

theorem none (mgr : ObjectMgr) (h : Holdings) : Cleared mgr h [] h where
  kept _ := rfl
  lost hp := by cases hp
  same _ := ⟨rfl, rfl, rfl⟩
  place _ := ⟨rfl, rfl⟩
  removed _ := rfl

/-- Nothing turns up. -/
theorem fewer (hc : Cleared mgr h gone h') {q : Pos} {r : ItemRef}
    (hr : h'.itemAt mgr q = some r) : h.itemAt mgr q = some r := by
  by_cases hq : ∃ p ∈ gone, Hides p q
  · obtain ⟨p, hp, hpq⟩ := hq
    rw [hc.lost hp hpq] at hr
    cases hr
  · rw [← hc.kept fun p hp hpq => hq ⟨p, hp, hpq⟩]
    exact hr

theorem wellKept (hc : Cleared mgr h gone h') (hk : h.WellKept mgr) : h'.WellKept mgr where
  apart hr hr' := hk.apart (hc.fewer hr) (hc.fewer hr')
  own hr := by
    rw [(hc.place hr).1]
    exact hk.own (hc.fewer hr)
  inBag hpos hr := by
    unfold Item.isInBag
    rw [(hc.place hr).2]
    exact hk.inBag hpos (hc.fewer hr)
  counted hr := by
    rw [(hc.same _).count]
    exact hk.counted (hc.fewer hr)

/-- One more. -/
theorem concat (hc : Cleared mgr h gone h') (hk : h.WellKept mgr) {pos : Pos} {r : ItemRef}
    (hr : h'.itemAt mgr pos = some r) :
    Cleared mgr h (gone ++ [pos]) (h'.destroyAlone pos r) where
  kept hq := by
    rw [itemAt_destroyAlone (hc.wellKept hk) hr, if_neg (hq pos (by simp))]
    exact hc.kept fun p hp => hq p (List.mem_append_left _ hp)
  lost := by
    intro p q hp hpq
    rw [itemAt_destroyAlone (hc.wellKept hk) hr]
    split
    · rfl
    · rename_i hq
      rcases List.mem_append.1 hp with hp | hp
      · exact hc.lost hp hpq
      · rw [List.mem_singleton.1 hp] at hpq
        exact absurd hpq hq
  same r' := by
    have h₁ := hc.same r'
    have h₂ := sameStack_destroyAlone hr r'
    exact ⟨h₂.entry.trans h₁.entry, h₂.count.trans h₁.count, h₂.inTrade.trans h₁.inTrade⟩
  place := by
    intro q r' hr'
    rw [itemAt_destroyAlone (hc.wellKept hk) hr] at hr'
    split at hr'
    · cases hr'
    · rename_i hq
      have hrr : r' ≠ r := by
        intro hrr
        subst hrr
        exact hq (.inl ((hc.wellKept hk).apart hr' hr))
      have h₁ := hc.place hr'
      have h₂ := place_destroyAlone hr hrr
      exact ⟨h₂.1.trans h₁.1, h₂.2.trans h₁.2⟩
  removed := by
    intro r' hr'
    have hrr : r' ≠ r := by
      intro hrr
      subst hrr
      exact hr' pos (by simp) (hc.fewer hr)
    have hrest : h'.removed r' = h.removed r' :=
      hc.removed fun p hp => hr' p (List.mem_append_left _ hp)
    rw [← hrest]
    rw [removed_destroyAlone, Function.update_of_ne hrr]

end Cleared

end Holdings

end Sunstrider.Inventory
