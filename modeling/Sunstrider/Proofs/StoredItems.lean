import Sunstrider.Proofs.DestroyCount
import Sunstrider.Proofs.BankPlan

/-!
# What storing an item adds

`_StoreItem` adds a share to one position: it puts an item there, the one it is
given or a clone of it, or makes the stack larger that is there. `Gains` says what
that means for everything else, and for the units at the position. A plan is carried
out one share after the other, and the units of the inventory grow by the shares the
plan lists.
-/

namespace Sunstrider.Inventory

namespace Holdings

variable {mgr : ObjectMgr} {h h' : Holdings} {pos : Pos} {r pItem : ItemRef} {k entry : Nat}

variable {owner : Nat}

/-- Every item is in one place, and was made. -/
structure Filed (mgr : ObjectMgr) (h : Holdings) : Prop where
  apart : ∀ {pos pos' r}, h.itemAt mgr pos = some r → h.itemAt mgr pos' = some r → pos = pos'
  made : ∀ {pos r}, h.itemAt mgr pos = some r → r < h.objects.next

/-- Every stack has a size its template allows. -/
def Counted (mgr : ObjectMgr) (h : Holdings) : Prop :=
  ∀ pos r, h.itemAt mgr pos = some r → 0 < (h.objects.item r).count ∧
    (h.objects.item r).count ≤ ((h.objects.item r).template mgr).getMaxStackSize

/-- The item is in no slot. -/
def Loose (mgr : ObjectMgr) (h : Holdings) (r : ItemRef) : Prop :=
  ∀ q, h.itemAt mgr q ≠ some r

/-- The inventory gains `k` units of an entry at a position. -/
structure Gains (mgr : ObjectMgr) (h : Holdings) (pos : Pos) (entry k : Nat) (h' : Holdings) :
    Prop where
  filed : h'.Filed mgr
  next : h.objects.next ≤ h'.objects.next
  entries : ∀ {x}, x < h.objects.next → (h'.objects.item x).entry = (h.objects.item x).entry
  keeps : ∀ {q x}, h.itemAt mgr q = some x → h'.itemAt mgr q = some x
  elsewhere : ∀ {q}, q ≠ pos → h'.itemAt mgr q = h.itemAt mgr q
  count : ∀ {q x}, q ≠ pos → h.itemAt mgr q = some x →
    (h'.objects.item x).count = (h.objects.item x).count
  units : ∀ e, h'.unitsAt mgr e pos = h.unitsAt mgr e pos + if e = entry then k else 0

namespace Gains

variable (hg : Gains mgr h pos entry k h')

include hg

theorem unitsAt_elsewhere (hf : h.Filed mgr) (e : Nat) {q : Pos} (hq : q ≠ pos) :
    h'.unitsAt mgr e q = h.unitsAt mgr e q := by
  cases hr : h.itemAt mgr q with
  | none => rw [unitsAt_nothing hr, unitsAt_nothing ((hg.elsewhere hq).trans hr)]
  | some x =>
      rw [unitsAt_some hr, unitsAt_some ((hg.elsewhere hq).trans hr), hg.entries (hf.made hr),
        hg.count hq hr]

theorem unitsIn_positions (hf : h.Filed mgr) (hpos : pos ∈ positions) (e : Nat) :
    h'.unitsIn mgr e positions =
      h.unitsIn mgr e positions + if e = entry then k else 0 := by
  obtain ⟨before, after, hsplit⟩ := List.append_of_mem hpos
  have hnodup : positions.Nodup := pairwise_positions.imp fun hpq he => hpq (.inl he.symm)
  rw [hsplit] at hnodup ⊢
  obtain ⟨-, hafter, hdisj⟩ := List.nodup_append.1 hnodup
  have hbefore : h'.unitsIn mgr e before = h.unitsIn mgr e before := unitsIn_congr fun q hq =>
    hg.unitsAt_elsewhere hf e (hdisj q hq pos List.mem_cons_self)
  have hbehind : h'.unitsIn mgr e after = h.unitsIn mgr e after := unitsIn_congr fun q hq =>
    hg.unitsAt_elsewhere hf e fun he => (List.nodup_cons.1 hafter).1 (he ▸ hq)
  rw [unitsIn_append, unitsIn_append (h := h), unitsIn_cons, unitsIn_cons, hbefore, hbehind,
    hg.units]
  omega

theorem storable (hf : h.Filed mgr) {q : Pos} (hq : Storable mgr h.objects h.player q) :
    Storable mgr h'.objects h'.player q := by
  unfold Storable at hq ⊢
  split
  · rename_i hown
    rwa [if_pos hown] at hq
  · rename_i hown
    rw [if_neg hown] at hq
    obtain ⟨hbagSlot, b, hb, hlt⟩ := hq
    have hb' : h.itemAt mgr ⟨inventorySlotBag0, q.bag⟩ = some b := hb
    refine ⟨hbagSlot, b, hg.keeps hb', ?_⟩
    unfold Item.getBagSize Item.isBag Item.template at hlt ⊢
    rwa [hg.entries (hf.made hb')]

/-- A share that fits leaves the stacks as they are to be. -/
theorem counted (hf : h.Filed mgr) (hcounted : h.Counted mgr) (hk : 0 < k)
    (hfits : h.unitsAt mgr entry pos + k ≤ (mgr.proto entry).getMaxStackSize) :
    h'.Counted mgr := by
  intro q x hx
  by_cases hq : q = pos
  · subst hq
    have hunits := hg.units entry
    rw [if_pos rfl] at hunits
    have hentry : (h'.objects.item x).entry = entry := by
      by_contra hne
      rw [unitsAt_some hx, if_neg hne] at hunits
      omega
    rw [unitsAt_some hx, if_pos hentry] at hunits
    unfold Item.template
    rw [hentry]
    omega
  · rw [hg.elsewhere hq] at hx
    unfold Item.template
    rw [hg.entries (hf.made hx), hg.count hq hx]
    exact hcounted q x hx

end Gains

/-! ## An item is put at a position -/

/-- `_StoreItem` behind the question what is to be stored. -/
def placed (mgr : ObjectMgr) (h : Holdings) (o : Objects) (pItem : ItemRef) (pos : Pos) :
    Holdings :=
  let o := o.modify pItem fun i => i.bindWhenStored mgr pos
  if pos.bag = inventorySlotBag0 then
    { h with
      objects := o.modify pItem fun i =>
        { i with owner := h.player.guid, slot := pos.slot, container := none }
      player := h.player.setSlot pos.slot (some pItem) }
  else
    match h.player.getOwnItem pos.bag with
    | none => { h with objects := o }
    | some pBag => { h with objects := o.storeToBag pBag pos.slot pItem }

theorem storeItem'_empty (hpos : h.itemAt mgr pos = none) (clone : Bool) :
    h.storeItem' mgr pos pItem k clone =
      match if clone then h.objects.cloneItem mgr pItem k h.player.guid
        else some (h.objects.modify pItem fun i => { i with count := k }, pItem) with
      | none => (h, none)
      | some (o, pItem) => (h.placed mgr o pItem pos, some pItem) := by
  unfold itemAt at hpos
  unfold storeItem' placed
  rw [hpos]
  dsimp only
  generalize (if clone then h.objects.cloneItem mgr pItem k h.player.guid
    else some (h.objects.modify pItem fun i => { i with count := k }, pItem)) = stored
  cases stored with
  | none => rfl
  | some stored =>
      dsimp only
      split
      · rfl
      · cases h.player.getOwnItem pos.bag <;> rfl

theorem storeToBag_item (r pBag : ItemRef) (o : Objects) {slot : Nat}
    (hslot : ¬ maxBagSize < slot) (x : ItemRef) :
    ((o.storeToBag pBag slot r).item x).entry = (o.item x).entry ∧
      ((o.storeToBag pBag slot r).item x).count = (o.item x).count ∧
      ((o.storeToBag pBag slot r).item x).bagslot =
        if x = pBag then Function.update (o.item x).bagslot slot (some r)
        else (o.item x).bagslot := by
  unfold Objects.storeToBag
  rw [if_neg hslot]
  simp only [modify_item]
  by_cases hxr : x = r
  · by_cases hxb : x = pBag
    · simp [← hxr, ← hxb]
    · simp [← hxr, hxb]
  · by_cases hxb : x = pBag
    · simp [hxr, ← hxb]
    · simp [hxr, hxb]

variable (mgr pos r) in
theorem bindWhenStored_item (o : Objects) (x : ItemRef) :
    ((o.modify r fun i => i.bindWhenStored mgr pos).item x).entry = (o.item x).entry ∧
      ((o.modify r fun i => i.bindWhenStored mgr pos).item x).count = (o.item x).count ∧
      ((o.modify r fun i => i.bindWhenStored mgr pos).item x).bagslot = (o.item x).bagslot := by
  rw [modify_item]
  split
  · rename_i hx
    unfold Item.bindWhenStored
    dsimp only
    split <;> exact ⟨by rw [hx], by rw [hx], by rw [hx]⟩
  · exact ⟨rfl, rfl, rfl⟩

variable (mgr h r) in
/-- The objects afterwards: nothing moves but the slot of the bag. -/
theorem placed_item (o : Objects) (hslot : ¬ maxBagSize < pos.slot ∨ pos.bag = inventorySlotBag0)
    (x : ItemRef) :
    ((h.placed mgr o r pos).objects.item x).entry = (o.item x).entry ∧
      ((h.placed mgr o r pos).objects.item x).count = (o.item x).count ∧
      ((h.placed mgr o r pos).objects.item x).bagslot =
        if pos.bag ≠ inventorySlotBag0 ∧ h.player.getOwnItem pos.bag = some x then
          Function.update (o.item x).bagslot pos.slot (some r)
        else (o.item x).bagslot := by
  obtain ⟨hentry, hcount, hbags⟩ := bindWhenStored_item mgr pos r o x
  unfold placed
  dsimp only
  by_cases hown : pos.bag = inventorySlotBag0
  · rw [if_pos hown, if_neg fun he => he.1 hown]
    dsimp only
    rw [modify_item]
    split
    · rename_i hx
      subst hx
      exact ⟨hentry, hcount, hbags⟩
    · exact ⟨hentry, hcount, hbags⟩
  · rw [if_neg hown]
    cases hb : h.player.getOwnItem pos.bag with
    | none =>
        rw [if_neg fun he => by cases he.2]
        exact ⟨hentry, hcount, hbags⟩
    | some pBag =>
        obtain ⟨hentry', hcount', hbags'⟩ := storeToBag_item r pBag
          (o.modify r fun i => i.bindWhenStored mgr pos) (hslot.resolve_right hown) x
        refine ⟨hentry'.trans hentry, hcount'.trans hcount, hbags'.trans ?_⟩
        rw [hbags]
        by_cases hx : x = pBag
        · rw [if_pos hx, if_pos ⟨hown, hx ▸ rfl⟩]
        · rw [if_neg hx, if_neg fun he => hx (Option.some.inj he.2).symm]

variable (mgr h r pos) in
theorem next_placed (o : Objects) : (h.placed mgr o r pos).objects.next = o.next := by
  unfold placed
  dsimp only
  split
  · rfl
  · cases h.player.getOwnItem pos.bag with
    | none => rfl
    | some pBag =>
        dsimp only
        unfold Objects.storeToBag
        split <;> rfl

/-- A bag that is worn is an item in a slot of the player. -/
theorem itemAt_ownBag {slot : Nat} (hr : h.player.getOwnItem slot = some r) :
    h.itemAt mgr ⟨inventorySlotBag0, slot⟩ = some r := hr

theorem itemAt_of_own (hown : pos.bag = inventorySlotBag0) :
    h.itemAt mgr pos = h.player.getOwnItem pos.slot := by
  rw [eq_own hown]
  rfl

section Placed

variable {o : Objects}

/-- Objects made from those of `h` for an item that is put somewhere. -/
structure Readied (mgr : ObjectMgr) (h : Holdings) (pos : Pos) (o : Objects) (r : ItemRef)
    (entry k : Nat) : Prop where
  loose : h.Loose mgr r
  next : h.objects.next ≤ o.next
  made : r < o.next
  same : ∀ {x}, x < h.objects.next → x ≠ r → o.item x = h.objects.item x
  entries : ∀ {x}, x < h.objects.next → (o.item x).entry = (h.objects.item x).entry
  entry : (o.item r).entry = entry
  count : (o.item r).count = k
  /-- What is put into a bag slot has nothing in it. -/
  empty : pos.bag = inventorySlotBag0 → isBagSlot pos.slot → ∀ j, (o.item r).bagslot j = none

theorem getOwnItem_setSlot (p : Player) {slot : Nat} (hslot : isOwnSlot slot) (r : ItemRef)
    (s : Nat) :
    (p.setSlot slot (some r)).getOwnItem s = if s = slot then some r else p.getOwnItem s := by
  unfold Player.getOwnItem Player.setSlot
  dsimp only
  rw [Function.update_apply]
  split <;> rename_i hs
  · rfl
  · split
    · rename_i he
      rw [he] at hs
      exact absurd hslot hs
    · rfl

theorem itemAt_placed_own (hf : h.Filed mgr) (hr : Readied mgr h pos o r entry k)
    (hown : pos.bag = inventorySlotBag0) (hslot : isOwnSlot pos.slot)
    (hpos : h.itemAt mgr pos = none) (q : Pos) :
    (h.placed mgr o r pos).itemAt mgr q = if q = pos then some r else h.itemAt mgr q := by
  have hplayer : (h.placed mgr o r pos).player = h.player.setSlot pos.slot (some r) := by
    unfold placed
    rw [if_pos hown]
  have hitem := placed_item mgr h r o (.inr hown)
  by_cases hroot : rootSlot q = pos.slot
  · by_cases hq : q.bag = inventorySlotBag0
    · rw [eq_own hq, rootSlot_own] at hroot
      have hqp : q = pos := by
        rw [eq_own hq, eq_own hown, hroot]
      rw [if_pos hqp, hqp, itemAt_of_own hown, hplayer, getOwnItem_setSlot _ hslot, if_pos rfl]
    · have hqp : q ≠ pos := fun he => hq (he ▸ hown)
      rw [rootSlot_inBag hq] at hroot
      rw [if_neg hqp, itemAt_none_of_root (h := h), itemAt_inBag hq, hplayer,
        getOwnItem_setSlot _ hslot, if_pos hroot, Option.bind_some]
      · split
        · rename_i hbagSlot
          have hnone : ((h.placed mgr o r pos).objects.item r).bagslot q.slot = none := by
            rw [(hitem r).2.2, if_neg fun he => he.1 hown]
            exact hr.empty hown (hroot ▸ hbagSlot) _
          unfold Item.getItemByPos
          rw [hnone]
          split <;> rfl
        · rfl
      · rw [rootSlot_inBag hq, hroot]
        rw [eq_own hown] at hpos
        exact hpos
  · have hqp : q ≠ pos := by
      intro he
      rw [he, eq_own hown, rootSlot_own] at hroot
      exact hroot rfl
    rw [if_neg hqp]
    refine itemAt_congr ?_ ?_
    · rw [hplayer, getOwnItem_setSlot _ hslot, if_neg hroot]
    · intro b hq hb
      have hb' : h.itemAt mgr ⟨inventorySlotBag0, q.bag⟩ = some b := hb
      have hbr : b ≠ r := fun he => hr.loose _ (he ▸ hb')
      have hsame := hr.same (hf.made hb') hbr
      refine getItemByPos_congr ((hitem b).1.trans (by rw [hsame])) ?_
      rw [(hitem b).2.2, if_neg fun he => he.1 hown, hsame]

theorem itemAt_placed_inBag (hf : h.Filed mgr) (hr : Readied mgr h pos o r entry k)
    (hown : pos.bag ≠ inventorySlotBag0) (hst : Storable mgr h.objects h.player pos) (q : Pos) :
    (h.placed mgr o r pos).itemAt mgr q = if q = pos then some r else h.itemAt mgr q := by
  unfold Storable at hst
  rw [if_neg hown] at hst
  obtain ⟨hbagSlot, pBag, hbag, hlt⟩ := hst
  have hsize : ¬ maxBagSize < pos.slot := by
    have := getBagSize_le mgr (h.objects.item pBag)
    omega
  have hplayer : (h.placed mgr o r pos).player = h.player := by
    unfold placed
    rw [if_neg hown, hbag]
  have hitem := placed_item mgr h r o (.inl hsize)
  have hfiled : h.itemAt mgr ⟨inventorySlotBag0, pos.bag⟩ = some pBag := hbag
  by_cases hqp : q = pos
  · subst hqp
    have hsame := hr.same (hf.made hfiled) fun he => hr.loose _ (he ▸ hfiled)
    rw [if_pos rfl, itemAt_inBag hown, if_pos hbagSlot, hplayer, hbag, Option.bind_some]
    unfold Item.getItemByPos Item.getBagSize Item.isBag Item.template
    unfold Item.getBagSize Item.isBag Item.template at hlt
    rw [(hitem pBag).1, hsame, if_pos hlt, (hitem pBag).2.2, if_pos ⟨hown, hbag⟩,
      Function.update_self]
  · rw [if_neg hqp]
    refine itemAt_congr (by rw [hplayer]) ?_
    intro b hq hb
    have hb' : h.itemAt mgr ⟨inventorySlotBag0, q.bag⟩ = some b := hb
    have hsame := hr.same (hf.made hb') fun he => hr.loose _ (he ▸ hb')
    refine getItemByPos_congr ((hitem b).1.trans (by rw [hsame])) ?_
    rw [(hitem b).2.2, hsame]
    split
    · rename_i hbb
      -- the same bag, and another slot of it
      have hplace : (⟨inventorySlotBag0, q.bag⟩ : Pos) = ⟨inventorySlotBag0, pos.bag⟩ :=
        hf.apart hb' hbb.2
      rw [Function.update_of_ne]
      intro hslot
      apply hqp
      cases q
      cases pos
      simp only [Pos.mk.injEq] at hplace hslot ⊢
      exact ⟨hplace.2, hslot⟩
    · rfl

theorem itemAt_placed (hf : h.Filed mgr) (hr : Readied mgr h pos o r entry k)
    (hpos : h.itemAt mgr pos = none) (hst : Storable mgr h.objects h.player pos) (q : Pos) :
    (h.placed mgr o r pos).itemAt mgr q = if q = pos then some r else h.itemAt mgr q := by
  by_cases hown : pos.bag = inventorySlotBag0
  · have hslot : isOwnSlot pos.slot := by
      unfold Storable at hst
      rwa [if_pos hown] at hst
    exact itemAt_placed_own hf hr hown hslot hpos q
  · exact itemAt_placed_inBag hf hr hown hst q

theorem size_of_storable {p : Player} (hst : Storable mgr o p pos) :
    ¬ maxBagSize < pos.slot ∨ pos.bag = inventorySlotBag0 := by
  unfold Storable at hst
  split at hst
  · rename_i hown
    exact .inr hown
  · obtain ⟨-, b, -, hlt⟩ := hst
    have := getBagSize_le mgr (o.item b)
    exact .inl (by omega)

theorem placed_gains (hf : h.Filed mgr) (hr : Readied mgr h pos o r entry k)
    (hpos : h.itemAt mgr pos = none) (hst : Storable mgr h.objects h.player pos) :
    Gains mgr h pos entry k (h.placed mgr o r pos) := by
  have hat := itemAt_placed hf hr hpos hst
  have hsize := size_of_storable hst
  have hitem := placed_item mgr h r o hsize
  have hnext := next_placed mgr h pos r o
  refine ⟨⟨?_, ?_⟩, hnext ▸ hr.next, ?_, ?_, ?_, ?_, ?_⟩
  · intro q q' x hx hx'
    rw [hat] at hx hx'
    split at hx <;> split at hx'
    · rename_i hq hq'
      rw [hq, hq']
    · cases hx
      exact absurd hx' (hr.loose q')
    · cases hx'
      exact absurd hx (hr.loose q)
    · exact hf.apart hx hx'
  · intro q x hx
    rw [hat] at hx
    rw [hnext]
    split at hx
    · cases hx
      exact hr.made
    · exact Nat.lt_of_lt_of_le (hf.made hx) hr.next
  · intro x hx
    rw [(hitem x).1, hr.entries hx]
  · intro q x hx
    rw [hat, if_neg]
    · exact hx
    · intro hq
      rw [hq, hpos] at hx
      cases hx
  · intro q hq
    rw [hat, if_neg hq]
  · intro q x hq hx
    rw [(hitem x).2.1, hr.same (hf.made hx) fun he => hr.loose q (he ▸ hx)]
  · intro e
    rw [unitsAt_nothing hpos, unitsAt_some ((hat pos).trans (if_pos rfl)), (hitem r).1,
      (hitem r).2.1, hr.entry, hr.count, Nat.zero_add]
    simp only [eq_comm]

end Placed

/-! ## One share -/

variable (mgr) in
/-- What is at a position does not change with the counts of the items. -/
theorem itemAt_of_same (hplayer : h'.player = h.player)
    (hitem : ∀ x, (h'.objects.item x).entry = (h.objects.item x).entry ∧
      (h'.objects.item x).bagslot = (h.objects.item x).bagslot) (q : Pos) :
    h'.itemAt mgr q = h.itemAt mgr q := by
  refine itemAt_congr (by rw [hplayer]) ?_
  intro b _ _
  exact getItemByPos_congr (hitem b).1 (by rw [(hitem b).2])

/-- A stack grows where it is. -/
theorem grown_gains (hf : h.Filed mgr) (hpos : h.itemAt mgr pos = some r)
    (he : (h.objects.item r).entry = entry) (hplayer : h'.player = h.player)
    (hnext : h'.objects.next = h.objects.next)
    (hitem : ∀ x, (h'.objects.item x).entry = (h.objects.item x).entry ∧
      (h'.objects.item x).bagslot = (h.objects.item x).bagslot)
    (hcount : (h'.objects.item r).count = (h.objects.item r).count + k)
    (hrest : ∀ {q x}, h.itemAt mgr q = some x → x ≠ r →
      (h'.objects.item x).count = (h.objects.item x).count) :
    Gains mgr h pos entry k h' := by
  have hat := itemAt_of_same mgr hplayer hitem
  refine ⟨⟨?_, ?_⟩, Nat.le_of_eq hnext.symm, fun _ => (hitem _).1, ?_, ?_, ?_, ?_⟩
  · intro q q' x hx hx'
    rw [hat] at hx hx'
    exact hf.apart hx hx'
  · intro q x hx
    rw [hat] at hx
    rw [hnext]
    exact hf.made hx
  · intro q x hx
    rw [hat]
    exact hx
  · exact fun _ => hat _
  · intro q x hq hx
    exact hrest hx fun hxr => hq (hf.apart (hxr ▸ hx) hpos)
  · intro e
    rw [unitsAt_some hpos, unitsAt_some ((hat pos).trans hpos), (hitem r).1, hcount]
    by_cases hee : e = entry
    · rw [if_pos (he.trans hee.symm), if_pos (he.trans hee.symm), if_pos hee]
    · rw [if_neg fun h => hee (h.symm.trans he), if_neg fun h => hee (h.symm.trans he),
        if_neg hee]

/-- The share of a plan has a place: a free one, where a bag that is worn has nothing
in it, or a stack. -/
def Fits (mgr : ObjectMgr) (h : Holdings) (pItem : ItemRef) (pos : Pos) (k : Nat) : Prop :=
  (h.itemAt mgr pos = none ∧ Storable mgr h.objects h.player pos ∧
    k ≤ ((h.objects.item pItem).template mgr).getMaxStackSize ∧
    (pos.bag = inventorySlotBag0 → isBagSlot pos.slot →
      ∀ j, (h.objects.item pItem).bagslot j = none)) ∨
  ∃ r, h.itemAt mgr pos = some r ∧
    (h.objects.item r).entry = (h.objects.item pItem).entry ∧
    (h.objects.item r).count + k < pow32

theorem gains_nothing (hf : h.Filed mgr) (pos : Pos) (entry : Nat) :
    Gains mgr h pos entry 0 h where
  filed := hf
  next := Nat.le_refl _
  entries _ := rfl
  keeps hx := hx
  elsewhere _ := rfl
  count _ _ := rfl
  units e := by split <;> rfl

/-- The clone `CloneItem` makes. -/
def cloneOf (mgr : ObjectMgr) (i : Item) (count owner : Nat) : Item where
  entry := i.entry
  count := min count (i.template mgr).getMaxStackSize
  bagslot := fun _ => none
  slot := 0
  container := none
  owner := owner
  soulBound := i.soulBound
  lootGenerated := false
  inTrade := false
  gemIds := []

/-- The objects with the clone. -/
def withClone (mgr : ObjectMgr) (o : Objects) (r : ItemRef) (count owner : Nat) : Objects :=
  ⟨Function.update o.item o.next (cloneOf mgr (o.item r) count owner), o.next + 1⟩

theorem cloneItem_eq (o : Objects) (hknown : mgr.known (o.item r).entry = true) (hk : 0 < k) :
    o.cloneItem mgr r k owner = some (withClone mgr o r k owner, o.next) := by
  unfold Objects.cloneItem ObjectMgr.getItemTemplate
  rw [if_neg (by omega), if_pos hknown]
  rfl

theorem withClone_old (o : Objects) {x : ItemRef} (hx : x < o.next) :
    (withClone mgr o r k owner).item x = o.item x :=
  Function.update_of_ne (Nat.ne_of_lt hx) ..

theorem withClone_new (o : Objects) :
    (withClone mgr o r k owner).item o.next = cloneOf mgr (o.item r) k owner :=
  Function.update_self ..

/-- The objects after units were added to a stack. -/
def merged (mgr : ObjectMgr) (o : Objects) (r : ItemRef) (pos : Pos) (k : Nat) : Objects :=
  o.modify r fun i => { i.bindWhenStored mgr pos with count := add32 i.count k }

variable (mgr pos) in
theorem merged_item (o : Objects) (hlt : (o.item r).count + k < pow32) (x : ItemRef) :
    ((merged mgr o r pos k).item x).entry = (o.item x).entry ∧
      ((merged mgr o r pos k).item x).bagslot = (o.item x).bagslot ∧
      ((merged mgr o r pos k).item x).count =
        if x = r then (o.item x).count + k else (o.item x).count := by
  have hbind := bindWhenStored_item mgr pos r o x
  unfold merged
  rw [modify_item] at hbind ⊢
  by_cases hx : x = r
  · rw [if_pos hx] at hbind ⊢
    rw [if_pos hx]
    refine ⟨hbind.1, hbind.2.2, ?_⟩
    rw [hx]
    exact Nat.mod_eq_of_lt hlt
  · rw [if_neg hx, if_neg hx]
    exact ⟨rfl, rfl, rfl⟩

theorem owned_item (o : Objects) (owner : Nat) (x : ItemRef) :
    ((o.modify r fun i => { i with owner := owner }).item x).entry = (o.item x).entry ∧
      ((o.modify r fun i => { i with owner := owner }).item x).bagslot = (o.item x).bagslot ∧
      ((o.modify r fun i => { i with owner := owner }).item x).count = (o.item x).count := by
  rw [modify_item]
  split
  · rename_i hx
    rw [hx]
    exact ⟨rfl, rfl, rfl⟩
  · exact ⟨rfl, rfl, rfl⟩

theorem storeItem'_stack (hpos : h.itemAt mgr pos = some r) (clone : Bool) :
    (h.storeItem' mgr pos pItem k clone).1 =
      if clone then { h with objects := merged mgr h.objects r pos k }
      else
        { h with
          objects := (merged mgr h.objects r pos k).modify pItem fun i =>
            { i with owner := h.player.guid }
          removed := Function.update h.removed pItem true } := by
  unfold itemAt at hpos
  unfold storeItem'
  rw [hpos]
  cases clone <;> rfl

/-- `_StoreItem` with the item itself. -/
theorem storeItem'_last (hf : h.Filed mgr) (hloose : h.Loose mgr pItem)
    (hmade : pItem < h.objects.next) (hfits : Fits mgr h pItem pos k) :
    Gains mgr h pos (h.objects.item pItem).entry k (h.storeItem' mgr pos pItem k false).1 := by
  rcases hfits with ⟨hpos, hst, hmax, hempty⟩ | ⟨r, hpos, he, hlt⟩
  · rw [storeItem'_empty hpos, if_neg (by simp)]
    dsimp only
    refine placed_gains hf ⟨hloose, Nat.le_refl _, hmade, ?_, ?_, ?_, ?_, ?_⟩ hpos hst
    · intro x _ hx
      rw [modify_item, if_neg hx]
    · intro x _
      rw [modify_item]
      split
      · rename_i hx
        rw [hx]
      · rfl
    · rw [modify_item, if_pos rfl]
    · rw [modify_item, if_pos rfl]
    · intro hown hslot j
      rw [modify_item, if_pos rfl]
      exact hempty hown hslot j
  · rw [storeItem'_stack hpos, if_neg (by simp)]
    have hmerged := merged_item mgr pos h.objects hlt
    have howned := owned_item (r := pItem) (merged mgr h.objects r pos k) h.player.guid
    refine grown_gains hf hpos he rfl rfl (fun x => ?_) ?_ ?_
    · exact ⟨(howned x).1.trans (hmerged x).1, (howned x).2.1.trans (hmerged x).2.1⟩
    · exact (howned r).2.2.trans ((hmerged r).2.2.trans (if_pos rfl))
    · intro q x _ hx
      exact (howned x).2.2.trans ((hmerged x).2.2.trans (if_neg hx))

/-- `_StoreItem` with a clone; the item itself goes on waiting. -/
theorem storeItem'_clone (hf : h.Filed mgr) (hloose : h.Loose mgr pItem)
    (hmade : pItem < h.objects.next)
    (hknown : mgr.known (h.objects.item pItem).entry = true)
    (hfits : Fits mgr h pItem pos k) :
    Gains mgr h pos (h.objects.item pItem).entry k (h.storeItem' mgr pos pItem k true).1 ∧
      (h.storeItem' mgr pos pItem k true).1.Loose mgr pItem ∧
      ((h.storeItem' mgr pos pItem k true).1.objects.item pItem).bagslot =
        (h.objects.item pItem).bagslot := by
  rcases hfits with ⟨hpos, hst, hmax, hempty⟩ | ⟨r, hpos, he, hlt⟩
  · rw [storeItem'_empty hpos, if_pos rfl]
    rcases Nat.eq_zero_or_pos k with rfl | hk
    · have hnone : h.objects.cloneItem mgr pItem 0 h.player.guid = none := if_pos (by decide)
      rw [hnone]
      exact ⟨gains_nothing hf _ _, hloose, rfl⟩
    · rw [cloneItem_eq _ hknown hk]
      dsimp only
      have hnew : ∀ {x}, x < h.objects.next → x ≠ h.objects.next := fun hx => Nat.ne_of_lt hx
      have hclone : (withClone mgr h.objects pItem k h.player.guid).item h.objects.next =
        cloneOf mgr (h.objects.item pItem) k h.player.guid := withClone_new _
      have hready : Readied mgr h pos (withClone mgr h.objects pItem k h.player.guid)
          h.objects.next (h.objects.item pItem).entry k := by
        refine ⟨fun q hq => hnew (hf.made hq) rfl, Nat.le_succ _, Nat.lt_succ_self _, ?_, ?_, ?_,
          ?_, ?_⟩
        · intro x hx _
          exact withClone_old _ hx
        · intro x hx
          rw [withClone_old _ hx]
        · rw [hclone]
          rfl
        · rw [hclone]
          exact Nat.min_eq_left hmax
        · intro _ _ j
          rw [hclone]
          rfl
      refine ⟨placed_gains hf hready hpos hst, ?_, ?_⟩
      · intro q hq
        rw [itemAt_placed hf hready hpos hst] at hq
        split at hq
        · exact hnew hmade (Option.some.inj hq).symm
        · exact hloose q hq
      · rw [(placed_item mgr h _ _ (size_of_storable hst) pItem).2.2, if_neg,
          withClone_old _ hmade]
        rintro ⟨-, hbag⟩
        exact hloose ⟨inventorySlotBag0, pos.bag⟩ hbag
  · rw [storeItem'_stack hpos, if_pos rfl]
    have hmerged := merged_item mgr pos h.objects hlt
    have hsame : ∀ x, ((merged mgr h.objects r pos k).item x).entry = (h.objects.item x).entry ∧
        ((merged mgr h.objects r pos k).item x).bagslot = (h.objects.item x).bagslot :=
      fun x => ⟨(hmerged x).1, (hmerged x).2.1⟩
    refine ⟨grown_gains hf hpos he rfl rfl hsame ?_ ?_, ?_, (hsame pItem).2⟩
    · exact (hmerged r).2.2.trans (if_pos rfl)
    · intro q x _ hx
      exact (hmerged x).2.2.trans (if_neg hx)
    · intro q hq
      have hat : ({ h with objects := merged mgr h.objects r pos k } : Holdings).itemAt mgr q =
          h.itemAt mgr q := by
        apply itemAt_of_same
        · rfl
        · exact hsame
      rw [hat] at hq
      exact hloose q hq

/-! ## A plan -/

theorem mem_positions_of_storable {o : Objects} {p : Player} (hst : Storable mgr o p pos) :
    pos ∈ positions := by
  unfold Storable at hst
  split at hst
  · rename_i hpos
    exact Holdings.mem_positions_of_own hpos hst
  · obtain ⟨hbag, b, -, hlt⟩ := hst
    exact Holdings.mem_positions_of_bag hbag (Nat.lt_of_lt_of_le hlt (getBagSize_le mgr (o.item b)))

/-- The units of an entry in the inventory grow by `n`. -/
structure Grows (mgr : ObjectMgr) (h : Holdings) (entry n : Nat) (h' : Holdings) : Prop where
  filed : h'.Filed mgr
  next : h.objects.next ≤ h'.objects.next
  units : ∀ e, h'.unitsIn mgr e positions =
    h.unitsIn mgr e positions + if e = entry then n else 0

/-- An item that is to be stored. -/
structure Waits (mgr : ObjectMgr) (h : Holdings) (pItem : ItemRef) : Prop where
  loose : h.Loose mgr pItem
  made : pItem < h.objects.next
  known : mgr.known (h.objects.item pItem).entry = true

/-- The share leaves the stack at the position as large as it may be. -/
def Suits (mgr : ObjectMgr) (h : Holdings) (entry : Nat) (e : ItemPosCount) : Prop :=
  0 < e.count ∧ h.unitsAt mgr entry e.pos + e.count ≤ (mgr.proto entry).getMaxStackSize

theorem Fits.mem_positions (hfits : Fits mgr h pItem pos k) : pos ∈ positions := by
  rcases hfits with ⟨-, hst, -⟩ | ⟨r, hr, -⟩
  · exact mem_positions_of_storable hst
  · exact Holdings.mem_positions hr

theorem Gains.grows (hg : Gains mgr h pos entry k h') (hf : h.Filed mgr)
    (hpos : pos ∈ positions) : Grows mgr h entry k h' :=
  ⟨hg.filed, hg.next, hg.unitsIn_positions hf hpos⟩

/-- A share is not in the way of the others. -/
theorem Fits.elsewhere {q : Pos} {n : Nat} (hfits : Fits mgr h pItem q n) (hf : h.Filed mgr)
    (hg : Gains mgr h pos entry k h') (hq : q ≠ pos) (hmade : pItem < h.objects.next)
    (hbags : (h'.objects.item pItem).bagslot = (h.objects.item pItem).bagslot) :
    Fits mgr h' pItem q n := by
  have hentry := hg.entries hmade
  rcases hfits with ⟨hpos, hst, hmax, hempty⟩ | ⟨r, hr, he, hlt⟩
  · refine .inl ⟨(hg.elsewhere hq).trans hpos, hg.storable hf hst, ?_, ?_⟩
    · unfold Item.template at hmax ⊢
      rwa [hentry]
    · rwa [hbags]
  · refine .inr ⟨r, hg.keeps hr, ?_, ?_⟩
    · rw [hg.entries (hf.made hr), he, hentry]
    · rwa [hg.count hq hr]

/-- A plan that fits is carried out: the units grow by the shares it lists. -/
theorem storeItem_grows (dest : List ItemPosCount) (hf : h.Filed mgr)
    (hwaits : h.Waits mgr pItem) (hnodup : (dest.map (·.pos)).Nodup)
    (hfits : ∀ e ∈ dest, Fits mgr h pItem e.pos e.count) :
    Grows mgr h (h.objects.item pItem).entry (dest.map (·.count)).sum
        (h.storeItem mgr dest pItem).1 ∧
      (h.Counted mgr → (∀ e ∈ dest, h.Suits mgr (h.objects.item pItem).entry e) →
        (h.storeItem mgr dest pItem).1.Counted mgr) := by
  induction dest generalizing h with
  | nil =>
      refine ⟨⟨hf, Nat.le_refl _, fun e => ?_⟩, fun hcounted _ => hcounted⟩
      rw [List.map_nil, List.sum_nil, ite_self, Nat.add_zero]
      rfl
  | cons e dest ih =>
      have hfit := hfits e List.mem_cons_self
      cases dest with
      | nil =>
          have hg := storeItem'_last hf hwaits.loose hwaits.made hfit
          refine ⟨hg.grows hf hfit.mem_positions, fun hcounted hsuits => ?_⟩
          obtain ⟨hpos, hmax⟩ := hsuits e List.mem_cons_self
          exact hg.counted hf hcounted hpos hmax
      | cons e' dest =>
          obtain ⟨hg, hloose, hbags⟩ :=
            storeItem'_clone hf hwaits.loose hwaits.made hwaits.known hfit
          have hentry := hg.entries hwaits.made
          have hstep : h.storeItem mgr (e :: e' :: dest) pItem =
            (h.storeItem' mgr e.pos pItem e.count true).1.storeItem mgr (e' :: dest) pItem := rfl
          rw [hstep]
          generalize (h.storeItem' mgr e.pos pItem e.count true).1 = h₁ at *
          obtain ⟨hnew, hrest⟩ := List.nodup_cons.1 hnodup
          have hne : ∀ d ∈ e' :: dest, d.pos ≠ e.pos := fun d hd he =>
            hnew (List.mem_map.2 ⟨d, hd, he⟩)
          have hwaits' : h₁.Waits mgr pItem :=
            ⟨hloose, Nat.lt_of_lt_of_le hwaits.made hg.next, hentry ▸ hwaits.known⟩
          obtain ⟨hgrows, hcounts⟩ := ih hg.filed hwaits' hrest fun d hd =>
            (hfits d (List.mem_cons_of_mem _ hd)).elsewhere hf hg (hne d hd) hwaits.made hbags
          rw [hentry] at hgrows hcounts
          refine ⟨⟨hgrows.filed, Nat.le_trans hg.next hgrows.next, fun x => ?_⟩, ?_⟩
          · rw [hgrows.units, (hg.grows hf hfit.mem_positions).units]
            rw [List.map_cons (l := e' :: dest), List.sum_cons]
            split <;> omega
          · intro hcounted hsuits
            obtain ⟨hpos, hmax⟩ := hsuits e List.mem_cons_self
            refine hcounts (hg.counted hf hcounted hpos hmax) fun d hd => ?_
            obtain ⟨hdpos, hdmax⟩ := hsuits d (List.mem_cons_of_mem _ hd)
            exact ⟨hdpos, by rwa [hg.unitsAt_elsewhere hf _ (hne d hd)]⟩

end Holdings

end Sunstrider.Inventory
