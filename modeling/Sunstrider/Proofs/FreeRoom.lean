import Sunstrider.Proofs.SearchOrder

/-!
# The free room for an item

How much of an item a player can still carry has nothing to do with the order
the code searches in. `admits` says where the item may lie, `freeRoom` how much
of it a position can still take, and `capacity` sums this over the keyring, the
backpack and the bags worn in inventory slots. The order of the searches visits
every such position exactly once in the pass that fits it, so its total space is
the capacity.
-/

namespace Sunstrider.Inventory

open Lib

section FreeRoom

variable (mgr : ObjectMgr) (o : Objects) (p : Player)
variable (pProto : ItemTemplate) (pItem : Option ItemRef)

/-- The size of the bag worn in a slot. -/
def bagSizeAt (bag : Nat) : Nat :=
  match p.getOwnItem bag with
  | none => 0
  | some pBag => (o.item pBag).getBagSize mgr

/-- Whether the item may lie at a position of the inventory. -/
def admits (pos : Pos) : Bool :=
  if pos.bag = inventorySlotBag0 then
    (decide (keyringSlotStart ≤ pos.slot ∧ pos.slot < keyringSlotEnd) &&
      decide (pProto.bagFamily &&& bagFamilyMaskKeys ≠ 0)) ||
    decide (inventorySlotItemStart ≤ pos.slot ∧ pos.slot < inventorySlotItemEnd)
  else if inventorySlotBagStart ≤ pos.bag ∧ pos.bag < inventorySlotBagEnd then
    match p.getOwnItem pos.bag with
    | none => false
    | some pBag =>
        itemCanGoIntoBag pProto ((o.item pBag).template mgr) &&
          decide (pos.slot < (o.item pBag).getBagSize mgr)
  else false

/-- How many items a position can still take. An item that does not stack has no
stack to join. -/
def freeRoom (pos : Pos) : Nat :=
  match slotItem mgr o p pItem pos with
  | none => if admits mgr o p pProto pos then pProto.stackable else 0
  | some r =>
      if 1 < pProto.stackable ∧ (o.item r).entry = pProto.itemId ∧
          (pos.bag = inventorySlotBag0 ∨ admits mgr o p pProto pos) then
        pProto.stackable - (o.item r).count
      else 0

/-- The positions of a bag. -/
def bagPositions (bag : Nat) : List Pos := (List.range (bagSizeAt mgr o p bag)).map (Pos.mk bag)

/-- The positions items are stored in. -/
def storagePositions : List Pos :=
  (slotsFrom keyringSlotStart keyringSlotEnd).map (Pos.mk inventorySlotBag0) ++
  (slotsFrom inventorySlotItemStart inventorySlotItemEnd).map (Pos.mk inventorySlotBag0) ++
  (slotsFrom inventorySlotBagStart inventorySlotBagEnd).flatMap (bagPositions mgr o p)

/-- The free room for the item in all of the inventory. -/
def capacity : Nat := ((storagePositions mgr o p).map (freeRoom mgr o p pProto pItem)).sum

/-! ## The order visits no position twice -/

/-- Which pass a position belongs to: does it hold an item, and is it in the
keyring, the backpack, a special bag or a plain one. -/
def passOf (pos : Pos) : Bool × Nat :=
  ((slotItem mgr o p pItem pos).isSome,
    if pos.bag = inventorySlotBag0 then if pos.slot < inventorySlotItemEnd then 1 else 0
    else if (p.getOwnItem pos.bag).any fun b => ((o.item b).template mgr).isPlainBag then 3
    else 2)

/-- Candidates without a repetition, from the passes listed. -/
def FromPasses (passes : List (Bool × Nat)) (cands : List (Pos × Nat)) : Prop :=
  (cands.map Prod.fst).Nodup ∧ ∀ c ∈ cands, passOf mgr o p pItem c.1 ∈ passes

namespace FromPasses

variable {mgr o p pItem}

theorem append {xs ys : List (Pos × Nat)} {ps qs : List (Bool × Nat)}
    (hx : FromPasses mgr o p pItem ps xs) (hy : FromPasses mgr o p pItem qs ys)
    (hd : ∀ q ∈ ps, q ∉ qs) : FromPasses mgr o p pItem (ps ++ qs) (xs ++ ys) := by
  constructor
  · rw [List.map_append, List.nodup_append]
    refine ⟨hx.1, hy.1, fun a ha b hb hab => ?_⟩
    obtain ⟨c, hc, rfl⟩ := List.mem_map.1 ha
    obtain ⟨d, hd', hcd⟩ := List.mem_map.1 hb
    exact hd _ (hx.2 c hc) (by rw [hab, ← hcd]; exact hy.2 d hd')
  · intro c hc
    rcases List.mem_append.1 hc with h | h
    · exact List.mem_append_left _ (hx.2 c h)
    · exact List.mem_append_right _ (hy.2 c h)

theorem ite {xs : List (Pos × Nat)} {ps : List (Bool × Nat)} (c : Prop) [Decidable c]
    (hx : FromPasses mgr o p pItem ps xs) :
    FromPasses mgr o p pItem ps (if c then xs else []) := by
  split
  · exact hx
  · exact ⟨by simp, by simp⟩

end FromPasses

theorem mem_candidates {merge : Bool} {bag : Nat} {slots : List Nat} {c : Pos × Nat}
    (hc : c ∈ candidates mgr o p pProto pItem merge bag slots) :
    ∃ j ∈ slots, c.1 = ⟨bag, j⟩ ∧
      (slotItem mgr o p pItem c.1).isSome = merge ∧
      slotSpace o pProto (slotItem mgr o p pItem c.1) = some c.2 := by
  obtain ⟨j, hj, h⟩ := List.mem_filterMap.1 hc
  have hpos := candidate_fst mgr o p pProto pItem h
  refine ⟨j, hj, hpos, ?_⟩
  unfold candidate at h
  simp only at h
  split at h
  · exact absurd h (by simp)
  · rename_i hm
    obtain ⟨n, hn, rfl⟩ := Option.map_eq_some_iff.1 h
    exact ⟨not_not.1 hm, hn⟩

theorem mem_bagSlots {nonSpecialized : Bool} {bag j : Nat}
    (hj : j ∈ bagSlots mgr o p pProto nonSpecialized bag) :
    ∃ b, p.getOwnItem bag = some b ∧ ((o.item b).template mgr).isPlainBag = nonSpecialized ∧
      itemCanGoIntoBag pProto ((o.item b).template mgr) = true ∧
      j < (o.item b).getBagSize mgr := by
  unfold bagSlots at hj
  cases hb : p.getOwnItem bag with
  | none => simp [hb] at hj
  | some b =>
      simp only [hb] at hj
      split at hj
      · rename_i h
        exact ⟨b, rfl, h.1.symm, h.2, List.mem_range.1 hj⟩
      · simp at hj

theorem fromPasses_inSlots (merge : Bool) (first last k : Nat)
    (hk : ∀ j, first ≤ j → j < last → (if j < inventorySlotItemEnd then 1 else 0) = k) :
    FromPasses mgr o p pItem [(merge, k)]
      (candidates mgr o p pProto pItem merge inventorySlotBag0 (slotsFrom first last)) := by
  constructor
  · refine (candidates_fst_sublist mgr o p pProto pItem merge _ _).nodup ?_
    exact (nodup_slotsFrom first last).map fun a b h => by simpa using h
  · intro c hc
    obtain ⟨j, hj, hpos, hm, -⟩ := mem_candidates mgr o p pProto pItem hc
    rw [mem_slotsFrom] at hj
    rw [List.mem_singleton, passOf, hm, hpos, if_pos rfl, hk j hj.1 hj.2]

theorem fromPasses_inBags (merge nonSpecialized : Bool) (k : Nat)
    (hk : (if nonSpecialized then 3 else 2) = k) :
    FromPasses mgr o p pItem [(merge, k)]
      (bagCandidates mgr o p pProto pItem merge nonSpecialized
        (slotsFrom inventorySlotBagStart inventorySlotBagEnd)) := by
  constructor
  · unfold bagCandidates
    rw [List.map_flatMap, List.nodup_flatMap]
    constructor
    · intro i _
      refine (candidates_fst_sublist mgr o p pProto pItem merge _ _).nodup ?_
      refine List.Nodup.map (fun a b h => by simpa using h) ?_
      unfold bagSlots
      split
      · exact List.nodup_nil
      · simp only
        split
        · exact List.nodup_range
        · exact List.nodup_nil
    · refine (nodup_slotsFrom _ _).imp fun {a b} hab => ?_
      intro pos ha hb
      obtain ⟨c, hc, rfl⟩ := List.mem_map.1 ha
      obtain ⟨d, hd, hcd⟩ := List.mem_map.1 hb
      obtain ⟨i, -, hi, -⟩ := mem_candidates mgr o p pProto pItem hc
      obtain ⟨j, -, hj, -⟩ := mem_candidates mgr o p pProto pItem hd
      rw [hi, hj] at hcd
      exact hab (Pos.mk.inj hcd).1.symm
  · intro c hc
    obtain ⟨i, hi, hc⟩ := List.mem_flatMap.1 hc
    obtain ⟨j, hj, hpos, hm, -⟩ := mem_candidates mgr o p pProto pItem hc
    obtain ⟨b, hb, hplain, -⟩ := mem_bagSlots mgr o p pProto hj
    rw [mem_slotsFrom] at hi
    have hne : i ≠ inventorySlotBag0 := by
      simp only [inventorySlotBagStart, inventorySlotBagEnd, inventorySlotBag0] at hi ⊢
      omega
    rw [List.mem_singleton, passOf, hm, hpos]
    simp only [if_neg hne, hb, Option.any_some, hplain, hk]

theorem nodup_searchOrder :
    ((searchOrder mgr o p pProto pItem).map Prod.fst).Nodup := by
  have keyring := fun merge => fromPasses_inSlots mgr o p pProto pItem merge
    keyringSlotStart keyringSlotEnd 0 (fun j h _ => by
      have hj : ¬ j < inventorySlotItemEnd := by
        simp only [keyringSlotStart, inventorySlotItemEnd] at h ⊢
        omega
      rw [if_neg hj])
  have backpack := fun merge => fromPasses_inSlots mgr o p pProto pItem merge
    inventorySlotItemStart inventorySlotItemEnd 1 (fun j _ h => by rw [if_pos h])
  have special := fun merge => fromPasses_inBags mgr o p pProto pItem merge false 2 rfl
  have plain := fun merge => fromPasses_inBags mgr o p pProto pItem merge true 3 rfl
  have hmerge := (keyring true).append
    ((backpack true).append (((special true).ite (pProto.bagFamily ≠ 0)).append (plain true)
      (by decide)) (by decide)) (by decide)
  have hspecial := ((keyring false).ite (pProto.bagFamily &&& bagFamilyMaskKeys ≠ 0)).append
    (special false) (by decide)
  have hfree := (hspecial.ite (pProto.bagFamily ≠ 0)).append
    ((backpack false).append (plain false) (by decide)) (by decide)
  exact ((hmerge.ite (1 < pProto.stackable)).append hfree (by decide)).1

/-! ## Its space is the capacity -/

/-- The space a pass finds at a position. -/
def passRoom (merge : Bool) (pos : Pos) : Nat :=
  ((candidate mgr o p pProto pItem merge pos).map Prod.snd).getD 0

theorem room_candidates (merge : Bool) (bag : Nat) (slots : List Nat) :
    room (candidates mgr o p pProto pItem merge bag slots) =
      (slots.map fun j => passRoom mgr o p pProto pItem merge ⟨bag, j⟩).sum := by
  induction slots with
  | nil => rfl
  | cons j js ih =>
      rw [candidates] at ih ⊢
      rw [List.filterMap_cons, List.map_cons, List.sum_cons, ← ih, passRoom]
      cases candidate mgr o p pProto pItem merge ⟨bag, j⟩ with
      | none => exact (Nat.zero_add _).symm
      | some c => rfl

/-- At a position the item may lie at, the two passes together find the free room. -/
theorem passRoom_add {pos : Pos} {c : Prop} [Decidable c]
    (hjoin : pos.bag = inventorySlotBag0 ∨ admits mgr o p pProto pos = true)
    (hfree : c ↔ admits mgr o p pProto pos = true) :
    (if 1 < pProto.stackable then passRoom mgr o p pProto pItem true pos else 0) +
      (if c then passRoom mgr o p pProto pItem false pos else 0) =
      freeRoom mgr o p pProto pItem pos := by
  unfold passRoom candidate freeRoom
  cases h : slotItem mgr o p pItem pos with
  | none =>
      by_cases hc : c
      · have ha := hfree.1 hc
        simp [slotSpace, hc, ha]
      · have ha : admits mgr o p pProto pos = false := by
          rw [Bool.eq_false_iff]
          exact fun ha => hc (hfree.2 ha)
        simp [hc, ha]
  | some r =>
      by_cases hs : 1 < pProto.stackable
      · by_cases he : (o.item r).entry = pProto.itemId
        · by_cases hlt : (o.item r).count < pProto.stackable
          · simp [slotSpace, hs, he, hlt, hjoin]
          · have hzero : pProto.stackable - (o.item r).count = 0 := by omega
            simp [slotSpace, hlt, hzero]
        · simp [slotSpace, he]
      · simp [hs]

theorem sum_map_ite (c : Prop) [Decidable c] (xs : List Nat) (f : Nat → Nat) :
    (if c then (xs.map f).sum else 0) = (xs.map fun x => if c then f x else 0).sum := by
  split
  · rfl
  · simp

/-- The passes through a stretch of the player's own slots. -/
theorem room_inSlots (first last : Nat) (c : Prop) [Decidable c]
    (hfree : ∀ j, first ≤ j → j < last → (c ↔ admits mgr o p pProto ⟨inventorySlotBag0, j⟩ = true)) :
    (if 1 < pProto.stackable then
      room (candidates mgr o p pProto pItem true inventorySlotBag0 (slotsFrom first last)) else 0) +
    (if c then
      room (candidates mgr o p pProto pItem false inventorySlotBag0 (slotsFrom first last))
      else 0) =
    (((slotsFrom first last).map (Pos.mk inventorySlotBag0)).map
      (freeRoom mgr o p pProto pItem)).sum := by
  rw [room_candidates, room_candidates, sum_map_ite, sum_map_ite, ← List.sum_map_add,
    List.map_map]
  congr 1
  refine List.map_congr_left fun j hj => ?_
  rw [mem_slotsFrom] at hj
  exact passRoom_add mgr o p pProto pItem (.inl rfl) (hfree j hj.1 hj.2)

/-- The space the four passes find in one bag. -/
def bagPassRoom (bag : Nat) : Nat :=
  let passes := fun merge nonSpecialized =>
    room (candidates mgr o p pProto pItem merge bag (bagSlots mgr o p pProto nonSpecialized bag))
  (if 1 < pProto.stackable then
    (if pProto.bagFamily ≠ 0 then passes true false else 0) + passes true true else 0) +
  ((if pProto.bagFamily ≠ 0 then passes false false else 0) + passes false true)

theorem bagPassRoom_eq (bag : Nat) (hlo : inventorySlotBagStart ≤ bag)
    (hhi : bag < inventorySlotBagEnd) :
    bagPassRoom mgr o p pProto pItem bag =
      ((bagPositions mgr o p bag).map (freeRoom mgr o p pProto pItem)).sum := by
  unfold bagPassRoom
  extract_lets passes
  have hne : bag ≠ inventorySlotBag0 := by
    simp only [inventorySlotBagStart, inventorySlotBagEnd, inventorySlotBag0] at hlo hhi ⊢
    omega
  have hadm : ∀ j, admits mgr o p pProto ⟨bag, j⟩ =
      match p.getOwnItem bag with
      | none => false
      | some b => itemCanGoIntoBag pProto ((o.item b).template mgr) &&
          decide (j < (o.item b).getBagSize mgr) := by
    intro j
    rw [admits, if_neg hne, if_pos ⟨hlo, hhi⟩]
  cases hb : p.getOwnItem bag with
  | none =>
      have hslots : ∀ ns, bagSlots mgr o p pProto ns bag = [] := fun ns => by simp [bagSlots, hb]
      simp [passes, hslots, candidates, bagPositions, bagSizeAt, hb]
  | some b =>
      by_cases hgo : itemCanGoIntoBag pProto ((o.item b).template mgr) = true
      · -- one of the two kinds of pass sees the whole bag, the other nothing
        have hrange : (bagPositions mgr o p bag).map (freeRoom mgr o p pProto pItem) =
            (List.range ((o.item b).getBagSize mgr)).map
              fun j => freeRoom mgr o p pProto pItem ⟨bag, j⟩ := by
          simp [bagPositions, bagSizeAt, hb, Function.comp_def]
        have hwhole : (if 1 < pProto.stackable then
              room (candidates mgr o p pProto pItem true bag
                (List.range ((o.item b).getBagSize mgr))) else 0) +
            room (candidates mgr o p pProto pItem false bag
              (List.range ((o.item b).getBagSize mgr))) =
            ((bagPositions mgr o p bag).map (freeRoom mgr o p pProto pItem)).sum := by
          rw [hrange, room_candidates, room_candidates, sum_map_ite, ← List.sum_map_add]
          congr 1
          refine List.map_congr_left fun j hj => ?_
          have ha : admits mgr o p pProto ⟨bag, j⟩ = true := by
            rw [hadm, hb]
            simpa [hgo] using List.mem_range.1 hj
          have := passRoom_add mgr o p pProto pItem (c := True) (.inr ha) (by simp [ha])
          simpa using this
        by_cases hplain : ((o.item b).template mgr).isPlainBag = true
        · have hspecial : bagSlots mgr o p pProto false bag = [] := by
            simp [bagSlots, hb, hplain]
          have hall : bagSlots mgr o p pProto true bag =
              List.range ((o.item b).getBagSize mgr) := by
            simp [bagSlots, hb, hplain, hgo]
          have hempty : ∀ merge, passes merge false = 0 := by
            intro merge
            simp [passes, hspecial, candidates]
          simp only [hempty, passes, hall, ite_self, Nat.zero_add]
          exact hwhole
        · have hfam : pProto.bagFamily ≠ 0 := fun hf =>
            hplain (isPlainBag_of_itemCanGoIntoBag hgo hf)
          rw [Bool.not_eq_true] at hplain
          have hall : bagSlots mgr o p pProto false bag =
              List.range ((o.item b).getBagSize mgr) := by
            simp [bagSlots, hb, hplain, hgo]
          have hnone : bagSlots mgr o p pProto true bag = [] := by
            simp [bagSlots, hb, hplain]
          have hempty : ∀ merge, passes merge true = 0 := by
            intro merge
            simp [passes, hnone, candidates]
          simp only [hempty, if_pos hfam, passes, hall, Nat.add_zero]
          exact hwhole
      · have hslots : ∀ ns, bagSlots mgr o p pProto ns bag = [] := fun ns => by
          simp [bagSlots, hb, hgo]
        have hzero : ∀ j, freeRoom mgr o p pProto pItem ⟨bag, j⟩ = 0 := by
          intro j
          have ha : admits mgr o p pProto ⟨bag, j⟩ = false := by
            rw [hadm, hb]
            simp [hgo]
          unfold freeRoom
          split
          · simp [ha]
          · simp [ha, hne]
        simp [passes, hslots, candidates, bagPositions, Function.comp_def, hzero]

/-- What the searches can place is the free room, whatever their order. -/
theorem room_searchOrder :
    room (searchOrder mgr o p pProto pItem) = capacity mgr o p pProto pItem := by
  have hroomIte : ∀ (c : Prop) [Decidable c] (xs : List (Pos × Nat)),
      room (if c then xs else []) = if c then room xs else 0 := by
    intro c _ xs
    split <;> rfl
  have hroomBags : ∀ (merge ns : Bool),
      room (bagCandidates mgr o p pProto pItem merge ns
        (slotsFrom inventorySlotBagStart inventorySlotBagEnd)) =
      ((slotsFrom inventorySlotBagStart inventorySlotBagEnd).map fun i =>
        room (candidates mgr o p pProto pItem merge i (bagSlots mgr o p pProto ns i))).sum := by
    intro merge ns
    rw [bagCandidates]
    induction slotsFrom inventorySlotBagStart inventorySlotBagEnd with
    | nil => rfl
    | cons i is ih => rw [List.flatMap_cons, room_append, ih, List.map_cons, List.sum_cons]
  have hkeyring := room_inSlots mgr o p pProto pItem keyringSlotStart keyringSlotEnd
    (pProto.bagFamily &&& bagFamilyMaskKeys ≠ 0) (fun j h₁ h₂ => by
      have hback : ¬ j < inventorySlotItemEnd := by
        simp only [keyringSlotStart, inventorySlotItemEnd] at h₁ ⊢
        omega
      simp [admits, h₁, h₂, hback])
  have hbackpack := room_inSlots mgr o p pProto pItem inventorySlotItemStart inventorySlotItemEnd
    True (fun j h₁ h₂ => by simp [admits, h₁, h₂])
  have hbags : ((slotsFrom inventorySlotBagStart inventorySlotBagEnd).map
      fun i => bagPassRoom mgr o p pProto pItem i).sum =
      (((slotsFrom inventorySlotBagStart inventorySlotBagEnd).flatMap
        (bagPositions mgr o p)).map (freeRoom mgr o p pProto pItem)).sum := by
    rw [List.map_flatMap, List.flatMap_def, List.sum_flatten, List.map_map]
    congr 1
    refine List.map_congr_left fun i hi => ?_
    rw [mem_slotsFrom] at hi
    exact bagPassRoom_eq mgr o p pProto pItem i hi.1 hi.2
  have hkeys : pProto.bagFamily = 0 → ¬ pProto.bagFamily &&& bagFamilyMaskKeys ≠ 0 := by
    intro h
    simp [h]
  rw [capacity, storagePositions, List.map_append, List.map_append, List.sum_append,
    List.sum_append, ← hkeyring, ← hbackpack, ← hbags]
  simp only [searchOrder, bagPassRoom, room_append, hroomIte, hroomBags, List.sum_map_add,
    ← sum_map_ite, if_true]
  by_cases hs : 1 < pProto.stackable
  · by_cases hf : pProto.bagFamily = 0
    · have := hkeys hf
      simp [hs, hf]
      omega
    · simp only [if_pos hs, if_pos hf]
      omega
  · by_cases hf : pProto.bagFamily = 0
    · simp [hs, hf]
    · simp only [if_neg hs, if_pos hf]
      omega

end FreeRoom

end Sunstrider.Inventory
