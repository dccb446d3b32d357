import Sunstrider.Proofs.StorePlan
import Sunstrider.Inventory.Equip

/-!
# The plan behind an accepted answer

When `CanStoreItem` or `CanBankItem` accepts an item for a position of its kind, the
plan has a share for every unit: each share is more than nothing and is one its
position can take, and no position is named twice. The position has to be one that
exists; `CanStoreItem` looks for itself, `CanBankItem` leaves it to its callers.
-/

namespace Sunstrider.Inventory

open Lib

section Accepted

variable (mgr : ObjectMgr) (w : Wearer) (o : Objects) (p : Player)

/-- There is a slot at the position. -/
def Storable (pos : Pos) : Prop :=
  if pos.bag = inventorySlotBag0 then isOwnSlot pos.slot = true
  else isBagSlot pos.bag = true ∧
    ∃ b, p.getOwnItem pos.bag = some b ∧ pos.slot < (o.item b).getBagSize mgr

/-- A share of a plan for a whole item. -/
def TakesSome (pProto : ItemTemplate) (pItem : Option ItemRef) (pos : Pos) (k : Nat) : Prop :=
  Takes mgr o p pProto pItem (Storable mgr o p) pos k ∧ (0 < pProto.stackable → 0 < k)

/-- Such a plan so far, with something left to place. -/
def Planning (pProto : ItemTemplate) (pItem : Option ItemRef) (n : Nat) (s : Search) : Prop :=
  Planned (TakesSome mgr o p pProto pItem) n s ∧ 0 < s.count

/-- The plan has a share for every unit. -/
def PlansAll (pProto : ItemTemplate) (pItem : ItemRef) (count : Nat)
    (dest : List ItemPosCount) : Prop :=
  ∃ shares : List (Pos × Nat), dest = planOf shares ∧ (shares.map Prod.fst).Nodup ∧
    room shares = count ∧ ∀ e ∈ shares,
      Takes mgr o p pProto (some pItem) (Storable mgr o p) e.1 e.2 ∧ 0 < e.2

variable {mgr w o p} {pProto : ItemTemplate} {pItem : ItemRef} {pos : Pos} {n : Nat}

theorem storable_of_admits (h : admits mgr o p pProto pos = true) : Storable mgr o p pos := by
  unfold admits at h
  unfold Storable
  split at h
  · rename_i hbag
    rw [if_pos hbag]
    simp only [Bool.or_eq_true, Bool.and_eq_true, decide_eq_true_eq] at h
    simp only [isOwnSlot, Bool.or_eq_true, Bool.and_eq_true, decide_eq_true_eq]
    unfold keyringSlotStart keyringSlotEnd inventorySlotItemStart inventorySlotItemEnd at h
    unfold bankSlotBagEnd keyringSlotStart keyringSlotEnd
    omega
  · rename_i hbag
    rw [if_neg hbag]
    split at h
    · rename_i hslots
      refine ⟨by simp [isBagSlot, hslots.1, hslots.2], ?_⟩
      cases hb : p.getOwnItem pos.bag with
      | none =>
          rw [hb] at h
          cases h
      | some b =>
          rw [hb] at h
          simp only [Bool.and_eq_true, decide_eq_true_eq] at h
          exact ⟨b, rfl, h.2⟩
    · cases h

theorem storable_of_valid (hvalid : p.isValidPos mgr o pos = true) (hbag : pos.bag ≠ nullBag)
    (hslot : pos.slot ≠ nullSlot) : Storable mgr o p pos := by
  unfold Player.isValidPos at hvalid
  unfold Storable
  rw [if_neg hbag] at hvalid
  split at hvalid
  · rename_i hown
    rw [if_pos hown]
    simp only [Bool.or_eq_true, Bool.and_eq_true, decide_eq_true_eq] at hvalid
    simp only [isOwnSlot, Bool.or_eq_true, Bool.and_eq_true, decide_eq_true_eq]
    unfold nullSlot equipmentSlotEnd inventorySlotBagStart inventorySlotBagEnd
      inventorySlotItemStart inventorySlotItemEnd keyringSlotStart keyringSlotEnd
      bankSlotItemStart bankSlotItemEnd bankSlotBagEnd at *
    omega
  · rename_i hown
    rw [if_neg hown]
    split at hvalid
    · rename_i hbagSlot
      refine ⟨hbagSlot, ?_⟩
      cases hb : p.getOwnItem pos.bag with
      | none =>
          rw [hb] at hvalid
          cases hvalid
      | some b =>
          rw [hb] at hvalid
          simp only [Bool.or_eq_true, decide_eq_true_eq] at hvalid
          exact ⟨b, rfl, hvalid.resolve_left hslot⟩
    · cases hvalid

/-- As long as something is left, a share is more than nothing. -/
theorem hands_positive (pItem : Option ItemRef) (R : Pos → Prop)
    (hR : ∀ pos, R pos → Storable mgr o p pos) :
    Hands mgr o p pProto pItem R (Planning mgr o p pProto pItem n)
      (Planned (TakesSome mgr o p pProto pItem) n) where
  weaken h := h.1
  again h hne := ⟨h, by omega⟩
  take := by
    rintro s s' pos m ⟨h, hleft⟩ hm htakes ht
    refine h.share ⟨?_, fun hstack => ?_⟩ ht
    · rcases htakes (min m s.count) (Nat.min_le_left ..) with ⟨hi, hpos, hk⟩ | hstacked
      · exact .inl ⟨hi, hR pos hpos, hk⟩
      · exact .inr hstacked
    · have := hm hstack
      omega

/-- What the walk through the searches leaves of an accepted answer. -/
theorem plansAll_of_walk {nsc count : Nat} {step : SearchStep} {noRoom : InventoryResult}
    (hno : noRoom ≠ .ok) (hcount : 0 < count)
    (hwalks : Walks (Planning mgr o p pProto (some pItem) count)
      (Planned (TakesSome mgr o p pProto (some pItem)) count) nsc step)
    (hres : (answerOf nsc noRoom (step ⟨[], count⟩)).res = .ok) :
    nsc = 0 ∧ PlansAll mgr o p pProto pItem count
      (answerOf nsc noRoom (step ⟨[], count⟩)).dest := by
  have hstart := hwalks ⟨[], count⟩ ⟨.start _ _, hcount⟩
  cases hstep : step ⟨[], count⟩ with
  | ok s =>
      rw [hstep] at hres
      exact absurd hres hno
  | error a =>
      rw [hstep] at hstart hres
      obtain ⟨hnsc, s', ⟨shares, hdest, hnodup, hsum, hall⟩, hzero, hs'⟩ := hstart hres
      refine ⟨hnsc, shares, hs'.trans hdest, hnodup, by omega, ?_⟩
      -- some share is not empty, so the item stacks and none is
      have hstack : 0 < pProto.stackable := by
        by_contra hstack
        have hnone : ∀ e ∈ shares, e.2 = 0 := by
          intro e he
          rcases (hall e he).1 with ⟨-, -, hk⟩ | ⟨r, -, -, hlt, -⟩
          · omega
          · omega
        have : room shares = 0 := by
          unfold room
          rw [List.sum_eq_zero]
          intro k hk
          obtain ⟨e, he, rfl⟩ := List.mem_map.1 hk
          exact hnone e he
        omega
      exact fun e he => ⟨(hall e he).1, (hall e he).2 hstack⟩

/-! ## `CanStoreItem` -/

variable (mgr o p) in
theorem noSimilarCount_lt (entry : Nat) {count : Nat} (hcount : count < pow32)
    (pItem : Option ItemRef) :
    (canTakeMoreSimilarItems' mgr o p entry count pItem).2.getD 0 < pow32 := by
  unfold canTakeMoreSimilarItems'
  split
  · exact hcount
  · dsimp only
    split
    · decide
    · split
      · decide
      · split
        · exact Nat.mod_lt _ (by decide)
        · decide

theorem canStoreItem_eq (pos : Pos) (pItem : ItemRef) (swap : Bool) :
    canStoreItem mgr o p pos pItem swap =
      let i := o.item pItem
      let more := canTakeMoreSimilarItems' mgr o p i.entry i.count (some pItem)
      let noSimilarCount := more.2.getD 0
      if i.isBindedNotWith p.guid = true then ⟨.dontOwnThatItem, [], some i.count⟩
      else if more.1 ≠ .ok ∧ i.count = noSimilarCount then
        ⟨more.1, [], some noSimilarCount⟩
      else
        answerOf noSimilarCount .inventoryFull
          (storeSearches mgr o p pos (i.template mgr) (some pItem) swap noSimilarCount
            ⟨[], if more.1 ≠ .ok then sub32 i.count noSimilarCount else i.count⟩) := by
  unfold canStoreItem canStoreItem'
  simp only [Option.map_some, Option.some.injEq]
  rfl

theorem sub32_zero {a : Nat} (ha : a < pow32) : sub32 a 0 = a := by
  unfold sub32
  unfold pow32 at *
  omega

theorem sub32_pos {a b : Nat} (ha : a < pow32) (hb : b < pow32) (hne : a ≠ b) :
    0 < sub32 a b := by
  unfold sub32
  unfold pow32 at *
  omega

theorem walks_planning (hbag : pos.bag ≠ nullBag → pos.bag ≠ inventorySlotBag0 →
    inventorySlotBagStart ≤ pos.bag ∧ pos.bag < inventorySlotBagEnd) (nsc n : Nat) :
    Walks (Planning mgr o p pProto (some pItem) n)
      (Planned (TakesSome mgr o p pProto (some pItem)) n) nsc
      (storeSearches mgr o p pos pProto (some pItem) false nsc) := by
  refine walks_storeSearches (hands_positive _ _ fun _ => storable_of_admits) nsc hbag ?_
  intro hb hs hvalid s h
  refine specificSlot_hands (hands_positive (some pItem) (Storable mgr o p) fun _ h => h)
    ?_ h
  intro hi _ _ s s' h ht
  refine (hands_positive (some pItem) (Storable mgr o p) fun _ h => h).take h id ?_ ht
  intro k hk
  exact .inl ⟨hi.resolve_right (by simp), storable_of_valid hvalid hb hs, hk⟩

/-- An accepted answer is about the whole count, with none too many. -/
theorem canStoreItem_accepts (hcount : 0 < (o.item pItem).count)
    (hlt : (o.item pItem).count < pow32)
    (hbag : pos.bag ≠ nullBag → pos.bag ≠ inventorySlotBag0 →
      inventorySlotBagStart ≤ pos.bag ∧ pos.bag < inventorySlotBagEnd)
    (hres : (canStoreItem mgr o p pos pItem false).res = .ok) :
    canStoreItem mgr o p pos pItem false =
      answerOf 0 .inventoryFull
        (storeSearches mgr o p pos ((o.item pItem).template mgr) (some pItem) false 0
          ⟨[], (o.item pItem).count⟩) := by
  rw [canStoreItem_eq] at hres ⊢
  dsimp only at hres ⊢
  split
  · rename_i hbound
    rw [if_pos hbound] at hres
    cases hres
  · rename_i hbound
    rw [if_neg hbound] at hres
    split
    · rename_i hmany
      rw [if_pos hmany] at hres
      exact absurd hres hmany.1
    · rename_i hfew
      rw [if_neg hfew] at hres
      have hnsc := noSimilarCount_lt mgr o p (o.item pItem).entry hlt (some pItem)
      have hpos : 0 < if (canTakeMoreSimilarItems' mgr o p (o.item pItem).entry
          (o.item pItem).count (some pItem)).1 ≠ .ok then
            sub32 (o.item pItem).count ((canTakeMoreSimilarItems' mgr o p (o.item pItem).entry
              (o.item pItem).count (some pItem)).2.getD 0)
          else (o.item pItem).count := by
        split
        · rename_i hmore
          exact sub32_pos hlt hnsc fun he => hfew ⟨hmore, he⟩
        · exact hcount
      obtain ⟨hzero, -⟩ := plansAll_of_walk (by simp) hpos (walks_planning hbag _ _) hres
      have hsame : (if (canTakeMoreSimilarItems' mgr o p (o.item pItem).entry
          (o.item pItem).count (some pItem)).1 ≠ .ok then sub32 (o.item pItem).count 0
          else (o.item pItem).count) = (o.item pItem).count := by
        split
        · exact sub32_zero hlt
        · rfl
      rw [hzero, hsame]

theorem canStoreItem_plansAll (hcount : 0 < (o.item pItem).count)
    (hlt : (o.item pItem).count < pow32)
    (hbag : pos.bag ≠ nullBag → pos.bag ≠ inventorySlotBag0 →
      inventorySlotBagStart ≤ pos.bag ∧ pos.bag < inventorySlotBagEnd)
    (hres : (canStoreItem mgr o p pos pItem false).res = .ok) :
    PlansAll mgr o p ((o.item pItem).template mgr) pItem (o.item pItem).count
      (canStoreItem mgr o p pos pItem false).dest := by
  have haccepts := canStoreItem_accepts hcount hlt hbag hres
  rw [haccepts] at hres ⊢
  exact (plansAll_of_walk (by simp) hcount (walks_planning hbag 0 _) hres).2

/-- An unknown entry is refused. -/
theorem known_of_canStoreItem (hres : (canStoreItem mgr o p pos pItem false).res = .ok) :
    mgr.known (o.item pItem).entry = true := by
  by_contra hunknown
  have hnone : mgr.getItemTemplate (o.item pItem).entry = none := if_neg hunknown
  rw [canStoreItem_eq] at hres
  have hmore : canTakeMoreSimilarItems' mgr o p (o.item pItem).entry (o.item pItem).count
      (some pItem) = (.cantCarryMoreOfThis, some (o.item pItem).count) := by
    unfold canTakeMoreSimilarItems'
    rw [hnone]
  dsimp only at hres
  rw [hmore] at hres
  split at hres
  · cases hres
  · rw [if_pos ⟨by simp, rfl⟩] at hres
    cases hres

/-! ## `CanBankItem` -/

section Bank

variable {I J : Search → Prop} {pProto : ItemTemplate}
variable (hI : Hands mgr o p pProto (some pItem) (Storable mgr o p) I J)

theorem storable_bankSlot {j : Nat} (h₁ : bankSlotItemStart ≤ j) (h₂ : j < bankSlotItemEnd) :
    Storable mgr o p ⟨inventorySlotBag0, j⟩ := by
  unfold Storable
  rw [if_pos rfl]
  unfold isOwnSlot
  simp only [Bool.or_eq_true, Bool.and_eq_true, decide_eq_true_eq]
  unfold bankSlotItemStart bankSlotItemEnd at *
  unfold bankSlotBagEnd
  omega

theorem storable_bankBag {bag b j : Nat} (h₁ : bankSlotBagStart ≤ bag)
    (h₂ : bag < bankSlotBagEnd) (hb : p.getOwnItem bag = some b)
    (hj : j < (o.item b).getBagSize mgr) : Storable mgr o p ⟨bag, j⟩ := by
  unfold Storable
  rw [if_neg]
  · exact ⟨by simp [isBagSlot, h₁, h₂], b, hb, hj⟩
  · show bag ≠ inventorySlotBag0
    unfold bankSlotBagEnd at h₂
    unfold inventorySlotBag0
    omega

include hI

variable (w pos) in
omit hI in
/-- The checks before the search in a slot refuse, or let it be made. -/
theorem bankInSlot_cases (swap : Bool) (s : Search) :
    bankInSlot mgr w o p pos pProto pItem swap s =
        afterSearch 0 (canStoreItemInSpecificSlot mgr o p pos pProto swap (some pItem)) s ∨
      ∃ res, res ≠ .ok ∧
        bankInSlot mgr w o p pos pProto pItem swap s = .error ⟨res, s.dest, none⟩ := by
  unfold bankInSlot
  dsimp only
  split_ifs with hbag hslot hbought huse hempty hslot
  · exact .inr ⟨_, by simp, rfl⟩
  · exact .inr ⟨_, huse, rfl⟩
  · exact .inl rfl
  · exact .inr ⟨_, by simp, rfl⟩
  · exact .inl rfl
  · exact .inr ⟨_, by simp, rfl⟩
  · exact .inl rfl

theorem walks_bankInSlot (swap : Bool)
    (hslot : ∀ s, I s →
      J (canStoreItemInSpecificSlot mgr o p pos pProto swap (some pItem) s).2) :
    Walks I J 0 (bankInSlot mgr w o p pos pProto pItem swap) := by
  intro s hs
  rcases bankInSlot_cases w pos swap s with he | ⟨res, hres, he⟩
  · rw [he]
    exact Walks.after hI.again hslot s hs
  · rw [he]
    exact fun hok => absurd hok hres

theorem walks_bankInBag {bag slot : Nat}
    (hbag : bag ≠ inventorySlotBag0 → bankSlotBagStart ≤ bag ∧ bag < bankSlotBagEnd) :
    Walks I J 0 (bankInBag mgr o p bag slot pProto pItem) := by
  have hsearch : ∀ merge, Walks I J 0
      (if bag = inventorySlotBag0 then
        afterSearch 0 (canStoreItemInInventorySlots mgr o p bankSlotItemStart bankSlotItemEnd
          pProto merge (some pItem) bag slot)
      else afterSearch 0 (searchNamedBag mgr o p bag pProto merge (some pItem) slot)) := by
    intro merge
    split
    · exact .after hI.again fun s hs =>
        inSlots_hands hI (fun _ j h₁ h₂ => storable_bankSlot h₁ h₂) hs
    · rename_i hne
      exact .namedBag hI fun b hb _ j hj =>
        storable_bankBag (hbag hne).1 (hbag hne).2 hb hj
  intro s hs
  unfold bankInBag
  dsimp only
  by_cases hfull : pProto.inventoryType = .bag ∧ (!(o.item pItem).isEmpty mgr) = true
  · rw [if_pos hfull]
    exact fun hok => absurd hok (by simp)
  · rw [if_neg hfull]
    exact Walks.andThen (.ite _ fun _ => hsearch true) (hsearch false) s hs

theorem walks_bankBags (bag slot : Nat) (merge nonSpecialized : Bool) :
    Walks I J 0 (searchBags mgr o p pProto merge nonSpecialized (some pItem) bag slot 0
      (slotsFrom bankSlotBagStart bankSlotBagEnd)) := by
  refine Walks.bags hI (fun _ i hi b hb _ j hj => ?_)
  rw [mem_slotsFrom] at hi
  exact storable_bankBag hi.1 hi.2 hb hj

theorem walks_bankSearches (swap : Bool)
    (hbag : pos.bag ≠ inventorySlotBag0 →
      bankSlotBagStart ≤ pos.bag ∧ pos.bag < bankSlotBagEnd)
    (hslot : pos.slot ≠ nullSlot → ∀ s, I s →
      J (canStoreItemInSpecificSlot mgr o p pos pProto swap (some pItem) s).2) :
    Walks I J 0 (bankSearches mgr w o p pos pProto pItem swap) := by
  have hslots : ∀ merge, Walks I J 0
      (afterSearch 0 (canStoreItemInInventorySlots mgr o p bankSlotItemStart bankSlotItemEnd
        pProto merge (some pItem) pos.bag pos.slot)) := fun merge =>
    .after hI.again fun s hs =>
      inSlots_hands hI (fun _ j h₁ h₂ => storable_bankSlot h₁ h₂) hs
  have hbags := fun merge ns => walks_bankBags hI pos.bag pos.slot merge ns
  refine Walks.andThen (.ite _ fun hnamed => ?_) (.andThen (.ite _ fun _ => ?_)
    (.andThen (.ite _ fun _ => ?_) ?_))
  · exact walks_bankInSlot hI swap (hslot hnamed.2)
  · exact walks_bankInBag hI hbag
  · exact Walks.andThen (hslots true) (.andThen (.ite _ fun _ => hbags true false)
      (hbags true true))
  · exact Walks.andThen (.ite _ fun _ => hbags false false) (.andThen (hslots false)
      (hbags false true))

end Bank

theorem canBankItem_plansAll (hcount : 0 < (o.item pItem).count)
    (hbank : pos.isBankPos = true) (hvalid : p.isValidPos mgr o pos = true)
    (hres : (canBankItem mgr w o p pos pItem false).res = .ok) :
    PlansAll mgr o p ((o.item pItem).template mgr) pItem (o.item pItem).count
      (canBankItem mgr w o p pos pItem false).dest := by
  have hbag : pos.bag ≠ nullBag ∧ (pos.bag ≠ inventorySlotBag0 →
      bankSlotBagStart ≤ pos.bag ∧ pos.bag < bankSlotBagEnd) := by
    simp only [Pos.isBankPos, Bool.or_eq_true, Bool.and_eq_true, decide_eq_true_eq] at hbank
    unfold nullBag
    unfold inventorySlotBag0 bankSlotBagStart bankSlotBagEnd bankSlotItemStart
      bankSlotItemEnd at *
    omega
  have hI : Hands mgr o p ((o.item pItem).template mgr) (some pItem) (Storable mgr o p)
      (Planning mgr o p ((o.item pItem).template mgr) (some pItem) (o.item pItem).count) _ :=
    hands_positive (some pItem) (Storable mgr o p) fun _ h => h
  have hwalks := walks_bankSearches (w := w) hI false hbag.2
    fun hs s h => specificSlot_hands hI (fun hi _ _ s s' h ht => hI.take h id (fun k hk =>
      .inl ⟨hi.resolve_right (by simp), storable_of_valid hvalid hbag.1 hs, hk⟩) ht) h
  unfold canBankItem at hres ⊢
  dsimp only at hres ⊢
  split
  · rename_i hbound
    rw [if_pos hbound] at hres
    cases hres
  · rename_i hbound
    rw [if_neg hbound] at hres
    split
    · rename_i hmany
      rw [if_pos hmany] at hres
      exact absurd hres hmany
    · rename_i hfew
      rw [if_neg hfew] at hres
      exact (plansAll_of_walk (by simp) hcount hwalks hres).2

end Accepted

end Sunstrider.Inventory
