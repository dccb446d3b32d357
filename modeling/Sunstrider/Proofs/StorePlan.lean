import Sunstrider.Proofs.FreeRoom

/-!
# What a plan may contain

Whatever slot or bag the caller names, every search adds to the plan only
positions that can take what it gives them, never one twice, and lowers the
count by exactly that much. `Takes` is what a position can take: an empty slot
of the region searched up to a full stack, a stack of the same entry up to the
rest of one. `Planned` is the invariant of the searches and `Keeps` says that a
part of `_CanStoreItem` preserves it and answers `ok` only with nothing left to
place. The searches do not mind what else a caller counts as taking, so the
invariant is over any `T` that holds where `Takes` does.

What is known before a search may be more than what holds behind it, where nothing
may be left. `Walks` is `Keeps` for such a pair of invariants, and it is for these
that the searches, of the inventory and of the bank, are gone through.

The shares of the invariant are the ones subtracted from the count; the plan
lists them in eight bits.
-/

namespace Sunstrider.Inventory

open Lib

section Plan

variable (mgr : ObjectMgr) (o : Objects) (p : Player)
variable (pProto : ItemTemplate) (pItem : Option ItemRef)

variable {pos : Pos} {m : Nat}

variable {s s' : Search}

/-- What a position can take, where empty slots count in the region `R` only. -/
def Takes (R : Pos → Prop) (pos : Pos) (k : Nat) : Prop :=
  (slotItem mgr o p pItem pos = none ∧ R pos ∧ k ≤ pProto.stackable) ∨
  ∃ r, slotItem mgr o p pItem pos = some r ∧ (o.item r).entry = pProto.itemId ∧
    (o.item r).count < pProto.stackable ∧ (o.item r).count + k ≤ pProto.stackable

/-- The plan is made of shares the positions can take; with what is left they
come to `n`. -/
def Planned (T : Pos → Nat → Prop) (n : Nat) (s : Search) : Prop :=
  ∃ shares : List (Pos × Nat), s.dest = planOf shares ∧ (shares.map Prod.fst).Nodup ∧
    room shares + s.count = n ∧ ∀ e ∈ shares, T e.1 e.2

/-- A part of the function keeps the invariant, and ends it with `ok` only when
everything is placed. -/
def Keeps (T : Pos → Nat → Prop) (n : Nat) (step : SearchStep) : Prop :=
  ∀ s, Planned T n s →
    match step s with
    | .ok s' => Planned T n s'
    | .error a => a.res = .ok → ∃ s', Planned T n s' ∧ s'.count = 0 ∧ a.dest = s'.dest

variable {mgr o p pProto pItem}
variable {R : Pos → Prop} {T : Pos → Nat → Prop} {n : Nat}

theorem Planned.start (T : Pos → Nat → Prop) (n : Nat) : Planned T n ⟨[], n⟩ :=
  ⟨[], rfl, List.nodup_nil, by simp, by simp⟩

theorem Planned.share (h : Planned T n s) (hT : T pos (min m s.count))
    (ht : s.take pos m = some s') : Planned T n s' := by
  obtain ⟨shares, hdest, hnodup, hsum, hall⟩ := h
  cases hc : isContainedIn pos s.dest with
  | true => simp [Search.take, hc] at ht
  | false =>
      rw [take_eq hc m, Option.some_inj] at ht
      subst ht
      have hnew : pos ∉ shares.map Prod.fst := by
        rw [← planOf_pos, ← hdest, ← isContainedIn_iff, hc]
        simp
      refine ⟨shares ++ [(pos, min m s.count)], ?_, ?_, ?_, ?_⟩
      · simp [spread, hdest]
      · rw [List.map_append, List.nodup_append]
        refine ⟨hnodup, by simp, ?_⟩
        intro a ha b hb hab
        obtain rfl : b = pos := by simpa using hb
        exact hnew (hab ▸ ha)
      · rw [room_append]
        simp only [spread, room_cons, room_nil]
        omega
      · intro e he
        rcases List.mem_append.1 he with he | he
        · exact hall e he
        · obtain rfl : e = (pos, min m s.count) := by simpa using he
          exact hT

theorem Planned.take (h : Planned T n s) (hT : ∀ k, k ≤ m → k ≤ s.count → T pos k)
    (ht : s.take pos m = some s') : Planned T n s' :=
  h.share (hT _ (Nat.min_le_left ..) (Nat.min_le_right ..)) ht

theorem takes_of_slotSpace {k : Nat}
    (h : slotSpace o pProto (slotItem mgr o p pItem pos) = some m) (hk : k ≤ m)
    (hR : slotItem mgr o p pItem pos = none → R pos) : Takes mgr o p pProto pItem R pos k := by
  cases hi : slotItem mgr o p pItem pos with
  | none =>
      rw [hi] at h
      obtain rfl : pProto.stackable = m := by simpa [slotSpace] using h
      exact .inl ⟨hi, hR hi, hk⟩
  | some r =>
      rw [hi, slotSpace] at h
      split at h
      · rename_i hr
        obtain rfl : pProto.stackable - (o.item r).count = m := by simpa using h
        exact .inr ⟨r, hi, hr.1, hr.2, by omega⟩
      · exact absurd h (by simp)

theorem slotSpace_pos {pItem2 : Option ItemRef} (h : slotSpace o pProto pItem2 = some m) :
    0 < pProto.stackable → 0 < m := by
  cases pItem2 with
  | none =>
      obtain rfl : pProto.stackable = m := by simpa [slotSpace] using h
      exact id
  | some r =>
      rw [slotSpace] at h
      split at h
      · rename_i hr
        obtain rfl : pProto.stackable - (o.item r).count = m := by simpa using h
        omega
      · exact absurd h (by simp)

/-- What a search may rely on: `I` before it, `J` behind it, and every share it hands
out is one the position can take. -/
structure Hands (mgr : ObjectMgr) (o : Objects) (p : Player) (pProto : ItemTemplate)
    (pItem : Option ItemRef) (R : Pos → Prop) (I J : Search → Prop) : Prop where
  weaken : ∀ {s}, I s → J s
  again : ∀ {s}, J s → s.count ≠ 0 → I s
  take : ∀ {s s' pos m}, I s → (0 < pProto.stackable → 0 < m) →
    (∀ k, k ≤ m → Takes mgr o p pProto pItem R pos k) → s.take pos m = some s' → J s'

/-- A part of the function goes on with `I`, and ends it with `ok` only when the item
may be carried and everything is placed. -/
def Walks (I J : Search → Prop) (nsc : Nat) (step : SearchStep) : Prop :=
  ∀ s, I s →
    match step s with
    | .ok s' => I s'
    | .error a => a.res = .ok → nsc = 0 ∧ ∃ s', J s' ∧ s'.count = 0 ∧ a.dest = s'.dest

theorem Hands.planned (hT : ∀ pos k, Takes mgr o p pProto pItem R pos k → T pos k) :
    Hands mgr o p pProto pItem R (Planned T n) (Planned T n) where
  weaken h := h
  again h _ := h
  take h _ htakes ht := h.take (fun k hk _ => hT _ _ (htakes k hk)) ht

theorem Walks.keeps {nsc : Nat} {step : SearchStep}
    (h : Walks (Planned T n) (Planned T n) nsc step) : Keeps T n step := by
  intro s hs
  have := h s hs
  cases hstep : step s with
  | ok s' => rwa [hstep] at this
  | error a =>
      rw [hstep] at this
      exact fun hok => (this hok).2

variable {I J : Search → Prop}

section Hands

variable (hI : Hands mgr o p pProto pItem R I J)

variable {merge : Bool} {s : Search}

variable {bag skipBag skipSlot : Nat}

include hI

theorem searchSlots_hands {slots : List Nat} (hR : merge = false → ∀ j ∈ slots, R ⟨bag, j⟩)
    (h : I s) : J (searchSlots mgr o p pProto merge pItem bag slots s) := by
  induction slots generalizing s with
  | nil => exact hI.weaken h
  | cons j js ih =>
      have ih := fun {s} h => ih (s := s) (fun hm i hi => hR hm i (by simp [hi])) h
      rw [searchSlots]
      split
      · exact ih h
      · rename_i hm
        cases hsp : slotSpace o pProto (slotItem mgr o p pItem ⟨bag, j⟩) with
        | none => exact ih h
        | some m =>
            cases ht : s.take ⟨bag, j⟩ m with
            | none => simpa only [ht] using ih h
            | some s' =>
                have hs' : J s' := by
                  refine hI.take h (slotSpace_pos hsp) (fun k hk => ?_) ht
                  refine takes_of_slotSpace hsp hk (fun hnone => hR ?_ j (by simp))
                  rw [hnone] at hm
                  simpa using (not_not.1 hm).symm
                simp only [ht]
                split
                · exact hs'
                · rename_i hleft
                  exact ih (hI.again hs' hleft)

theorem inSlots_hands {first last : Nat}
    (hR : merge = false → ∀ j, first ≤ j → j < last → R ⟨inventorySlotBag0, j⟩) (h : I s) :
    J (canStoreItemInInventorySlots mgr o p first last pProto merge pItem skipBag
      skipSlot s).2 := by
  refine searchSlots_hands hI (fun hm j hj => ?_) h
  have hj := mem_slotsFrom.1 (List.mem_of_mem_filter hj)
  exact hR hm j hj.1 hj.2

theorem inBag_hands {nonSpecialized : Bool}
    (hR : merge = false → ∀ b, p.getOwnItem bag = some b →
      itemCanGoIntoBag pProto ((o.item b).template mgr) = true → ∀ j,
      j < (o.item b).getBagSize mgr → R ⟨bag, j⟩)
    (h : I s) :
    J (canStoreItemInBag mgr o p bag pProto merge nonSpecialized pItem skipBag
      skipSlot s).2 := by
  unfold canStoreItemInBag
  split
  · exact hI.weaken h
  · split
    · exact hI.weaken h
    · rename_i b hb
      simp only
      split
      · exact hI.weaken h
      · split
        · exact hI.weaken h
        · rename_i hgo
          refine searchSlots_hands hI (fun hm j hj => ?_) h
          have hj := List.mem_range.1 (List.mem_of_mem_filter hj)
          exact hR hm b hb (by simpa using hgo) j hj

/-- The slot named by the caller; `hfit` is about a slot that is free, or will be
after a swap, once it has passed the checks on what may lie there. -/
theorem specificSlot_hands {pos : Pos} {swap : Bool}
    (hfit : slotItem mgr o p pItem pos = none ∨ swap = true →
      (pos.bag = inventorySlotBag0 → ¬ (keyringSlotStart ≤ pos.slot ∧ pos.slot < keyringSlotEnd ∧
      pProto.bagFamily &&& bagFamilyMaskKeys = 0)) →
      (pos.bag ≠ inventorySlotBag0 → ∃ b, p.getOwnItem pos.bag = some b ∧
      itemCanGoIntoBag pProto ((o.item b).template mgr) = true) → ∀ s s', I s →
      s.take pos pProto.stackable = some s' → J s')
    (h : I s) : J (canStoreItemInSpecificSlot mgr o p pos pProto swap pItem s).2 := by
  have htake : ∀ m, (∀ s', s.take pos m = some s' → J s') → J ((s.take pos m).getD s) := by
    intro m hm
    cases ht : s.take pos m with
    | none => exact hI.weaken h
    | some s' => exact hm s' ht
  have hfree : slotItem mgr o p pItem pos = none ∨ swap = true →
      ∀ inBag : InventoryResult × Search, (pos.bag ≠ inventorySlotBag0 → J inBag.2) →
      J (if pos.bag = inventorySlotBag0 then
        if keyringSlotStart ≤ pos.slot ∧ pos.slot < keyringSlotStart + getMaxKeyringSize ∧
            pProto.bagFamily &&& bagFamilyMaskKeys = 0 then
          (InventoryResult.itemDoesntGoIntoBag, s)
        else if (buybackSlotStart ≤ pos.slot ∧ pos.slot < buybackSlotEnd) ∨
            playerSlotEnd ≤ pos.slot then
          (.itemDoesntGoIntoBag, s)
        else (.ok, (s.take pos pProto.stackable).getD s)
      else inBag).2 := by
    intro hfree inBag hbagged
    split
    · rename_i hbag
      split
      · exact hI.weaken h
      · rename_i hkey
        split
        · exact hI.weaken h
        · exact htake _ fun s' => hfit hfree (fun _ => hkey) (fun hne => absurd hbag hne) s s' h
    · rename_i hbag
      exact hbagged hbag
  have hbagged : slotItem mgr o p pItem pos = none ∨ swap = true → pos.bag ≠ inventorySlotBag0 →
      ∀ b, p.getOwnItem pos.bag = some b →
        J (if !itemCanGoIntoBag pProto ((o.item b).template mgr) then
          (InventoryResult.itemDoesntGoIntoBag, s)
        else (.ok, (s.take pos pProto.stackable).getD s)).2 := by
    intro hfree hbag b hb
    split
    · exact hI.weaken h
    · rename_i hgo
      exact htake _ fun s' => hfit hfree (fun he => absurd he hbag)
        (fun _ => ⟨b, hb, by simpa using hgo⟩) s s' h
  unfold canStoreItemInSpecificSlot
  cases hi : slotItem mgr o p pItem pos with
  | none =>
      refine hfree (.inl hi) _ fun hbag => ?_
      cases hb : p.getOwnItem pos.bag with
      | none => exact hI.weaken h
      | some b => exact hbagged (.inl hi) hbag b hb
  | some r =>
      simp only
      cases swap with
      | true =>
          refine hfree (.inr rfl) _ fun hbag => ?_
          cases hb : p.getOwnItem pos.bag with
          | none => exact hI.weaken h
          | some b => exact hbagged (.inr rfl) hbag b hb
      | false =>
          rw [if_neg (by simp)]
          split
          · exact hI.weaken h
          · rename_i he
            split
            · exact hI.weaken h
            · rename_i hlt
              refine htake _ fun s' => hI.take h (fun _ => by omega) fun k hk => ?_
              exact .inr ⟨r, hi, not_not.1 he, by omega, by omega⟩

end Hands

namespace Walks

variable {nsc : Nat}

variable {f : SearchStep} {merge : Bool}

theorem ok : Walks I J nsc .ok := fun _ h => h

theorem andThen {g : SearchStep} (hf : Walks I J nsc f) (hg : Walks I J nsc g) :
    Walks I J nsc (f >=> g) := by
  intro s h
  have := hf s h
  show match f s >>= g with | .ok s' => _ | .error a => _
  cases hfs : f s with
  | error a => rwa [hfs] at this
  | ok s' =>
      rw [hfs] at this
      exact hg s' this

theorem ite (c : Prop) [Decidable c] (hf : c → Walks I J nsc f) : Walks I J nsc (stepIf c f) := by
  unfold stepIf
  split
  · rename_i hc
    exact hf hc
  · exact ok

theorem after (again : ∀ {s}, J s → s.count ≠ 0 → I s)
    {search : Search → InventoryResult × Search} (h : ∀ s, I s → J (search s).2) :
    Walks I J nsc (afterSearch nsc search) := by
  intro s hs
  have := h s hs
  unfold afterSearch
  simp only
  by_cases hres : (search s).1 ≠ .ok
  · rw [if_pos hres]
    exact fun hok => absurd hok hres
  · rw [if_neg hres]
    by_cases hz : (search s).2.count = 0
    · rw [if_pos hz]
      by_cases hn : nsc = 0
      · rw [if_pos hn]
        exact fun _ => ⟨hn, _, this, hz, rfl⟩
      · rw [if_neg hn]
        exact fun hok => absurd hok (by simp)
    · rw [if_neg hz]
      exact again this hz

theorem bags (hI : Hands mgr o p pProto pItem R I J) {skipBag skipSlot : Nat}
    {nonSpecialized : Bool} {bags : List Nat}
    (hR : merge = false → ∀ bag ∈ bags, ∀ b, p.getOwnItem bag = some b →
      itemCanGoIntoBag pProto ((o.item b).template mgr) = true → ∀ j,
      j < (o.item b).getBagSize mgr → R ⟨bag, j⟩)
    :
    Walks I J nsc
      (searchBags mgr o p pProto merge nonSpecialized pItem skipBag skipSlot nsc bags) := by
  induction bags with
  | nil => exact ok
  | cons i is ih =>
      have ih := ih fun hm j hj => hR hm j (by simp [hj])
      intro s h
      rw [searchBags]
      by_cases herr : (canStoreItemInBag mgr o p i pProto merge nonSpecialized pItem skipBag
          skipSlot s).1 ≠ .ok
      · rw [if_pos herr]
        exact ih s h
      · rw [if_neg herr]
        refine andThen (after hI.again fun s hs => ?_) ih s h
        exact inBag_hands hI (fun hm => hR hm i (by simp)) hs

/-- The two tries at a bag named by the caller. -/
theorem namedBag (hI : Hands mgr o p pProto pItem R I J) {bag slot : Nat}
    (hR : ∀ b, p.getOwnItem bag = some b → itemCanGoIntoBag pProto ((o.item b).template mgr) =
      true → ∀ j, j < (o.item b).getBagSize mgr → R ⟨bag, j⟩) :
    Walks I J nsc (afterSearch nsc (searchNamedBag mgr o p bag pProto merge pItem slot)) := by
  refine after hI.again fun s hs => ?_
  have hin : ∀ ns, J
      (canStoreItemInBag mgr o p bag pProto merge ns pItem nullBag slot s).2 := fun ns =>
    inBag_hands hI (fun _ => hR) hs
  unfold searchNamedBag
  simp only
  split
  · exact hin true
  · exact hin false

end Walks

/-! ## The searches of `_CanStoreItem` -/

section Searches

variable (hI : Hands mgr o p pProto pItem (admits mgr o p pProto ·) I J)
variable (nsc : Nat)

variable {j : Nat}

variable {bag : Nat} {pos : Pos} {swap : Bool}

theorem admits_keyring (hkeys : pProto.bagFamily &&& bagFamilyMaskKeys ≠ 0)
    (h₁ : keyringSlotStart ≤ j) (h₂ : j < keyringSlotEnd) :
    admits mgr o p pProto ⟨inventorySlotBag0, j⟩ = true := by
  simp [admits, hkeys, h₁, h₂]

theorem admits_backpack (h₁ : inventorySlotItemStart ≤ j) (h₂ : j < inventorySlotItemEnd) :
    admits mgr o p pProto ⟨inventorySlotBag0, j⟩ = true := by
  simp [admits, h₁, h₂]

theorem admits_bag {b : Nat} (h₁ : inventorySlotBagStart ≤ bag) (h₂ : bag < inventorySlotBagEnd)
    (hb : p.getOwnItem bag = some b)
    (hgo : itemCanGoIntoBag pProto ((o.item b).template mgr) = true)
    (hj : j < (o.item b).getBagSize mgr) : admits mgr o p pProto ⟨bag, j⟩ = true := by
  have hne : bag ≠ inventorySlotBag0 := by
    simp only [inventorySlotBagStart, inventorySlotBagEnd, inventorySlotBag0] at h₁ h₂ ⊢
    omega
  simp [admits, hne, h₁, h₂, hb, hgo, hj]

include hI

theorem walks_storeInBag {slot : Nat}
    (hbag : bag ≠ inventorySlotBag0 → inventorySlotBagStart ≤ bag ∧ bag < inventorySlotBagEnd) :
    Walks I J nsc (storeInBag mgr o p bag slot pProto pItem nsc) := by
  unfold storeInBag
  simp only
  split
  · refine Walks.andThen (.ite _ fun _ => .andThen (.after hI.again fun s hs => ?_)
      (.after hI.again fun s hs => ?_)) (.andThen (.ite _ fun hkeys => .after hI.again
      fun s hs => ?_) (.after hI.again fun s hs => ?_))
    · exact inSlots_hands hI (fun h => absurd h (by simp)) hs
    · exact inSlots_hands hI (fun h => absurd h (by simp)) hs
    · exact inSlots_hands hI (fun _ j h₁ h₂ => admits_keyring hkeys h₁ h₂) hs
    · exact inSlots_hands hI (fun _ j h₁ h₂ => admits_backpack h₁ h₂) hs
  · rename_i hne
    have hadmits : ∀ b, p.getOwnItem bag = some b →
        itemCanGoIntoBag pProto ((o.item b).template mgr) = true →
        ∀ j, j < (o.item b).getBagSize mgr → admits mgr o p pProto ⟨bag, j⟩ = true :=
      fun _ hb hgo _ hj => admits_bag (hbag hne).1 (hbag hne).2 hb hgo hj
    exact Walks.andThen (.ite _ fun _ => .namedBag hI hadmits) (.namedBag hI hadmits)

theorem walks_bags (bag slot : Nat) (merge nonSpecialized : Bool) :
    Walks I J nsc (searchBags mgr o p pProto merge nonSpecialized pItem bag slot nsc
      (slotsFrom inventorySlotBagStart inventorySlotBagEnd)) := by
  refine Walks.bags hI (fun _ i hi b hb hgo j hj => ?_)
  rw [mem_slotsFrom] at hi
  exact admits_bag hi.1 hi.2 hb hgo hj

theorem walks_storeByMerging (bag slot : Nat) :
    Walks I J nsc (storeByMerging mgr o p bag slot pProto pItem nsc) := by
  refine Walks.andThen (.after hI.again fun s hs => ?_)
    (.andThen (.after hI.again fun s hs => ?_) (.andThen (.ite _ fun _ => ?_) ?_))
  · exact inSlots_hands hI (fun h => absurd h (by simp)) hs
  · exact inSlots_hands hI (fun h => absurd h (by simp)) hs
  · exact walks_bags hI nsc bag slot true false
  · exact walks_bags hI nsc bag slot true true

theorem walks_storeInFreeSlots (bag slot : Nat) :
    Walks I J nsc (storeInFreeSlots mgr o p bag slot pProto pItem nsc) := by
  refine Walks.andThen (.ite _ fun _ => .andThen (.ite _ fun hkeys => .after hI.again
    fun s hs => ?_) ?_) (.andThen (.after hI.again fun s hs => ?_) ?_)
  · exact inSlots_hands hI (fun _ j h₁ h₂ => admits_keyring hkeys h₁ h₂) hs
  · exact walks_bags hI nsc bag slot false false
  · exact inSlots_hands hI (fun _ j h₁ h₂ => admits_backpack h₁ h₂) hs
  · exact walks_bags hI nsc bag slot false true

/-- All of the searches, with whatever slot or bag of the inventory the caller
names. -/
theorem walks_storeSearches
    (hbag : pos.bag ≠ nullBag → pos.bag ≠ inventorySlotBag0 → inventorySlotBagStart ≤ pos.bag ∧
      pos.bag < inventorySlotBagEnd)
    (hslot : pos.bag ≠ nullBag → pos.slot ≠ nullSlot → p.isValidPos mgr o pos = true → ∀ s, I s →
      J (canStoreItemInSpecificSlot mgr o p pos pProto swap pItem s).2) :
    Walks I J nsc (storeSearches mgr o p pos pProto pItem swap nsc) := by
  refine Walks.andThen (.ite _ fun hnamed => ?_) (.andThen (.ite _ fun hne => ?_)
    (.andThen (.ite _ fun _ => ?_) ?_))
  · intro s hs
    unfold storeInSlot
    cases hvalid : p.isValidPos mgr o pos with
    | false => exact fun hok => absurd hok (by simp)
    | true => exact Walks.after hI.again (hslot hnamed.1 hnamed.2 hvalid) s hs
  · exact walks_storeInBag hI nsc (hbag hne)
  · exact walks_storeByMerging hI nsc _ _
  · exact walks_storeInFreeSlots hI nsc _ _

omit hI in
theorem keeps_storeSearches
    (hT : ∀ pos k, Takes mgr o p pProto pItem (admits mgr o p pProto ·) pos k → T pos k)
    (hbag : pos.bag ≠ nullBag → pos.bag ≠ inventorySlotBag0 → inventorySlotBagStart ≤ pos.bag ∧
      pos.bag < inventorySlotBagEnd)
    (hslot : pos.bag ≠ nullBag → pos.slot ≠ nullSlot → p.isValidPos mgr o pos = true → ∀ s,
      Planned T n s → Planned T n (canStoreItemInSpecificSlot mgr o p pos pProto swap pItem s).2) :
    Keeps T n (storeSearches mgr o p pos pProto pItem swap nsc) :=
  (walks_storeSearches (Hands.planned hT) nsc hbag hslot).keeps

end Searches

end Plan

end Sunstrider.Inventory
