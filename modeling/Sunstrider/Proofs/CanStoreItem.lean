import Sunstrider.Proofs.StorePlan

/-!
# When `_CanStoreItem` is right

With no slot named, `_CanStoreItem` should place as much of the count as there
is room and limit for and say how much is left. `StoresRight` states that. It
holds unless one of three things happens.

A share of 256 or more is cut to eight bits in the plan, so the plan lists less
than was taken off the count; `Unclipped` excludes it, in terms of the room the
slots before it have. A player who already holds more than the limit makes
`count -= no_similar_count` wrap around, and then more is placed than was asked
for; nothing is wrong only if there is no room for that much. And a request for
no items at all is refused when the item is marked as loot.
-/

namespace Sunstrider.Inventory

open Lib

section Spec

variable (mgr : ObjectMgr) (o : Objects) (p : Player)
variable (pProto : ItemTemplate) (pItem : Option ItemRef)

/-- The limit on the item leaves room for `count` more. -/
def LimitSuffices (count : Nat) : Prop :=
  pProto.maxCount = 0 ∨ p.itemTotal mgr o pProto.itemId true pItem + count ≤ pProto.maxCount

/-- An answer of `_CanStoreItem` for `count` items is what it should be. -/
structure StoresRight (count : Nat) (a : StoreAnswer) : Prop where
  distinct : a.res = .ok → (a.dest.map (·.pos)).Nodup
  fits : a.res = .ok →
    ∀ e ∈ a.dest, Takes mgr o p pProto pItem (admits mgr o p pProto ·) e.pos e.count
  placed : a.res = .ok → (a.dest.map (·.count)).sum = count
  refused : a.res ≠ .ok →
    ∃ left, a.noSpaceCount = some left ∧ (a.dest.map (·.count)).sum + left = count
  complete : count ≤ capacity mgr o p pProto pItem → LimitSuffices mgr o p pProto pItem count →
    a.res = .ok

/-- Marked as loot that is still lying in a container. -/
def isLoot : Bool := pItem.any fun r => (o.item r).lootGenerated

/-- The limit is checked and found to be exceeded. -/
def OverLimit (count : Nat) : Prop :=
  isLoot o pItem = false ∧ pProto.maxCount ≠ 0 ∧
    pProto.maxCount < add32 (p.getItemCount mgr o pProto.itemId true pItem) count

instance (count : Nat) : Decidable (OverLimit mgr o p pProto pItem count) :=
  inferInstanceAs (Decidable (_ ∧ _ ∧ _))

/-- The count the searches are given: what the limit leaves of it, in 32 bits. -/
def admitted (count : Nat) : Nat :=
  if OverLimit mgr o p pProto pItem count then
    sub32 pProto.maxCount (p.getItemCount mgr o pProto.itemId true pItem)
  else count

/-- No slot is asked for 256 items or more. -/
def Unclipped (n : Nat) : Prop :=
  ∀ before s after, searchOrder mgr o p pProto pItem = before ++ s :: after →
    min s.2 (n - room before) < 256

/-- The conditions under which `_CanStoreItem` is right about `count` items. -/
def StoresFairly (count : Nat) : Prop :=
  Unclipped mgr o p pProto pItem (admitted mgr o p pProto pItem count) ∧
  (OverLimit mgr o p pProto pItem count →
    min (capacity mgr o p pProto pItem) (admitted mgr o p pProto pItem count) ≤ count) ∧
  ¬ (count = 0 ∧ isLoot o pItem = true ∧ LimitSuffices mgr o p pProto pItem count)

end Spec

/-! ## What the searches end in -/

/-- The plan lists the shares exactly when none is cut. -/
theorem sum_planOf (shares : List (Pos × Nat)) :
    ((planOf shares).map (·.count)).sum ≤ room shares ∧
      (((planOf shares).map (·.count)).sum = room shares ↔ ∀ e ∈ shares, e.2 < 256) := by
  induction shares with
  | nil => simp [planOf]
  | cons e shares ih =>
      obtain ⟨hle, hiff⟩ := ih
      have hcons : ((planOf (e :: shares)).map (·.count)).sum =
          e.2 % 256 + ((planOf shares).map (·.count)).sum := rfl
      have hmod := Nat.mod_le e.2 256
      rw [hcons, room_cons]
      refine ⟨by omega, ?_⟩
      rw [List.forall_mem_cons, ← hiff]
      constructor
      · intro h
        exact ⟨by omega, by omega⟩
      · intro h
        omega

section Outcome

variable (mgr : ObjectMgr) (o : Objects) (p : Player)
variable (pProto : ItemTemplate) (pItem : Option ItemRef)

variable {f : SearchStep} {count : Nat}

/-- What the searches make of `n` items: how much they place, where, and what
they answer. -/
structure Outcome (n nsc : Nat) (a : StoreAnswer) : Prop where
  shares : ∃ shares : List (Pos × Nat), a.dest = planOf shares ∧ (shares.map Prod.fst).Nodup ∧
    room shares = min (capacity mgr o p pProto pItem) n ∧
    (∀ e ∈ shares, Takes mgr o p pProto pItem (admits mgr o p pProto ·) e.1 e.2) ∧
    ((∀ e ∈ shares, e.2 < 256) ↔ Unclipped mgr o p pProto pItem n)
  res_ok : a.res = .ok ↔ n ≤ capacity mgr o p pProto pItem ∧ nsc = 0
  left : a.res ≠ .ok →
    a.noSpaceCount = some (add32 (n - min (capacity mgr o p pProto pItem) n) nsc)

/-- A slot the searches go through takes what it offers. -/
theorem takes_of_mem_searchOrder {c : Pos × Nat}
    (hc : c ∈ searchOrder mgr o p pProto pItem) {k : Nat} (hk : k ≤ c.2) :
    Takes mgr o p pProto pItem (admits mgr o p pProto ·) c.1 k := by
  have inSlots : ∀ merge first last,
      (merge = false → ∀ j, first ≤ j → j < last →
        admits mgr o p pProto ⟨inventorySlotBag0, j⟩ = true) →
      c ∈ candidates mgr o p pProto pItem merge inventorySlotBag0 (slotsFrom first last) →
      Takes mgr o p pProto pItem (admits mgr o p pProto ·) c.1 k := by
    intro merge first last hadm hmem
    obtain ⟨j, hj, hpos, hm, hsp⟩ := mem_candidates mgr o p pProto pItem hmem
    refine takes_of_slotSpace hsp hk (fun hnone => ?_)
    rw [mem_slotsFrom] at hj
    rw [hpos]
    rw [hnone] at hm
    exact hadm hm.symm j hj.1 hj.2
  have inBags : ∀ merge ns,
      c ∈ bagCandidates mgr o p pProto pItem merge ns
        (slotsFrom inventorySlotBagStart inventorySlotBagEnd) →
      Takes mgr o p pProto pItem (admits mgr o p pProto ·) c.1 k := by
    intro merge ns hmem
    obtain ⟨i, hi, hmem⟩ := List.mem_flatMap.1 hmem
    obtain ⟨j, hj, hpos, -, hsp⟩ := mem_candidates mgr o p pProto pItem hmem
    obtain ⟨b, hb, -, hgo, hlt⟩ := mem_bagSlots mgr o p pProto hj
    refine takes_of_slotSpace hsp hk (fun _ => ?_)
    rw [mem_slotsFrom] at hi
    have hne : i ≠ inventorySlotBag0 := by
      simp only [inventorySlotBagStart, inventorySlotBagEnd, inventorySlotBag0] at hi ⊢
      omega
    simp [hpos, admits, hne, hi.1, hi.2, hb, hgo, hlt]
  have hmem : ∀ {c' : Prop} [Decidable c'] {xs : List (Pos × Nat)},
      c ∈ (if c' then xs else []) → c' ∧ c ∈ xs := by
    intro c' _ xs h
    split at h
    · rename_i hc'
      exact ⟨hc', h⟩
    · simp at h
  simp only [searchOrder, List.mem_append] at hc
  rcases hc with hc | hc | hc | hc
  · rcases List.mem_append.1 (hmem hc).2 with hc | hc
    · exact inSlots true _ _ (by simp) hc
    · rcases List.mem_append.1 hc with hc | hc
      · exact inSlots true _ _ (by simp) hc
      · rcases List.mem_append.1 hc with hc | hc
        · exact inBags _ _ (hmem hc).2
        · exact inBags _ _ hc
  · rcases List.mem_append.1 (hmem hc).2 with hc | hc
    · refine inSlots false _ _ (fun _ j h₁ h₂ => ?_) (hmem hc).2
      simp [admits, h₁, h₂, (hmem hc).1]
    · exact inBags _ _ hc
  · refine inSlots false _ _ (fun _ j h₁ h₂ => ?_) hc
    simp [admits, h₁, h₂]
  · exact inBags _ _ hc

theorem outcome_of_pos {n : Nat} (hn : 0 < n) (nsc : Nat) (swap : Bool) :
    Outcome mgr o p pProto pItem n nsc
      (answerOf nsc .inventoryFull
        (storeSearches mgr o p ⟨nullBag, nullSlot⟩ pProto pItem swap nsc ⟨[], n⟩)) := by
  have hnodup := nodup_searchOrder mgr o p pProto pItem
  have hroom := room_searchOrder mgr o p pProto pItem
  have hrun := follows_storeSearches mgr o p pProto pItem nsc swap ⟨[], n⟩ hn
    (by simpa [Fresh] using hnodup)
  rw [hrun]
  have hshares : ∃ shares : List (Pos × Nat),
      planOf (fill (searchOrder mgr o p pProto pItem) n) = planOf shares ∧
      (shares.map Prod.fst).Nodup ∧
      room shares = min (capacity mgr o p pProto pItem) n ∧
      (∀ e ∈ shares, Takes mgr o p pProto pItem (admits mgr o p pProto ·) e.1 e.2) ∧
      ((∀ e ∈ shares, e.2 < 256) ↔ Unclipped mgr o p pProto pItem n) := by
    refine ⟨_, rfl, nodup_fill hnodup n, by rw [room_fill, hroom], ?_, ?_⟩
    · intro e he
      obtain ⟨c, hc, hpos, hle, -⟩ := mem_fill he
      rw [← hpos]
      exact takes_of_mem_searchOrder mgr o p pProto pItem hc hle
    · exact fill_lt_iff _ _ _ (by omega)
  have hcount : (spread (searchOrder mgr o p pProto pItem) ⟨[], n⟩).count =
      n - capacity mgr o p pProto pItem := by
    rw [← hroom]
    rfl
  have hdest : (spread (searchOrder mgr o p pProto pItem) ⟨[], n⟩).dest =
      planOf (fill (searchOrder mgr o p pProto pItem) n) := rfl
  rw [finish, hcount, hdest]
  by_cases hle : n ≤ capacity mgr o p pProto pItem
  · have hzero : n - capacity mgr o p pProto pItem = 0 := by omega
    have hmin : n - min (capacity mgr o p pProto pItem) n = 0 := by omega
    rw [if_pos hzero]
    by_cases hnsc : nsc = 0
    · rw [if_pos hnsc]
      exact ⟨hshares, by simp [answerOf, hle, hnsc], fun h => absurd rfl h⟩
    · rw [if_neg hnsc]
      exact ⟨hshares, by simp [answerOf, hnsc], fun _ => by rw [hzero, hmin]; rfl⟩
  · have hpos : ¬ n - capacity mgr o p pProto pItem = 0 := by omega
    have hmin : n - min (capacity mgr o p pProto pItem) n =
        n - capacity mgr o p pProto pItem := by omega
    rw [if_neg hpos]
    refine ⟨hshares, by simp [answerOf, hle], fun _ => ?_⟩
    show some (add32 (spread _ _).count nsc) = _
    rw [hcount, hmin]

/-! ## Asking for nothing -/

/-- With nothing to place a step goes on or ends the function well. -/
def Idle (step : SearchStep) : Prop :=
  ∀ s, s.count = 0 →
    match step s with
    | .ok s' => s'.count = 0
    | .error a => a.res = .ok

/-- With nothing to place a step ends the function well. -/
def Ends (step : SearchStep) : Prop :=
  ∀ s, s.count = 0 → ∃ a, step s = .error a ∧ a.res = .ok

theorem searchSlots_count_le (merge : Bool) (bag : Nat) (slots : List Nat) (s : Search) :
    (searchSlots mgr o p pProto merge pItem bag slots s).count ≤ s.count := by
  induction slots generalizing s with
  | nil => exact Nat.le_refl _
  | cons j js ih =>
      rw [searchSlots]
      split
      · exact ih s
      · cases slotSpace o pProto (slotItem mgr o p pItem ⟨bag, j⟩) with
        | none => exact ih s
        | some m =>
            cases ht : s.take ⟨bag, j⟩ m with
            | none => simpa only [ht] using ih s
            | some s' =>
                have hle : s'.count ≤ s.count := by
                  unfold Search.take at ht
                  simp only at ht
                  split at ht
                  · simp at ht
                  · obtain rfl := Option.some_inj.1 ht
                    exact Nat.sub_le ..
                simp only [ht]
                split
                · exact hle
                · exact Nat.le_trans (ih s') hle

theorem ends_after {search : Search → InventoryResult × Search} {s : Search}
    (hok : (search s).1 = .ok) (hle : (search s).2.count ≤ s.count) (hs : s.count = 0) :
    ∃ a, afterSearch 0 search s = .error a ∧ a.res = .ok := by
  have hz : (search s).2.count = 0 := by omega
  exact ⟨⟨.ok, (search s).2.dest, none⟩, by simp [afterSearch, hok, hz], rfl⟩

theorem ends_inSlots (first last : Nat) (merge : Bool) :
    Ends (afterSearch 0 (canStoreItemInInventorySlots mgr o p first last pProto merge pItem
      nullBag nullSlot)) :=
  fun s hs => ends_after rfl (searchSlots_count_le mgr o p pProto pItem merge _ _ s) hs

theorem Ends.idle {step : SearchStep} (h : Ends step) : Idle step := by
  intro s hs
  obtain ⟨a, ha, hres⟩ := h s hs
  rw [ha]
  exact hres

theorem Ends.first (hf : Ends f) (g : SearchStep) : Ends (f >=> g) := by
  intro s hs
  obtain ⟨a, ha, hres⟩ := hf s hs
  refine ⟨a, ?_, hres⟩
  show f s >>= g = _
  rw [ha]
  rfl

theorem Ends.second {g : SearchStep} (hf : Idle f) (hg : Ends g) : Ends (f >=> g) := by
  intro s hs
  have := hf s hs
  show ∃ a, f s >>= g = _ ∧ _
  cases hfs : f s with
  | error a =>
      rw [hfs] at this
      exact ⟨a, rfl, this⟩
  | ok s' =>
      rw [hfs] at this
      exact hg s' this

theorem Idle.andThen {g : SearchStep} (hf : Idle f) (hg : Idle g) : Idle (f >=> g) := by
  intro s hs
  have := hf s hs
  show match f s >>= g with | .ok s' => _ | .error a => _
  cases hfs : f s with
  | error a => rwa [hfs] at this
  | ok s' =>
      rw [hfs] at this
      exact hg s' this

theorem Idle.ite (c : Prop) [Decidable c] (hf : Idle f) : Idle (stepIf c f) := by
  unfold stepIf
  split
  · exact hf
  · exact fun _ hs => hs

theorem idle_bags (merge nonSpecialized : Bool) (bags : List Nat) :
    Idle (searchBags mgr o p pProto merge nonSpecialized pItem nullBag nullSlot 0 bags) := by
  induction bags with
  | nil => exact fun _ hs => hs
  | cons i is ih =>
      intro s hs
      rw [searchBags]
      by_cases herr : (canStoreItemInBag mgr o p i pProto merge nonSpecialized pItem nullBag
          nullSlot s).1 ≠ .ok
      · rw [if_pos herr]
        exact ih s hs
      · rw [if_neg herr]
        have hle : (canStoreItemInBag mgr o p i pProto merge nonSpecialized pItem nullBag
            nullSlot s).2.count ≤ s.count := by
          unfold canStoreItemInBag
          split
          · exact Nat.le_refl _
          · split
            · exact Nat.le_refl _
            · simp only
              split
              · exact Nat.le_refl _
              · split
                · exact Nat.le_refl _
                · exact searchSlots_count_le ..
        obtain ⟨a, ha, hres⟩ := ends_after (not_not.1 herr) hle hs
        rw [ha]
        exact hres

/-- The search through the backpack is always made, and it ends the function. -/
theorem ends_storeSearches (swap : Bool) :
    Ends (storeSearches mgr o p ⟨nullBag, nullSlot⟩ pProto pItem swap 0) := by
  have hslots := fun first last merge =>
    (ends_inSlots mgr o p pProto pItem first last merge).idle
  have hbags := fun merge ns bags => idle_bags mgr o p pProto pItem merge ns bags
  have hmerge : Idle (storeByMerging mgr o p nullBag nullSlot pProto pItem 0) :=
    (hslots _ _ _).andThen ((hslots _ _ _).andThen ((Idle.ite _ (hbags _ _ _)).andThen
      (hbags _ _ _)))
  have hspecial := (Idle.ite (pProto.bagFamily &&& bagFamilyMaskKeys ≠ 0)
    (hslots keyringSlotStart (keyringSlotStart + getMaxKeyringSize) false)).andThen
      (hbags false false (slotsFrom inventorySlotBagStart inventorySlotBagEnd))
  have hfree : Ends (storeInFreeSlots mgr o p nullBag nullSlot pProto pItem 0) :=
    Ends.second (.ite _ hspecial) ((ends_inSlots mgr o p pProto pItem _ _ _).first _)
  exact Ends.second (fun _ hs => hs) (Ends.second (fun _ hs => hs)
    (Ends.second (.ite _ hmerge) hfree))

theorem outcome_zero (swap : Bool) :
    Outcome mgr o p pProto pItem 0 0
      (answerOf 0 .inventoryFull
        (storeSearches mgr o p ⟨nullBag, nullSlot⟩ pProto pItem swap 0 ⟨[], 0⟩)) := by
  obtain ⟨a, ha, hres⟩ := ends_storeSearches mgr o p pProto pItem swap ⟨[], 0⟩ rfl
  have hkeeps : Keeps (Takes mgr o p pProto pItem fun pos => admits mgr o p pProto pos = true) 0
      (storeSearches mgr o p ⟨nullBag, nullSlot⟩ pProto pItem swap 0) :=
    keeps_storeSearches 0 (fun _ _ h => h) (fun h => absurd rfl h) (fun h => absurd rfl h)
  replace hkeeps := hkeeps ⟨[], 0⟩ (.start _ 0)
  rw [ha] at hkeeps ⊢
  obtain ⟨s', ⟨shares, hdest, hnodup, hsum, hall⟩, -, hs'⟩ := hkeeps hres
  have hroom : room shares = 0 := by omega
  have hsmall : ∀ e ∈ shares, e.2 = 0 := by
    intro e he
    have := le_room he
    omega
  refine ⟨⟨shares, by rw [← hdest, ← hs']; rfl, hnodup, by omega, hall, ?_⟩, ?_, ?_⟩
  · constructor
    · intro _ before s after _
      omega
    · intro _ e he
      rw [hsmall e he]
      omega
  · simp [answerOf, hres]
  · exact fun h => absurd hres h

theorem outcome_count (n : Nat) (swap : Bool) :
    Outcome mgr o p pProto pItem n 0
      (answerOf 0 .inventoryFull
        (storeSearches mgr o p ⟨nullBag, nullSlot⟩ pProto pItem swap 0 ⟨[], n⟩)) := by
  rcases Nat.eq_zero_or_pos n with rfl | hn
  · exact outcome_zero mgr o p pProto pItem swap
  · exact outcome_of_pos mgr o p pProto pItem hn 0 swap

/-! ## The answer -/

/-- What `StoresRight` comes to for an answer of the searches: every share is
listed whole, and no more is placed than was asked for. -/
theorem storesRight_iff_of_outcome {n nsc : Nat} {a : StoreAnswer}
    (h : Outcome mgr o p pProto pItem n nsc a)
    (hleft : ∀ placed, placed ≤ n → (placed + add32 (n - placed) nsc = count ↔ placed ≤ count))
    (hle : ∀ placed, placed ≤ n → ∀ listed, listed < placed →
      listed + add32 (n - placed) nsc ≠ count)
    (hnsc : nsc = 0 → n = count)
    (hcomplete : nsc = 0 ∨ ¬ LimitSuffices mgr o p pProto pItem count) :
    StoresRight mgr o p pProto pItem count a ↔
      Unclipped mgr o p pProto pItem n ∧ min (capacity mgr o p pProto pItem) n ≤ count := by
  obtain ⟨⟨shares, hdest, hnodup, hroom, htakes, hclip⟩, hok, hrefused⟩ := h
  obtain ⟨hsumle, hsum⟩ := sum_planOf shares
  rw [← hclip, ← hsum]
  have hmin : min (capacity mgr o p pProto pItem) n ≤ n := Nat.min_le_right ..
  by_cases hres : a.res = .ok
  · obtain ⟨hcap, hz⟩ := hok.1 hres
    have hn := hnsc hz
    have hmin' : min (capacity mgr o p pProto pItem) n = n := by omega
    constructor
    · intro hr
      have := hr.placed hres
      rw [hdest] at this
      exact ⟨by omega, by omega⟩
    · intro ⟨hwhole, _⟩
      refine ⟨fun _ => ?_, fun _ => ?_, fun _ => ?_, fun hne => absurd hres hne, fun _ _ => hres⟩
      · rw [hdest, planOf_pos]
        exact hnodup
      · intro e he
        rw [hdest] at he
        obtain ⟨s, hs, rfl⟩ := List.mem_map.1 he
        have : s.2 % 256 = s.2 := Nat.mod_eq_of_lt (hsum.1 hwhole s hs)
        show Takes _ _ _ _ _ _ s.1 (s.2 % 256)
        rw [this]
        exact htakes s hs
      · rw [hdest]
        omega
  · have hns := hrefused hres
    constructor
    · intro hr
      obtain ⟨left, hl, htotal⟩ := hr.refused hres
      rw [hns, Option.some_inj] at hl
      rw [hdest] at htotal
      have hwhole : ((planOf shares).map (·.count)).sum = room shares := by
        by_contra hne
        exact hle _ hmin ((planOf shares).map (·.count)).sum (by omega) (by rw [hl]; exact htotal)
      exact ⟨hwhole, (hleft _ hmin).1 (by omega)⟩
    · intro ⟨hwhole, hplaced⟩
      refine ⟨fun h => absurd h hres, fun h => absurd h hres, fun h => absurd h hres,
        fun _ => ⟨_, hns, ?_⟩, fun hcap hlim => ?_⟩
      · rw [hdest, hwhole, hroom]
        exact (hleft _ hmin).2 hplaced
      · rcases hcomplete with hz | hno
        · exact hok.2 ⟨by rw [hnsc hz]; exact hcap, hz⟩
        · exact absurd hlim hno

/-- With no limit in the way the searches get the count itself. -/
theorem storesRight_iff_of_outcome_count {a : StoreAnswer} (hcount : count < pow32)
    (h : Outcome mgr o p pProto pItem count 0 a) :
    StoresRight mgr o p pProto pItem count a ↔ Unclipped mgr o p pProto pItem count := by
  have hadd : ∀ placed, add32 (count - placed) 0 = count - placed := by
    intro placed
    rw [add32, Nat.add_zero, Nat.mod_eq_of_lt (by omega)]
  rw [storesRight_iff_of_outcome mgr o p pProto pItem h (fun placed hp => by rw [hadd]; omega)
    (fun placed hp listed hl => by rw [hadd]; omega) (fun _ => rfl) (.inl rfl)]
  exact ⟨fun h => h.1, fun h => ⟨h, Nat.min_le_right ..⟩⟩

/-- Where the count minus what is over the limit wraps to, and what the answer
adds to it again. -/
theorem sub32_overLimit {held maxCount : Nat} (hheld : held < pow32) (hcount : count < pow32)
    (hmax : maxCount < 2 ^ 16) (hover : maxCount < add32 held count) :
    sub32 count (sub32 (add32 count held) maxCount) = sub32 maxCount held ∧
    sub32 (add32 count held) maxCount ≠ 0 ∧
    (count = sub32 (add32 count held) maxCount ↔ sub32 maxCount held = 0) ∧
    (∀ placed, placed ≤ sub32 maxCount held →
      add32 (sub32 maxCount held - placed) (sub32 (add32 count held) maxCount) =
        if placed ≤ count then count - placed else count + pow32 - placed) := by
  simp only [add32, sub32, pow32] at *
  refine ⟨by omega, by omega, by omega, fun placed hp => ?_⟩
  split <;> omega

theorem itemTotal_overLimit (hcount : count < pow32)
    (hover : OverLimit mgr o p pProto pItem count) :
    ¬ LimitSuffices mgr o p pProto pItem count := by
  obtain ⟨-, hmax, hlt⟩ := hover
  intro h
  rcases h with h | h
  · exact hmax h
  · simp only [Player.getItemCount, add32, pow32] at hlt hcount
    omega

/-- `_CanStoreItem` with no slot named is right about an item that may be the
player's exactly when no slot is asked for 256 or more, a player over the limit
has no room for more than was asked for, and no loot is asked to be stored none
of. -/
theorem canStoreItem_storesRight_iff (entry count : Nat) (pItem : Option ItemRef) (swap : Bool)
    (proto : Option ItemTemplate) (hknown : mgr.known entry = true) (hcount : count < pow32)
    (hproto : ∀ t, proto = some t → t = mgr.proto entry)
    (hitem : ∀ r, pItem = some r → (o.item r).entry = entry ∧
      (o.item r).isBindedNotWith p.guid = false) :
    StoresRight mgr o p (mgr.proto entry) pItem count
        (canStoreItem' mgr o p ⟨nullBag, nullSlot⟩ [] entry count pItem swap proto) ↔
      StoresFairly mgr o p (mgr.proto entry) pItem count := by
  have htemplate : ((proto <|> pItem.map fun r => (o.item r).template mgr) <|>
      mgr.getItemTemplate entry) = some (mgr.proto entry) := by
    cases proto with
    | some t => rw [hproto t rfl]; rfl
    | none =>
        cases pItem with
        | some r =>
            show some (mgr.proto (o.item r).entry) = _
            rw [(hitem r rfl).1]
        | none => simp [ObjectMgr.getItemTemplate, hknown]
  have hbound : ¬ (pItem.map fun r => (o.item r).isBindedNotWith p.guid) = some true := by
    cases pItem with
    | none => simp
    | some r => simp [(hitem r rfl).2]
  have hloot : ((pItem.map fun r => (o.item r).lootGenerated) = some true) ↔
      isLoot o pItem = true := by
    cases pItem <;> simp [isLoot]
  have htmpl : mgr.getItemTemplate entry = some (mgr.proto entry) := by
    simp [ObjectMgr.getItemTemplate, hknown]
  have hrun : canStoreItem' mgr o p ⟨nullBag, nullSlot⟩ [] entry count pItem swap proto =
      let answer := canTakeMoreSimilarItems' mgr o p entry count pItem
      let noSimilarCount := answer.2.getD 0
      if answer.1 ≠ .ok ∧ count = noSimilarCount then ⟨answer.1, [], some noSimilarCount⟩
      else
        answerOf noSimilarCount .inventoryFull
          (storeSearches mgr o p ⟨nullBag, nullSlot⟩ (mgr.proto entry) pItem swap noSimilarCount
            ⟨[], if answer.1 ≠ .ok then sub32 count noSimilarCount else count⟩) := by
    unfold canStoreItem'
    simp only [htemplate, if_neg hbound]
  have hsub : sub32 count 0 = count := by
    simp only [sub32, pow32] at hcount ⊢
    omega
  have hclip : ∀ n, n = 0 → Unclipped mgr o p (mgr.proto entry) pItem n := by
    intro n hn _ _ _ _
    omega
  -- what is left to show where the limit lets the whole count through
  have hthrough : ¬ OverLimit mgr o p (mgr.proto entry) pItem count →
      ¬ (count = 0 ∧ isLoot o pItem = true) →
      (StoresRight mgr o p (mgr.proto entry) pItem count
        (answerOf 0 .inventoryFull (storeSearches mgr o p ⟨nullBag, nullSlot⟩ (mgr.proto entry)
          pItem swap 0 ⟨[], count⟩)) ↔ StoresFairly mgr o p (mgr.proto entry) pItem count) := by
    intro hnot hzero
    rw [storesRight_iff_of_outcome_count mgr o p _ pItem hcount
      (outcome_count mgr o p _ pItem count swap)]
    unfold StoresFairly admitted
    rw [if_neg hnot]
    exact ⟨fun h => ⟨h, fun ho => absurd ho hnot, fun hz => hzero ⟨hz.1, hz.2.1⟩⟩, fun h => h.1⟩
  rw [hrun]
  unfold canTakeMoreSimilarItems'
  simp only [htmpl, mgr.itemId_proto]
  by_cases hl : isLoot o pItem = true
  · rw [if_pos (hloot.2 hl)]
    have hnot : ¬ OverLimit mgr o p (mgr.proto entry) pItem count := by
      intro h
      rw [h.1] at hl
      exact absurd hl (by simp)
    by_cases hz : count = 0
    · subst hz
      simp only [Option.getD_none, ne_eq, reduceCtorEq, not_false_eq_true, and_self, if_true]
      unfold StoresFairly admitted
      rw [if_neg hnot]
      constructor
      · intro hr
        refine ⟨hclip 0 rfl, fun ho => absurd ho hnot, fun h => ?_⟩
        exact absurd (hr.complete (Nat.zero_le _) h.2.2) (by simp)
      · intro hf
        exact ⟨fun h => absurd h (by simp), fun h => absurd h (by simp),
          fun h => absurd h (by simp), fun _ => ⟨0, rfl, rfl⟩,
          fun _ hlim => absurd ⟨rfl, hl, hlim⟩ hf.2.2⟩
    · simp only [Option.getD_none, hz, and_false, if_false, ne_eq, reduceCtorEq,
        not_false_eq_true, if_true, hsub]
      exact hthrough hnot fun h => hz h.1
  · rw [if_neg fun h => hl (hloot.1 h)]
    by_cases hmax : (mgr.proto entry).maxCount = 0
    · rw [if_pos hmax]
      simp only [Option.getD_none, ne_eq, not_true_eq_false, false_and, if_false]
      exact hthrough (fun h => h.2.1 hmax) fun h => hl h.2
    · rw [if_neg hmax]
      by_cases hover : (mgr.proto entry).maxCount <
          add32 (p.getItemCount mgr o entry true pItem) count
      · have hovr : OverLimit mgr o p (mgr.proto entry) pItem count := by
          refine ⟨by simpa using hl, hmax, ?_⟩
          rw [mgr.itemId_proto]
          exact hover
        have hheld : p.getItemCount mgr o entry true pItem < pow32 :=
          Nat.mod_lt _ (by simp [pow32])
        obtain ⟨hn, hnsc, hearly, hback⟩ :=
          sub32_overLimit hheld hcount (mgr.proto entry).maxCount_lt hover
        have hno := itemTotal_overLimit mgr o p _ pItem hcount hovr
        have hadm : admitted mgr o p (mgr.proto entry) pItem count =
            sub32 (mgr.proto entry).maxCount (p.getItemCount mgr o entry true pItem) := by
          unfold admitted
          rw [if_pos hovr, mgr.itemId_proto]
        have hfair : StoresFairly mgr o p (mgr.proto entry) pItem count ↔
            Unclipped mgr o p (mgr.proto entry) pItem
              (admitted mgr o p (mgr.proto entry) pItem count) ∧
            min (capacity mgr o p (mgr.proto entry) pItem)
              (admitted mgr o p (mgr.proto entry) pItem count) ≤ count := by
          constructor
          · intro h
            exact ⟨h.1, h.2.1 hovr⟩
          · intro h
            exact ⟨h.1, fun _ => h.2, fun h' => hno h'.2.2⟩
        rw [if_pos hover, hfair, hadm]
        simp only [Option.getD_some, ne_eq, reduceCtorEq, not_false_eq_true, true_and, if_true,
          hn]
        generalize hns : sub32 (add32 count (p.getItemCount mgr o entry true pItem))
          (mgr.proto entry).maxCount = nsc at *
        generalize hnn : sub32 (mgr.proto entry).maxCount
          (p.getItemCount mgr o entry true pItem) = n at *
        have hnlt : n < pow32 := by
          rw [← hnn]
          exact Nat.mod_lt _ (by simp [pow32])
        by_cases hc : count = nsc
        · have hz := hearly.1 hc
          rw [if_pos hc]
          constructor
          · intro _
            exact ⟨hclip n hz, by omega⟩
          · intro _
            exact ⟨fun h => absurd h (by simp), fun h => absurd h (by simp),
              fun h => absurd h (by simp), fun _ => ⟨nsc, rfl, by rw [hc]; exact Nat.zero_add _⟩,
              fun _ h => absurd h hno⟩
        · have hpos : 0 < n := by
            have := fun h => hc (hearly.2 h)
            omega
          rw [if_neg hc]
          refine storesRight_iff_of_outcome mgr o p _ pItem
            (outcome_of_pos mgr o p _ pItem hpos nsc swap) (fun placed hp => ?_)
            (fun placed hp listed hlt => ?_) (fun h => absurd h hnsc) (.inr hno)
          · rw [hback placed hp]
            split <;> omega
          · rw [hback placed hp]
            split <;> omega
      · rw [if_neg hover]
        simp only [Option.getD_none, ne_eq, not_true_eq_false, false_and, if_false]
        refine hthrough (fun h => hover ?_) fun h => hl h.2
        have := h.2.2
        rwa [mgr.itemId_proto] at this

end Outcome

/-! ## A backpack with nothing in it -/

/-- One kind of goods that stacks to 1000 and is carried without limit. -/
theorem none_lt_pow16 : 0 < 2 ^ 16 := by decide

def goods (entry : Nat) : ItemTemplate where
  itemId := entry
  itemClass := .other
  subClass := 0
  inventoryType := .nonEquip
  bagFamily := 0
  maxCount := 0
  stackable := 1000
  containerSlots := 0
  bonding := .noBind
  uniqueEquipped := false
  gemProperties := 0
  socketColor := 0
  maxCount_lt := none_lt_pow16
  stackable_lt := by decide
  containerSlots_le := Nat.zero_le maxBagSize

def goodsMgr : ObjectMgr := ⟨goods, fun _ => true, fun _ => rfl⟩

def noObjects : Objects where
  item := fun _ => ⟨0, 0, fun _ => none, 0, none, 0, false, false, false, []⟩
  next := 0

def newcomer : Player := ⟨1, fun _ => none⟩

theorem canStoreItem_storesRight_iff_newcomer :
    StoresRight goodsMgr noObjects newcomer (goods 7) none 5
      (canStoreItem' goodsMgr noObjects newcomer ⟨nullBag, nullSlot⟩ [] 7 5 none false none) := by
  refine (canStoreItem_storesRight_iff goodsMgr noObjects newcomer 7 5 none false none rfl
    (by decide) (by simp) (by simp)).2 ⟨?_, ?_, ?_⟩
  · have hnot : ¬ OverLimit goodsMgr noObjects newcomer (goods 7) none 5 := fun h => h.2.1 rfl
    intro before s after _
    show min s.2 (admitted goodsMgr noObjects newcomer (goods 7) none 5 - _) < 256
    rw [admitted, if_neg hnot]
    omega
  · exact fun h => absurd rfl h.2.1
  · exact fun h => absurd h.1 (by decide)

/-- 300 of the goods are accepted for the first slot of the backpack, which is
then told to take 44. -/
theorem newcomer_loses_goods :
    ¬ StoresRight goodsMgr noObjects newcomer (goods 7) none 300
      (canStoreItem' goodsMgr noObjects newcomer ⟨nullBag, nullSlot⟩ [] 7 300 none false
        none) := by
  have hanswer : canStoreItem' goodsMgr noObjects newcomer ⟨nullBag, nullSlot⟩ [] 7 300 none false
      none = ⟨.ok, [⟨⟨255, 23⟩, 44⟩], none⟩ := by decide +kernel
  intro h
  rw [hanswer] at h
  exact absurd (h.placed rfl) (by decide)

end Sunstrider.Inventory
