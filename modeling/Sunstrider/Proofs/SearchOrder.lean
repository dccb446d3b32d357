import Sunstrider.Lib.GreedyFill
import Sunstrider.Inventory.CanStore

/-!
# What the searches find, in order

With no slot named by the caller, `_CanStoreItem` goes through the same places
whatever the count. `searchOrder` lists them with the space of each, and this
file shows that the chain of searches with its early ends is one greedy walk
over that list: `spread` is the state a walk leaves, `finish` what the block
after a search makes of it, and `Follows` says that a part of the function is
such a walk. Parts compose as long as no position is met twice, which is the
content of `nodup_searchOrder`: merging takes slots with an item and the rest
takes slots without, and the keyring, the backpack, special bags and plain bags
do not overlap.
-/

namespace Sunstrider.Inventory

open Lib

variable {xs ys : List (Pos × Nat)} {s : Search}

/-! ## A walk over candidates -/

/-- The plan entries for the shares of a walk. -/
def planOf (shares : List (Pos × Nat)) : List ItemPosCount :=
  shares.map fun e => .of e.1 e.2

@[simp] theorem planOf_append (xs ys : List (Pos × Nat)) :
    planOf (xs ++ ys) = planOf xs ++ planOf ys := by
  simp [planOf]

theorem planOf_pos (shares : List (Pos × Nat)) :
    (planOf shares).map (·.pos) = shares.map Prod.fst := by
  simp [planOf, ItemPosCount.of, Function.comp_def]

theorem isContainedIn_iff {pos : Pos} {dest : List ItemPosCount} :
    isContainedIn pos dest = true ↔ pos ∈ dest.map (·.pos) := by
  simp [isContainedIn]

/-- The state after walking over the candidates. -/
def spread (cands : List (Pos × Nat)) (s : Search) : Search :=
  ⟨s.dest ++ planOf (fill cands s.count), s.count - room cands⟩

/-- What the block after a search does with its state. -/
def finish (noSimilarCount : Nat) (s : Search) : Except StoreAnswer Search :=
  if s.count = 0 then
    if noSimilarCount = 0 then .error ⟨.ok, s.dest, none⟩
    else .error ⟨.cantCarryMoreOfThis, s.dest, some (add32 s.count noSimilarCount)⟩
  else .ok s

/-- The candidates are new to the plan and listed once. -/
def Fresh (cands : List (Pos × Nat)) (s : Search) : Prop :=
  (s.dest.map (·.pos) ++ cands.map Prod.fst).Nodup

/-- From any state with something left, the step is a walk over the candidates. -/
def Follows (noSimilarCount : Nat) (step : SearchStep) (cands : List (Pos × Nat)) : Prop :=
  ∀ s, 0 < s.count → Fresh cands s → step s = finish noSimilarCount (spread cands s)

theorem spread_nil (s : Search) : spread [] s = s := by
  simp [spread, fill, planOf]

theorem Fresh.left (h : Fresh (xs ++ ys) s) : Fresh xs s := by
  refine h.sublist ?_
  rw [List.map_append, ← List.append_assoc]
  exact List.sublist_append_left ..

/-- After a walk over the first candidates the others are still new. -/
theorem Fresh.right (h : Fresh (xs ++ ys) s) : Fresh ys (spread xs s) := by
  refine h.sublist ?_
  show ((s.dest ++ planOf (fill xs s.count)).map (·.pos) ++ ys.map Prod.fst).Sublist _
  rw [List.map_append, planOf_pos, List.map_append, List.append_assoc]
  exact (List.Sublist.refl _).append ((fill_sublist xs s.count).append (List.Sublist.refl _))

theorem spread_append (hs : 0 < s.count) :
    spread (xs ++ ys) s =
      if (spread xs s).count = 0 then spread xs s else spread ys (spread xs s) := by
  have hcount : (spread xs s).count = s.count - room xs := rfl
  rw [hcount]
  by_cases h : s.count ≤ room xs
  · rw [if_pos (by omega)]
    simp only [spread, fill_append xs ys s.count hs, if_pos h, List.append_nil, room_append]
    congr 1
    omega
  · rw [if_neg (by omega)]
    simp only [spread, fill_append xs ys s.count hs, if_neg h, planOf_append, room_append,
      List.append_assoc]
    congr 1
    omega

/-- Taking a new position is a walk over it alone. -/
theorem take_eq {pos : Pos} (h : isContainedIn pos s.dest = false) (n : Nat) :
    s.take pos n = some (spread [(pos, n)] s) := by
  have hmin : (if s.count < n then s.count else n) = min n s.count := by
    split <;> omega
  have hleft : s.count - min n s.count = s.count - n := by omega
  simp [Search.take, h, hmin, hleft, spread, planOf]

namespace Follows

variable {nsc : Nat}

theorem nil : Follows nsc .ok [] := by
  intro s hs _
  rw [spread_nil, finish, if_neg (by omega)]

theorem andThen {f g : SearchStep} {xs ys : List (Pos × Nat)} (hf : Follows nsc f xs)
    (hg : Follows nsc g ys) : Follows nsc (f >=> g) (xs ++ ys) := by
  intro s hs hfresh
  show f s >>= g = _
  rw [hf s hs hfresh.left, spread_append hs]
  by_cases h : (spread xs s).count = 0
  · rw [if_pos h, finish, if_pos h]
    split <;> rfl
  · have hok : finish nsc (spread xs s) = .ok (spread xs s) := by rw [finish, if_neg h]
    rw [if_neg h, hok]
    exact hg _ (by omega) hfresh.right

theorem ite {f : SearchStep} {xs : List (Pos × Nat)} (c : Prop) [Decidable c]
    (hf : Follows nsc f xs) : Follows nsc (stepIf c f) (if c then xs else []) := by
  unfold stepIf
  split
  · exact hf
  · exact nil

end Follows

section Order

variable (mgr : ObjectMgr) (o : Objects) (p : Player)
variable (pProto : ItemTemplate) (pItem : Option ItemRef)

/-- A slot as a candidate of a search that merges, or of one that does not. -/
def candidate (merge : Bool) (pos : Pos) : Option (Pos × Nat) :=
  let pItem2 := slotItem mgr o p pItem pos
  if pItem2.isSome ≠ merge then none else (slotSpace o pProto pItem2).map fun n => (pos, n)

def candidates (merge : Bool) (bag : Nat) (slots : List Nat) : List (Pos × Nat) :=
  slots.filterMap fun j => candidate mgr o p pProto pItem merge ⟨bag, j⟩

theorem candidate_fst {merge : Bool} {pos : Pos} {c : Pos × Nat}
    (h : candidate mgr o p pProto pItem merge pos = some c) : c.1 = pos := by
  unfold candidate at h
  simp only at h
  split at h
  · exact absurd h (by simp)
  · obtain ⟨n, _, rfl⟩ := Option.map_eq_some_iff.1 h
    rfl

theorem candidates_fst_sublist (merge : Bool) (bag : Nat) (slots : List Nat) :
    ((candidates mgr o p pProto pItem merge bag slots).map Prod.fst).Sublist
      (slots.map (Pos.mk bag)) := by
  induction slots with
  | nil => simp [candidates]
  | cons j js ih =>
      rw [candidates, List.filterMap_cons]
      cases h : candidate mgr o p pProto pItem merge ⟨bag, j⟩ with
      | none => exact ih.trans (List.sublist_cons_self _ _)
      | some c =>
          rw [List.map_cons, candidate_fst mgr o p pProto pItem h]
          exact ih.cons_cons _

/-- A loop over slots is a walk over its candidates. -/
theorem searchSlots_eq (merge : Bool) (bag : Nat) (slots : List Nat) (s : Search)
    (hs : 0 < s.count) (h : Fresh (candidates mgr o p pProto pItem merge bag slots) s) :
    searchSlots mgr o p pProto merge pItem bag slots s =
      spread (candidates mgr o p pProto pItem merge bag slots) s := by
  induction slots generalizing s with
  | nil => exact (spread_nil s).symm
  | cons j js ih =>
      have hcands : candidates mgr o p pProto pItem merge bag (j :: js) =
          (candidate mgr o p pProto pItem merge ⟨bag, j⟩).toList ++
            candidates mgr o p pProto pItem merge bag js := by
        unfold candidates
        rw [List.filterMap_cons]
        cases candidate mgr o p pProto pItem merge ⟨bag, j⟩ <;> rfl
      rw [hcands] at h ⊢
      rw [searchSlots]
      unfold candidate at h ⊢
      simp only at h ⊢
      split
      · rename_i hm
        rw [if_pos hm] at h
        exact ih s hs h
      · rename_i hm
        rw [if_neg hm] at h
        cases hsp : slotSpace o pProto (slotItem mgr o p pItem ⟨bag, j⟩) with
        | none =>
            rw [hsp] at h
            exact ih s hs h
        | some n =>
            rw [hsp] at h
            simp only [Option.map_some, Option.toList_some, List.singleton_append] at h ⊢
            have hnew : isContainedIn ⟨bag, j⟩ s.dest = false := by
              rw [Bool.eq_false_iff, Ne, isContainedIn_iff]
              intro hc
              exact (List.nodup_append.1 h).2.2 _ hc _ (by simp) rfl
            have hsplit : (⟨bag, j⟩, n) :: candidates mgr o p pProto pItem merge bag js =
                [(⟨bag, j⟩, n)] ++ candidates mgr o p pProto pItem merge bag js := rfl
            rw [hsplit] at h ⊢
            simp only [take_eq hnew n]
            rw [spread_append hs]
            split
            · rfl
            · rename_i hz
              exact ih _ (by omega) h.right

/-- A search in the player's own slots, none of them named by the caller. -/
theorem follows_inSlots (nsc first last : Nat) (merge : Bool) :
    Follows nsc
      (afterSearch nsc (canStoreItemInInventorySlots mgr o p first last pProto merge pItem
        nullBag nullSlot))
      (candidates mgr o p pProto pItem merge inventorySlotBag0 (slotsFrom first last)) := by
  intro s hs hfresh
  have hslots : (slotsFrom first last).filter (fun j =>
      ¬ (inventorySlotBag0 = nullBag ∧ j = nullSlot)) = slotsFrom first last := by
    refine List.filter_eq_self.2 (fun j _ => ?_)
    simp [inventorySlotBag0, nullBag]
  simp only [afterSearch, canStoreItemInInventorySlots, hslots,
    searchSlots_eq mgr o p pProto pItem merge inventorySlotBag0 _ s hs hfresh]
  rfl

/-- The slots of a bag the item may go into, if it is of the kind asked for. -/
def bagSlots (nonSpecialized : Bool) (bag : Nat) : List Nat :=
  match p.getOwnItem bag with
  | none => []
  | some pBag =>
      let pBagProto := (o.item pBag).template mgr
      if nonSpecialized = pBagProto.isPlainBag ∧ itemCanGoIntoBag pProto pBagProto then
        List.range ((o.item pBag).getBagSize mgr)
      else []

def bagCandidates (merge nonSpecialized : Bool) (bags : List Nat) : List (Pos × Nat) :=
  bags.flatMap fun i =>
    candidates mgr o p pProto pItem merge i (bagSlots mgr o p pProto nonSpecialized i)

/-- What a search in one bag does: nothing, or a walk over the bag's slots. -/
theorem canStoreItemInBag_cases (bag : Nat) (merge nonSpecialized : Bool) (hbag : bag ≠ nullBag) :
    (bagSlots mgr o p pProto nonSpecialized bag = [] ∧
      ∀ s, (canStoreItemInBag mgr o p bag pProto merge nonSpecialized pItem nullBag nullSlot s).1
        ≠ .ok) ∨
    ∀ s, canStoreItemInBag mgr o p bag pProto merge nonSpecialized pItem nullBag nullSlot s =
      (.ok, searchSlots mgr o p pProto merge pItem bag
        (bagSlots mgr o p pProto nonSpecialized bag) s) := by
  unfold canStoreItemInBag bagSlots
  simp only [if_neg hbag]
  cases p.getOwnItem bag with
  | none => exact .inl ⟨rfl, fun _ => by simp⟩
  | some pBag =>
      simp only
      by_cases hk : nonSpecialized = ((o.item pBag).template mgr).isPlainBag
      · by_cases hg : itemCanGoIntoBag pProto ((o.item pBag).template mgr) = true
        · have hslots : (List.range ((o.item pBag).getBagSize mgr)).filter (· ≠ nullSlot) =
              List.range ((o.item pBag).getBagSize mgr) := by
            refine List.filter_eq_self.2 (fun j hj => ?_)
            have hsize : (o.item pBag).getBagSize mgr ≤ 36 := by
              unfold Item.getBagSize
              split
              · exact ((o.item pBag).template mgr).containerSlots_le
              · omega
            have hlt := List.mem_range.1 hj
            have hne : j ≠ 255 := by omega
            exact decide_eq_true hne
          exact .inr fun s => by
            rw [if_neg (by simpa using hk), if_neg (by simpa using hg), if_pos ⟨hk, hg⟩, hslots]
        · exact .inl ⟨if_neg fun h => hg h.2, fun s => by
            rw [if_neg (by simpa using hk), if_pos (by simpa using hg)]
            simp⟩
      · exact .inl ⟨if_neg fun h => hk h.1, fun s => by
          rw [if_pos hk]
          simp⟩

theorem follows_searchBags (nsc : Nat) (merge nonSpecialized : Bool) (bags : List Nat)
    (hbags : ∀ i ∈ bags, i ≠ nullBag) :
    Follows nsc
      (searchBags mgr o p pProto merge nonSpecialized pItem nullBag nullSlot nsc bags)
      (bagCandidates mgr o p pProto pItem merge nonSpecialized bags) := by
  induction bags with
  | nil => exact Follows.nil
  | cons i is ih =>
      have ih := ih fun j hj => hbags j (by simp [hj])
      intro s hs hfresh
      rw [bagCandidates, List.flatMap_cons] at hfresh ⊢
      rw [searchBags]
      rcases canStoreItemInBag_cases mgr o p pProto pItem i merge nonSpecialized
        (hbags i (by simp)) with ⟨hnone, herr⟩ | hok
      · rw [hnone] at hfresh ⊢
        simp only [if_pos (herr s)]
        exact ih s hs hfresh
      · have hone : Follows nsc
            (afterSearch nsc (canStoreItemInBag mgr o p i pProto merge nonSpecialized pItem
              nullBag nullSlot))
            (candidates mgr o p pProto pItem merge i
              (bagSlots mgr o p pProto nonSpecialized i)) := by
          intro s hs hfresh
          simp only [afterSearch, hok, searchSlots_eq mgr o p pProto pItem merge i _ s hs hfresh]
          rfl
        have hnot : ¬ (canStoreItemInBag mgr o p i pProto merge nonSpecialized pItem nullBag
            nullSlot s).1 ≠ .ok := by
          rw [hok]
          simp
        simp only [if_neg hnot]
        exact hone.andThen ih s hs hfresh

/-- The slots the searches go through when the caller names none, with the space
of each. -/
def searchOrder : List (Pos × Nat) :=
  let inSlots := fun merge first last =>
    candidates mgr o p pProto pItem merge inventorySlotBag0 (slotsFrom first last)
  let inBags := fun merge nonSpecialized =>
    bagCandidates mgr o p pProto pItem merge nonSpecialized
      (slotsFrom inventorySlotBagStart inventorySlotBagEnd)
  (if 1 < pProto.stackable then
    inSlots true keyringSlotStart keyringSlotEnd ++
    (inSlots true inventorySlotItemStart inventorySlotItemEnd ++
    ((if pProto.bagFamily ≠ 0 then inBags true false else []) ++
    inBags true true))
  else []) ++
  ((if pProto.bagFamily ≠ 0 then
    (if pProto.bagFamily &&& bagFamilyMaskKeys ≠ 0 then
      inSlots false keyringSlotStart keyringSlotEnd
    else []) ++
    inBags false false
  else []) ++
  (inSlots false inventorySlotItemStart inventorySlotItemEnd ++
  inBags false true))

/-- The searches of `_CanStoreItem` with no slot named are one walk. -/
theorem follows_storeSearches (nsc : Nat) (swap : Bool) :
    Follows nsc (storeSearches mgr o p ⟨nullBag, nullSlot⟩ pProto pItem swap nsc)
      (searchOrder mgr o p pProto pItem) := by
  have hbags : ∀ i ∈ slotsFrom inventorySlotBagStart inventorySlotBagEnd, i ≠ nullBag := by
    intro i hi
    rw [mem_slotsFrom] at hi
    simp only [inventorySlotBagStart, nullBag] at hi ⊢
    omega
  have inSlots := fun first last merge =>
    follows_inSlots mgr o p pProto pItem nsc first last merge
  have inBags := fun merge nonSpecialized =>
    follows_searchBags mgr o p pProto pItem nsc merge nonSpecialized _ hbags
  have hmerge : Follows nsc (storeByMerging mgr o p nullBag nullSlot pProto pItem nsc) _ :=
    (inSlots _ _ true).andThen <| (inSlots _ _ true).andThen <|
      (Follows.ite _ (inBags true false)).andThen (inBags true true)
  have hfree : Follows nsc (storeInFreeSlots mgr o p nullBag nullSlot pProto pItem nsc) _ :=
    (Follows.ite _ ((Follows.ite _ (inSlots _ _ false)).andThen (inBags false false))).andThen <|
      (inSlots _ _ false).andThen (inBags false true)
  exact Follows.nil.andThen <| Follows.nil.andThen <| (Follows.ite _ hmerge).andThen hfree

end Order

end Sunstrider.Inventory
