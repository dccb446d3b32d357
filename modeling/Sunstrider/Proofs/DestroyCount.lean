import Sunstrider.Proofs.DestroyItem

/-!
# How much one run destroys

The six ranges of `DestroyItemCount` are one list of positions, and the run is a
walk along it: what lies at the positions passed is gone, and the running total is
what lay there. The walk ends at the stack where the total reaches the count, in
one of two ways, or behind the last position.

Three things can go wrong. The total has 32 bits, and a stack that lifts it over
them is taken for one that fits. The stacks searched are not the stacks that are
not in trade: items in trade are searched too, and the bags in the bank slots are
not. And a worn bag of the entry is destroyed with what is in it still inside.
-/

namespace Sunstrider.Inventory

/-! ## Positions -/

def ownRange (first last : Nat) : List Pos :=
  (slotsFrom first last).map (Pos.mk inventorySlotBag0)

def bagRange (first last : Nat) : List Pos :=
  (slotsFrom first last).flatMap fun i => (List.range maxBagSize).map (Pos.mk i)

/-- The ranges up to the bags that are carried. -/
def searchedFirst : List Pos :=
  ownRange inventorySlotItemStart inventorySlotItemEnd ++
    (ownRange keyringSlotStart keyringSlotEnd ++
      bagRange inventorySlotBagStart inventorySlotBagEnd)

/-- The ranges from the equipment on. -/
def searchedThen : List Pos :=
  ownRange 0 inventorySlotBagEnd ++
    (ownRange bankSlotItemStart bankSlotItemEnd ++
      bagRange bankSlotBagStart bankSlotBagEnd)

/-- Where `DestroyItemCount` looks, in its order. -/
def searched : List Pos := searchedFirst ++ searchedThen

/-- Everywhere an item can be. -/
def positions : List Pos := searched ++ ownRange bankSlotBagStart bankSlotBagEnd

@[simp] theorem mem_ownRange {first last : Nat} {pos : Pos} :
    pos ∈ ownRange first last ↔
      pos.bag = inventorySlotBag0 ∧ first ≤ pos.slot ∧ pos.slot < last := by
  unfold ownRange
  rw [List.mem_map]
  constructor
  · rintro ⟨slot, hslot, rfl⟩
    exact ⟨rfl, mem_slotsFrom.1 hslot⟩
  · rintro ⟨hbag, hslot⟩
    refine ⟨pos.slot, mem_slotsFrom.2 hslot, ?_⟩
    rw [← hbag]

@[simp] theorem mem_bagRange {first last : Nat} {pos : Pos} :
    pos ∈ bagRange first last ↔
      (first ≤ pos.bag ∧ pos.bag < last) ∧ pos.slot < maxBagSize := by
  unfold bagRange
  simp only [List.mem_flatMap, mem_slotsFrom, List.mem_map, List.mem_range]
  constructor
  · rintro ⟨bag, hbag, slot, hslot, rfl⟩
    exact ⟨hbag, hslot⟩
  · rintro ⟨hbag, hslot⟩
    exact ⟨pos.bag, hbag, pos.slot, hslot, rfl⟩

namespace Holdings

theorem pairwise_ownRange (first last : Nat) :
    (ownRange first last).Pairwise fun p q => ¬ Hides p q := by
  unfold ownRange
  rw [List.pairwise_map]
  refine (nodup_slotsFrom first last).imp ?_
  rintro i j hij (hq | hp)
  · simp only [Pos.mk.injEq] at hq
    exact hij hq.2.symm
  · rw [rootSlot_own] at hp
    simp only [Pos.mk.injEq] at hp
    exact hij hp.2

theorem pairwise_bagRange {first last : Nat} (hlast : last ≤ inventorySlotBag0) :
    (bagRange first last).Pairwise fun p q => ¬ Hides p q := by
  unfold bagRange
  rw [List.pairwise_flatMap]
  constructor
  · intro i hi
    rw [List.pairwise_map]
    refine List.nodup_range.imp ?_
    rintro j k hjk (hq | hp)
    · simp only [Pos.mk.injEq] at hq
      exact hjk hq.2.symm
    · simp only [Pos.mk.injEq] at hp
      have := (mem_slotsFrom.1 hi).2
      omega
  · refine (nodup_slotsFrom first last).imp_of_mem ?_
    intro i i' hi hi' hne p hp q hq
    obtain ⟨j, -, rfl⟩ := List.mem_map.1 hp
    obtain ⟨k, -, rfl⟩ := List.mem_map.1 hq
    rintro (hq | hp)
    · simp only [Pos.mk.injEq] at hq
      exact hne hq.1.symm
    · simp only [Pos.mk.injEq] at hp
      have := (mem_slotsFrom.1 hi).2
      omega

/-- No position comes behind one that hides it. -/
theorem pairwise_positions : positions.Pairwise fun p q => ¬ Hides p q := by
  have hbags : bankSlotBagEnd ≤ inventorySlotBag0 := by decide
  have hcarried : inventorySlotBagEnd ≤ inventorySlotBag0 := by decide
  unfold positions searched searchedFirst searchedThen
  simp only [List.pairwise_append, pairwise_ownRange, pairwise_bagRange hbags,
    pairwise_bagRange hcarried, List.mem_append, mem_ownRange, mem_bagRange,
    true_and]
  simp only [hides_iff]
  unfold inventorySlotItemStart inventorySlotItemEnd keyringSlotStart keyringSlotEnd
    inventorySlotBagStart inventorySlotBagEnd bankSlotItemStart bankSlotItemEnd bankSlotBagStart
    bankSlotBagEnd inventorySlotBag0 maxBagSize
  refine ⟨⟨⟨?_, ?_⟩, ⟨?_, ?_⟩, ?_⟩, ?_⟩ <;> intro p hp q hq <;> omega

theorem getBagSize_le (mgr : ObjectMgr) (i : Item) : i.getBagSize mgr ≤ maxBagSize := by
  unfold Item.getBagSize
  split
  · exact (i.template mgr).containerSlots_le
  · exact Nat.zero_le _

theorem mem_positions_of_own {pos : Pos} (hpos : pos.bag = inventorySlotBag0)
    (hown : isOwnSlot pos.slot) : pos ∈ positions := by
  unfold positions searched searchedFirst searchedThen
  simp only [List.mem_append, mem_ownRange, mem_bagRange]
  simp only [isOwnSlot, Bool.or_eq_true, Bool.and_eq_true, decide_eq_true_eq] at hown
  unfold inventorySlotItemStart inventorySlotItemEnd keyringSlotStart keyringSlotEnd
    inventorySlotBagStart inventorySlotBagEnd bankSlotItemStart bankSlotItemEnd
    bankSlotBagStart bankSlotBagEnd inventorySlotBag0 maxBagSize at *
  omega

theorem mem_positions_of_bag {pos : Pos} (hbag : isBagSlot pos.bag)
    (hsize : pos.slot < maxBagSize) : pos ∈ positions := by
  unfold positions searched searchedFirst searchedThen
  simp only [List.mem_append, mem_ownRange, mem_bagRange]
  simp only [isBagSlot, Bool.or_eq_true, Bool.and_eq_true, decide_eq_true_eq] at hbag
  unfold inventorySlotItemStart inventorySlotItemEnd keyringSlotStart keyringSlotEnd
    inventorySlotBagStart inventorySlotBagEnd bankSlotItemStart bankSlotItemEnd
    bankSlotBagStart bankSlotBagEnd inventorySlotBag0 at *
  omega

theorem mem_positions {mgr : ObjectMgr} {h : Holdings} {pos : Pos} {r : ItemRef}
    (hr : h.itemAt mgr pos = some r) : pos ∈ positions := by
  by_cases hpos : pos.bag = inventorySlotBag0
  · refine mem_positions_of_own hpos ?_
    rw [eq_own hpos, itemAt_own] at hr
    unfold Player.getOwnItem at hr
    split at hr
    · assumption
    · cases hr
  · obtain ⟨pBag, -, hbag, hslot⟩ := bagAt_of_itemAt hpos hr
    refine mem_positions_of_bag hbag ?_
    unfold Item.getItemByPos at hslot
    split at hslot
    · rename_i hlt
      exact Nat.lt_of_lt_of_le hlt (getBagSize_le mgr _)
    · cases hslot

/-! ## Units -/

section Units

variable (mgr : ObjectMgr) (h : Holdings) (item : Nat)

variable {ps : List Pos} {pos p : Pos}

/-- The units of an entry at a position. -/
def unitsAt (pos : Pos) : Nat := h.objects.stackCount item none (h.itemAt mgr pos)

/-- Those of them that are not in trade. -/
def freeUnitsAt (pos : Pos) : Nat :=
  match h.itemAt mgr pos with
  | none => 0
  | some r => if (h.objects.item r).inTrade then 0 else h.unitsAt mgr item pos

def unitsIn (ps : List Pos) : Nat := (ps.map (h.unitsAt mgr item)).sum

def freeUnitsIn (ps : List Pos) : Nat := (ps.map (h.freeUnitsAt mgr item)).sum

/-- The positions with a stack of the entry. -/
def stacksAt (ps : List Pos) : List Pos := ps.filter fun p => decide (0 < h.unitsAt mgr item p)

variable {mgr h item}

@[simp] theorem unitsIn_nil : h.unitsIn mgr item [] = 0 := rfl

@[simp] theorem unitsIn_cons (p : Pos) (ps : List Pos) :
    h.unitsIn mgr item (p :: ps) = h.unitsAt mgr item p + h.unitsIn mgr item ps := rfl

@[simp] theorem unitsIn_append (ps qs : List Pos) :
    h.unitsIn mgr item (ps ++ qs) = h.unitsIn mgr item ps + h.unitsIn mgr item qs := by
  unfold unitsIn
  rw [List.map_append, List.sum_append]

theorem unitsIn_congr {h' : Holdings}
    (hps : ∀ p ∈ ps, h'.unitsAt mgr item p = h.unitsAt mgr item p) :
    h'.unitsIn mgr item ps = h.unitsIn mgr item ps := by
  unfold unitsIn
  rw [List.map_congr_left hps]

variable (mgr item) in
theorem unitsIn_le {h' : Holdings} (ps : List Pos)
    (hps : ∀ p ∈ ps, h'.unitsAt mgr item p ≤ h.unitsAt mgr item p) :
    h'.unitsIn mgr item ps ≤ h.unitsIn mgr item ps :=
  List.sum_le_sum hps

theorem unitsIn_zero (hps : ∀ p ∈ ps, h.unitsAt mgr item p = 0) : h.unitsIn mgr item ps = 0 := by
  unfold unitsIn
  rw [List.sum_eq_zero]
  intro n hn
  obtain ⟨p, hp, rfl⟩ := List.mem_map.1 hn
  exact hps p hp

theorem unitsAt_nothing (hpos : h.itemAt mgr pos = none) : h.unitsAt mgr item pos = 0 := by
  unfold unitsAt
  rw [hpos]
  rfl

theorem unitsAt_some {r : ItemRef} (hr : h.itemAt mgr pos = some r) :
    h.unitsAt mgr item pos =
      if (h.objects.item r).entry = item then (h.objects.item r).count else 0 := by
  unfold unitsAt Objects.stackCount
  rw [hr]
  simp

theorem exists_stack (hpos : 0 < h.unitsAt mgr item pos) :
    ∃ r, h.itemAt mgr pos = some r ∧ (h.objects.item r).entry = item ∧
      (h.objects.item r).count = h.unitsAt mgr item pos := by
  cases hr : h.itemAt mgr pos with
  | none =>
      rw [unitsAt_nothing hr] at hpos
      cases hpos
  | some r =>
      rw [unitsAt_some hr] at hpos ⊢
      split at hpos
      · rename_i he
        exact ⟨r, rfl, he, (if_pos he).symm⟩
      · cases hpos

variable (item) in
theorem unitsAt_lt (hk : h.WellKept mgr) (pos : Pos) : h.unitsAt mgr item pos < pow32 := by
  cases hr : h.itemAt mgr pos with
  | none =>
      rw [unitsAt_nothing hr]
      decide
  | some r =>
      rw [unitsAt_some hr]
      split
      · exact (hk.counted hr).2
      · decide

theorem mem_stacksAt : p ∈ h.stacksAt mgr item ps ↔ p ∈ ps ∧ 0 < h.unitsAt mgr item p := by
  unfold stacksAt
  rw [List.mem_filter, decide_eq_true_eq]

theorem stacksAt_concat_of_zero (hp : h.unitsAt mgr item p = 0) :
    h.stacksAt mgr item (ps ++ [p]) = h.stacksAt mgr item ps := by
  unfold stacksAt
  rw [List.filter_append, List.filter_cons, if_neg (by simp [hp]), List.filter_nil,
    List.append_nil]

theorem stacksAt_concat_of_pos (hp : 0 < h.unitsAt mgr item p) :
    h.stacksAt mgr item (ps ++ [p]) = h.stacksAt mgr item ps ++ [p] := by
  unfold stacksAt
  rw [List.filter_append, List.filter_cons, if_pos (by simp [hp]), List.filter_nil]

variable (item) in
/-- The stack that is cut, with what it keeps. -/
theorem unitsAt_cut (hk : h.WellKept mgr) {r : ItemRef} (hr : h.itemAt mgr pos = some r) (n : Nat)
    (q : Pos) :
    (h.modify r fun i => { i with count := n }).itemAt mgr q = h.itemAt mgr q ∧
      (q ≠ pos → (h.modify r fun i => { i with count := n }).unitsAt mgr item q =
        h.unitsAt mgr item q) ∧
      ((h.objects.item r).entry = item →
        (h.modify r fun i => { i with count := n }).unitsAt mgr item pos = n) := by
  have hitem : ∀ r', (h.modify r fun i => { i with count := n }).objects.item r' =
      if r' = r then { h.objects.item r with count := n } else h.objects.item r' := by
    intro r'
    unfold Holdings.modify
    dsimp only
    rw [modify_item]
  have hat : ∀ q, (h.modify r fun i => { i with count := n }).itemAt mgr q =
      h.itemAt mgr q := by
    intro q
    refine itemAt_congr rfl ?_
    intro b _ _
    rw [hitem]
    split <;> rename_i hb
    · exact getItemByPos_congr (hb ▸ rfl) (hb ▸ rfl)
    · rfl
  refine ⟨hat q, ?_, ?_⟩
  · intro hq
    cases hr' : h.itemAt mgr q with
    | none => rw [unitsAt_nothing hr', unitsAt_nothing ((hat q).trans hr')]
    | some r' =>
        have hrr : r' ≠ r := by
          intro hrr
          subst hrr
          exact hq (hk.apart hr' hr)
        rw [unitsAt_some hr', unitsAt_some ((hat q).trans hr'), hitem, if_neg hrr]
  · intro he
    rw [unitsAt_some ((hat pos).trans hr), hitem, if_pos rfl]
    exact if_pos he

namespace Cleared

variable {h' : Holdings} {gone : List Pos}

variable (item) in
theorem unitsAt_kept (hc : Cleared mgr h gone h') {q : Pos} (hq : ∀ p ∈ gone, ¬ Hides p q) :
    h'.unitsAt mgr item q = h.unitsAt mgr item q := by
  cases hr : h.itemAt mgr q with
  | none => rw [unitsAt_nothing hr, unitsAt_nothing ((hc.kept hq).trans hr)]
  | some r =>
      rw [unitsAt_some hr, unitsAt_some ((hc.kept hq).trans hr), (hc.same r).entry,
        (hc.same r).count]

theorem unitsAt_le (hc : Cleared mgr h gone h') (q : Pos) :
    h'.unitsAt mgr item q ≤ h.unitsAt mgr item q := by
  cases hr : h'.itemAt mgr q with
  | none =>
      rw [unitsAt_nothing hr]
      exact Nat.zero_le _
  | some r =>
      rw [unitsAt_some hr, unitsAt_some (hc.fewer hr), (hc.same r).entry, (hc.same r).count]

/-- At the positions passed nothing is left. -/
theorem unitsAt_passed {done : List Pos} (hc : Cleared mgr h (h.stacksAt mgr item done) h')
    {q : Pos} (hq : q ∈ done) : h'.unitsAt mgr item q = 0 := by
  rcases Nat.eq_zero_or_pos (h.unitsAt mgr item q) with hzero | hpos
  · exact Nat.le_zero.1 (hzero ▸ hc.unitsAt_le q)
  · exact unitsAt_nothing (hc.lost (mem_stacksAt.2 ⟨hq, hpos⟩) (.inl rfl))

end Cleared

end Units

end Holdings

/-! ## One stack -/

namespace Destroying

open Holdings

variable (mgr : ObjectMgr) (depth item count : Nat)

variable {h : Holdings} {s' : Destroying}

/-- The loop body at a position. -/
def destroyAt (s : Destroying) (pos : Pos) : Except Holdings Destroying :=
  s.destroyStack mgr (depth + 1) item count (fun _ => true) pos (s.holdings.itemAt mgr pos)

variable {mgr depth item count} {s : Destroying} {pos : Pos}

theorem destroyAt_zero (hk : s.holdings.WellKept mgr)
    (hpos : s.holdings.unitsAt mgr item pos = 0) :
    s.destroyAt mgr depth item count pos = .ok s := by
  unfold destroyAt destroyStack
  cases hr : s.holdings.itemAt mgr pos with
  | none => rfl
  | some r =>
      dsimp only
      rw [if_pos]
      intro he
      rw [unitsAt_some hr, if_pos he] at hpos
      have := (hk.counted hr).1
      omega

variable (depth) in
/-- What the body does with a stack of the entry, by the total it comes to. -/
theorem destroyAt_stack (hk : s.holdings.WellKept mgr) (hrem : s.remcount ≤ count)
    (hcount : count < pow32) (hpos : 0 < s.holdings.unitsAt mgr item pos) :
    ∃ r, s.holdings.itemAt mgr pos = some r ∧
      (((s.remcount + s.holdings.unitsAt mgr item pos) % pow32 < count ∧
          s.destroyAt mgr depth item count pos =
            .ok ⟨s.holdings.destroyAlone pos r,
              (s.remcount + s.holdings.unitsAt mgr item pos) % pow32⟩) ∨
        ((s.remcount + s.holdings.unitsAt mgr item pos) % pow32 = count ∧
          s.destroyAt mgr depth item count pos = .error (s.holdings.destroyAlone pos r)) ∨
        (count < (s.remcount + s.holdings.unitsAt mgr item pos) % pow32 ∧
          s.destroyAt mgr depth item count pos =
            .error (s.holdings.modify r fun i =>
              { i with count := s.remcount + s.holdings.unitsAt mgr item pos - count }))) := by
  obtain ⟨r, hr, he, hunits⟩ := exists_stack hpos
  have hlt := (hk.counted hr).2
  refine ⟨r, hr, ?_⟩
  unfold destroyAt destroyStack
  rw [hr]
  dsimp only
  rw [if_neg (by simpa using he), if_pos rfl, destroyItem_eq hk depth hr, ← hunits]
  have hsum : add32 (s.holdings.objects.item r).count s.remcount =
      (s.remcount + (s.holdings.objects.item r).count) % pow32 := by
    unfold add32
    rw [Nat.add_comm]
  have hcut : count < (s.remcount + (s.holdings.objects.item r).count) % pow32 →
      add32 (sub32 (s.holdings.objects.item r).count count) s.remcount =
        s.remcount + (s.holdings.objects.item r).count - count := by
    unfold add32 sub32
    unfold pow32 at *
    omega
  rw [hsum]
  split <;> rename_i hfits
  · have hremcount : add32 s.remcount (s.holdings.objects.item r).count =
        (s.remcount + (s.holdings.objects.item r).count) % pow32 := rfl
    rw [hremcount]
    split <;> rename_i hfull
    · exact .inr (.inl ⟨by omega, rfl⟩)
    · exact .inl ⟨by omega, rfl⟩
  · right
    right
    have hmore := Nat.lt_of_not_le hfits
    refine ⟨hmore, ?_⟩
    unfold Holdings.modify Objects.modify
    dsimp only
    rw [hcut hmore]

theorem wellKept_destroyAlone (hk : h.WellKept mgr) {r : ItemRef} (hr : h.itemAt mgr pos = some r) :
    (h.destroyAlone pos r).WellKept mgr :=
  ((Cleared.none mgr h).concat hk hr).wellKept hk

theorem wellKept_destroyAt (hk : s.holdings.WellKept mgr) (hrem : s.remcount ≤ count)
    (hcount : count < pow32) (hs : s.destroyAt mgr depth item count pos = .ok s') :
    s'.holdings.WellKept mgr ∧ s'.remcount ≤ count := by
  rcases Nat.eq_zero_or_pos (s.holdings.unitsAt mgr item pos) with hzero | hpos
  · rw [destroyAt_zero hk hzero] at hs
    cases hs
    exact ⟨hk, hrem⟩
  · obtain ⟨r, hr, ⟨hsum, he⟩ | ⟨-, he⟩ | ⟨-, he⟩⟩ := destroyAt_stack depth hk hrem hcount hpos
    · rw [he] at hs
      cases hs
      exact ⟨wellKept_destroyAlone hk hr, Nat.le_of_lt hsum⟩
    · rw [he] at hs
      cases hs
    · rw [he] at hs
      cases hs

/-! ## The walk -/

variable (depth item) in
/-- From wherever the walk goes on, it does not add to anything. -/
theorem unitsAt_walk_le (hcount : count < pow32) (ps : List Pos) (s : Destroying)
    (hk : s.holdings.WellKept mgr) (hrem : s.remcount ≤ count) (q : Pos) :
    (outcome (ps.foldlM (destroyAt mgr depth item count) s)).unitsAt mgr item q ≤
      s.holdings.unitsAt mgr item q := by
  induction ps generalizing s with
  | nil => exact Nat.le_refl _
  | cons p ps ih =>
      rw [List.foldlM_cons]
      rcases Nat.eq_zero_or_pos (s.holdings.unitsAt mgr item p) with hzero | hpos
      · rw [destroyAt_zero hk hzero]
        exact ih s hk hrem
      · obtain ⟨r, hr, ⟨hsum, he⟩ | ⟨-, he⟩ | ⟨hsum, he⟩⟩ := destroyAt_stack depth hk hrem hcount hpos
        · rw [he]
          refine Nat.le_trans (ih _ (wellKept_destroyAlone hk hr) (Nat.le_of_lt hsum)) ?_
          exact ((Cleared.none mgr _).concat hk hr).unitsAt_le q
        · rw [he]
          exact ((Cleared.none mgr _).concat hk hr).unitsAt_le q
        · rw [he]
          show (Holdings.modify _ _ _).unitsAt mgr item q ≤ _
          obtain ⟨-, hother, hself⟩ := unitsAt_cut item hk hr
            (s.remcount + s.holdings.unitsAt mgr item p - count) q
          by_cases hq : q = p
          · subst hq
            obtain ⟨r', hr', hentry, -⟩ := exists_stack hpos
            rw [hr] at hr'
            cases hr'
            rw [hself hentry]
            omega
          · rw [hother hq]

/-- How a walk from `h` along some positions ends. -/
inductive Drawn (mgr : ObjectMgr) (item count : Nat) (h : Holdings) (ps : List Pos) :
    Holdings → Prop
  /-- The stacks it came to are gone, and there are no more or the count is reached. -/
  | whole {done rest : List Pos} {h' : Holdings} (hps : ps = done ++ rest)
      (hc : Cleared mgr h (h.stacksAt mgr item done) h')
      (hle : h.unitsIn mgr item done ≤ count)
      (hend : rest = [] ∨ h.unitsIn mgr item done = count) : Drawn mgr item count h ps h'
  /-- The stack at `p` is more than what is still to be destroyed. -/
  | cut {done rest : List Pos} {p : Pos} {h' : Holdings} {r : ItemRef}
      (hps : ps = done ++ p :: rest) (hc : Cleared mgr h (h.stacksAt mgr item done) h')
      (hle : h.unitsIn mgr item done ≤ count) (hr : h'.itemAt mgr p = some r)
      (hpos : 0 < h.unitsAt mgr item p)
      (hmore : count < (h.unitsIn mgr item done + h.unitsAt mgr item p) % pow32) :
      Drawn mgr item count h ps (h'.modify r fun i =>
        { i with count := h.unitsIn mgr item done + h.unitsAt mgr item p - count })
  /-- The stack at `p` is more, but its total of 32 bits is not. -/
  | wrapped {done rest : List Pos} {p : Pos} {h' : Holdings} (hps : ps = done ++ p :: rest)
      (hlt : h.unitsIn mgr item done < count)
      (hmore : count < h.unitsIn mgr item done + h.unitsAt mgr item p)
      (hwrap : (h.unitsIn mgr item done + h.unitsAt mgr item p) % pow32 ≤ count)
      (hbig : pow32 ≤ h.unitsIn mgr item done + h.unitsAt mgr item p)
      (hle : ∀ q, h'.unitsAt mgr item q ≤ h.unitsAt mgr item q)
      (hzero : ∀ q ∈ done ++ [p], h'.unitsAt mgr item q = 0) : Drawn mgr item count h ps h'

/-- The walk behind the positions `done`. -/
structure Underway (mgr : ObjectMgr) (item count : Nat) (h : Holdings) (done : List Pos)
    (s : Destroying) : Prop where
  cleared : Cleared mgr h (h.stacksAt mgr item done) s.holdings
  remcount : s.remcount = h.unitsIn mgr item done
  le : h.unitsIn mgr item done ≤ count
  lt : 0 < count → h.unitsIn mgr item done < count

variable (depth) in
theorem drawn_of_underway (hk : h.WellKept mgr) (hcount : count < pow32) (rest : List Pos) :
    ∀ (done : List Pos) (s : Destroying),
    (done ++ rest).Pairwise (fun p q => ¬ Hides p q) → Underway mgr item count h done s →
    Drawn mgr item count h (done ++ rest)
      (outcome (rest.foldlM (destroyAt mgr depth item count) s)) := by
  induction rest with
  | nil =>
      intro done s _ hs
      exact .whole rfl hs.cleared hs.le (.inl rfl)
  | cons p rest ih =>
      intro done s hps hs
      have hks := hs.cleared.wellKept hk
      have hrem : s.remcount ≤ count := hs.remcount ▸ hs.le
      -- nothing passed so far hides what is at `p`
      have hfree : ∀ q ∈ h.stacksAt mgr item done, ¬ Hides q p := fun q hq =>
        (List.pairwise_append.1 hps).2.2 q (mem_stacksAt.1 hq).1 p List.mem_cons_self
      have hunits := hs.cleared.unitsAt_kept item hfree
      have hassoc : done ++ p :: rest = (done ++ [p]) ++ rest := by simp
      have hsum : h.unitsIn mgr item (done ++ [p]) =
          h.unitsIn mgr item done + h.unitsAt mgr item p := by simp
      rw [List.foldlM_cons]
      rcases Nat.eq_zero_or_pos (h.unitsAt mgr item p) with hzero | hpos
      · rw [destroyAt_zero hks (hunits.trans hzero), hassoc]
        rw [hassoc] at hps
        refine ih (done ++ [p]) s hps ⟨?_, ?_, ?_, ?_⟩
        · rw [stacksAt_concat_of_zero hzero]
          exact hs.cleared
        · rw [hsum, hzero]
          exact hs.remcount
        · rw [hsum, hzero]
          exact hs.le
        · rw [hsum, hzero]
          exact hs.lt
      · obtain ⟨r, hr, hcases⟩ := destroyAt_stack depth hks hrem hcount
          (hunits ▸ hpos)
        rw [hunits, hs.remcount] at hcases
        have hlt := unitsAt_lt item hk p
        have hnext : Cleared mgr h (h.stacksAt mgr item (done ++ [p]))
            (s.holdings.destroyAlone p r) := by
          rw [stacksAt_concat_of_pos hpos]
          exact hs.cleared.concat hk hr
        by_cases hbig : h.unitsIn mgr item done + h.unitsAt mgr item p < pow32
        · rw [Nat.mod_eq_of_lt hbig] at hcases
          rcases hcases with ⟨hbelow, he⟩ | ⟨hreached, he⟩ | ⟨hmore, he⟩
          · rw [he, hassoc]
            rw [hassoc] at hps
            exact ih (done ++ [p]) _ hps
              ⟨hnext, hsum.symm, hsum ▸ Nat.le_of_lt hbelow, fun _ => hsum ▸ hbelow⟩
          · rw [he]
            exact .whole hassoc hnext (Nat.le_of_eq (hsum.trans hreached))
              (.inr (hsum.trans hreached))
          · rw [he]
            exact .cut rfl hs.cleared hs.le hr hpos (by rwa [Nat.mod_eq_of_lt hbig])
        · have hle := hs.le
          have hbelow : h.unitsIn mgr item done < count := hs.lt (by omega)
          have hgone : ∀ q ∈ done ++ [p], (s.holdings.destroyAlone p r).unitsAt mgr item q = 0 :=
            fun q hq => hnext.unitsAt_passed hq
          rcases hcases with ⟨hwrap, he⟩ | ⟨hwrap, he⟩ | ⟨hmore, he⟩
          · rw [he]
            have hless := unitsAt_walk_le depth item hcount rest
              ⟨s.holdings.destroyAlone p r,
                (h.unitsIn mgr item done + h.unitsAt mgr item p) % pow32⟩
              (hnext.wellKept hk) (Nat.le_of_lt hwrap)
            refine .wrapped rfl hbelow (by omega) (Nat.le_of_lt hwrap) (by omega) ?_ ?_
            · exact fun q => Nat.le_trans (hless q) (hnext.unitsAt_le q)
            · exact fun q hq => Nat.le_zero.1 (hgone q hq ▸ hless q)
          · rw [he]
            exact .wrapped rfl hbelow (by omega) (Nat.le_of_eq hwrap) (by omega)
              hnext.unitsAt_le hgone
          · rw [he]
            exact .cut rfl hs.cleared hs.le hr hpos hmore

/-! ## The six ranges -/

theorem bind_congr_ok {ε α β : Type} {x : Except ε α} {f g : α → Except ε β}
    (hfg : ∀ a, x = .ok a → f a = g a) : (x >>= f) = x >>= g := by
  cases x with
  | error e => rfl
  | ok a => exact hfg a rfl

theorem destroyInSlots_eq {mayDestroy : Holdings → Pos → Bool}
    (hall : ∀ h p, mayDestroy h p = true) (first last : Nat) (s : Destroying) :
    s.destroyInSlots mgr (depth + 1) item count mayDestroy first last =
      (ownRange first last).foldlM (destroyAt mgr depth item count) s := by
  unfold destroyInSlots ownRange
  rw [List.foldlM_map]
  congr 1
  funext s i
  simp only [hall]
  rfl

theorem walk_wellKept (hcount : count < pow32) (ps : List Pos) (s : Destroying)
    (hk : s.holdings.WellKept mgr) (hrem : s.remcount ≤ count)
    (hs : ps.foldlM (destroyAt mgr depth item count) s = .ok s') :
    s'.holdings.WellKept mgr ∧ s'.remcount ≤ count := by
  induction ps generalizing s with
  | nil =>
      cases hs
      exact ⟨hk, hrem⟩
  | cons p ps ih =>
      rw [List.foldlM_cons] at hs
      cases hp : destroyAt mgr depth item count s p with
      | error h =>
          rw [hp] at hs
          cases hs
      | ok s₁ =>
          rw [hp] at hs
          obtain ⟨hk₁, hrem₁⟩ := wellKept_destroyAt hk hrem hcount hp
          exact ih s₁ hk₁ hrem₁ hs

theorem walk_nothing {ps : List Pos} (hps : ∀ p ∈ ps, s.holdings.itemAt mgr p = none) :
    ps.foldlM (destroyAt mgr depth item count) s = .ok s := by
  induction ps with
  | nil => rfl
  | cons p ps ih =>
      rw [List.foldlM_cons]
      unfold destroyAt
      rw [hps p List.mem_cons_self]
      exact ih fun q hq => hps q (List.mem_cons_of_mem _ hq)

/-- What is destroyed in bags leaves the player's own slots alone, and every bag
its size. -/
theorem destroyAt_inBag (hk : s.holdings.WellKept mgr) (hrem : s.remcount ≤ count)
    (hcount : count < pow32) (hpos : pos.bag ≠ inventorySlotBag0)
    (hs : s.destroyAt mgr depth item count pos = .ok s') :
    s'.holdings.player = s.holdings.player ∧
      ∀ r, (s'.holdings.objects.item r).entry = (s.holdings.objects.item r).entry := by
  rcases Nat.eq_zero_or_pos (s.holdings.unitsAt mgr item pos) with hzero | hunits
  · rw [destroyAt_zero hk hzero] at hs
    cases hs
    exact ⟨rfl, fun _ => rfl⟩
  · obtain ⟨r, hr, ⟨-, he⟩ | ⟨-, he⟩ | ⟨-, he⟩⟩ := destroyAt_stack depth hk hrem hcount hunits
    · rw [he] at hs
      cases hs
      obtain ⟨pBag, hbag, -⟩ := bagAt_of_itemAt hpos hr
      refine ⟨?_, fun r' => (sameStack_destroyAlone hr r').entry⟩
      rw [destroyAlone_inBag hpos hbag]
    · rw [he] at hs
      cases hs
    · rw [he] at hs
      cases hs

section Bag

variable {i : Nat} {pBag : ItemRef}

theorem itemAt_bag (hi : isBagSlot i) (hne : i ≠ inventorySlotBag0)
    (hbag : s.holdings.player.getOwnItem i = some pBag) (j : Nat) :
    s.holdings.itemAt mgr ⟨i, j⟩ = (s.holdings.objects.item pBag).getItemByPos mgr j := by
  rw [itemAt_inBag hne]
  dsimp only
  rw [if_pos hi, hbag, Option.bind_some]

/-- The inner loop over some slots of a bag. -/
theorem bag_walk (hcount : count < pow32) (hi : isBagSlot i) (hne : i ≠ inventorySlotBag0)
    (slots : List Nat) (s : Destroying) (hk : s.holdings.WellKept mgr)
    (hrem : s.remcount ≤ count) (hbag : s.holdings.player.getOwnItem i = some pBag) :
    slots.foldlM (fun s j =>
        s.destroyStack mgr (depth + 1) item count (fun _ => true) ⟨i, j⟩
          ((s.holdings.objects.item pBag).getItemByPos mgr j)) s =
      (slots.map (Pos.mk i)).foldlM (destroyAt mgr depth item count) s := by
  induction slots generalizing s with
  | nil => rfl
  | cons j slots ih =>
      rw [List.map_cons, List.foldlM_cons, List.foldlM_cons]
      have hstep : s.destroyStack mgr (depth + 1) item count (fun _ => true) ⟨i, j⟩
          ((s.holdings.objects.item pBag).getItemByPos mgr j) =
          s.destroyAt mgr depth item count ⟨i, j⟩ := by
        unfold destroyAt
        rw [itemAt_bag hi hne hbag]
      rw [hstep]
      refine bind_congr_ok fun s' hs' => ?_
      obtain ⟨hk', hrem'⟩ := wellKept_destroyAt hk hrem hcount hs'
      obtain ⟨hplayer, -⟩ := destroyAt_inBag hk hrem hcount hne hs'
      exact ih s' hk' hrem' (by rw [hplayer, hbag])

theorem walk_inBag (hcount : count < pow32) (hne : i ≠ inventorySlotBag0) (slots : List Nat)
    (s : Destroying) (hk : s.holdings.WellKept mgr) (hrem : s.remcount ≤ count)
    {s' : Destroying}
    (hs : (slots.map (Pos.mk i)).foldlM (destroyAt mgr depth item count) s = .ok s') :
    s'.holdings.player = s.holdings.player ∧
      ∀ r, (s'.holdings.objects.item r).entry = (s.holdings.objects.item r).entry := by
  induction slots generalizing s with
  | nil =>
      cases hs
      exact ⟨rfl, fun _ => rfl⟩
  | cons j slots ih =>
      rw [List.map_cons, List.foldlM_cons] at hs
      cases hp : destroyAt mgr depth item count s ⟨i, j⟩ with
      | error h =>
          rw [hp] at hs
          cases hs
      | ok s₁ =>
          rw [hp] at hs
          obtain ⟨hk₁, hrem₁⟩ := wellKept_destroyAt hk hrem hcount hp
          obtain ⟨hplayer, hentry⟩ := destroyAt_inBag hk hrem hcount hne hp
          obtain ⟨hplayer', hentry'⟩ := ih s₁ hk₁ hrem₁ hs
          exact ⟨hplayer'.trans hplayer, fun r => (hentry' r).trans (hentry r)⟩

end Bag

theorem destroyInBag_eq (hcount : count < pow32) {i : Nat} (hi : isBagSlot i)
    (hne : i ≠ inventorySlotBag0) (hk : s.holdings.WellKept mgr) (hrem : s.remcount ≤ count) :
    s.destroyInBag mgr (depth + 1) item count i =
      ((List.range maxBagSize).map (Pos.mk i)).foldlM (destroyAt mgr depth item count) s := by
  unfold destroyInBag
  cases hown : s.holdings.player.getOwnItem i with
  | none =>
      refine (walk_nothing fun p hp => ?_).symm
      obtain ⟨j, -, rfl⟩ := List.mem_map.1 hp
      exact itemAt_none_of_root (by rw [rootSlot_inBag hne]; exact hown)
  | some pBag =>
      dsimp only
      have hsize := getBagSize_le mgr (s.holdings.objects.item pBag)
      rw [bag_walk hcount hi hne _ s hk hrem hown,
        show maxBagSize = (s.holdings.objects.item pBag).getBagSize mgr +
          (maxBagSize - (s.holdings.objects.item pBag).getBagSize mgr) by omega,
        List.range_add, List.map_append, List.foldlM_append]
      -- behind the last slot of the bag there is nothing
      refine (bind_pure _).symm.trans (bind_congr_ok fun s' hs' => ?_)
      obtain ⟨hplayer, hentry⟩ := walk_inBag hcount hne _ s hk hrem hs'
      refine (walk_nothing fun p hp => ?_).symm
      obtain ⟨j, hj, rfl⟩ := List.mem_map.1 hp
      obtain ⟨k, -, rfl⟩ := List.mem_map.1 hj
      rw [itemAt_bag hi hne (hplayer ▸ hown)]
      unfold Item.getItemByPos Item.getBagSize Item.isBag Item.template
      rw [hentry, if_neg]
      exact Nat.not_lt.2 (Nat.le_add_right _ _)

theorem destroyInBags_eq (hcount : count < pow32) {first last : Nat}
    (hslots : ∀ i, first ≤ i → i < last → isBagSlot i = true ∧ i ≠ inventorySlotBag0)
    (s : Destroying) (hk : s.holdings.WellKept mgr) (hrem : s.remcount ≤ count) :
    s.destroyInBags mgr (depth + 1) item count first last =
      (bagRange first last).foldlM (destroyAt mgr depth item count) s := by
  unfold destroyInBags bagRange
  have hall : ∀ i ∈ slotsFrom first last, isBagSlot i = true ∧ i ≠ inventorySlotBag0 :=
    fun i hi => hslots i (mem_slotsFrom.1 hi).1 (mem_slotsFrom.1 hi).2
  generalize slotsFrom first last = bags at hall ⊢
  induction bags generalizing s with
  | nil => rfl
  | cons i bags ih =>
      obtain ⟨hi, hne⟩ := hall i List.mem_cons_self
      rw [List.flatMap_cons, List.foldlM_append, List.foldlM_cons,
        destroyInBag_eq hcount hi hne hk hrem]
      refine bind_congr_ok fun s' hs' => ?_
      obtain ⟨hk', hrem'⟩ := walk_wellKept hcount _ s hk hrem hs'
      exact ih s' hk' hrem' fun j hj => hall j (List.mem_cons_of_mem _ hj)

/-- The function is a walk along the positions searched. -/
theorem destroyItemCount_eq (hcount : count < pow32) (hk : h.WellKept mgr)
    (canUnequipItem : Holdings → Pos → InventoryResult) :
    h.destroyItemCount mgr (depth + 1) canUnequipItem item count false true =
      outcome (searched.foldlM (destroyAt mgr depth item count) ⟨h, 0⟩) := by
  have hbags : ∀ i, inventorySlotBagStart ≤ i → i < inventorySlotBagEnd →
      isBagSlot i = true ∧ i ≠ inventorySlotBag0 := by
    unfold isBagSlot inventorySlotBagStart inventorySlotBagEnd inventorySlotBag0
    intro i hi hlt
    exact ⟨by simp [hi, hlt], by omega⟩
  have hbank : ∀ i, bankSlotBagStart ≤ i → i < bankSlotBagEnd →
      isBagSlot i = true ∧ i ≠ inventorySlotBag0 := by
    unfold isBagSlot bankSlotBagStart bankSlotBagEnd inventorySlotBag0
    intro i hi hlt
    exact ⟨by simp [hi, hlt], by omega⟩
  have hinSlots : ∀ (mayDestroy : Holdings → Pos → Bool), (∀ h p, mayDestroy h p = true) →
      ∀ first last (s : Destroying),
        s.destroyInSlots mgr (depth + 1) item count mayDestroy first last =
          (ownRange first last).foldlM (destroyAt mgr depth item count) s :=
    fun _ hall first last s => destroyInSlots_eq hall first last s
  unfold destroyItemCount searched searchedFirst searchedThen
  simp only [List.foldlM_append, bind_assoc, if_true]
  congr 1
  rw [hinSlots _ (fun _ _ => rfl)]
  refine bind_congr_ok fun s₁ hs₁ => ?_
  obtain ⟨hk₁, hrem₁⟩ := walk_wellKept hcount _ _ hk (Nat.zero_le _) hs₁
  rw [hinSlots _ (fun _ _ => rfl)]
  refine bind_congr_ok fun s₂ hs₂ => ?_
  obtain ⟨hk₂, hrem₂⟩ := walk_wellKept hcount _ _ hk₁ hrem₁ hs₂
  rw [destroyInBags_eq hcount hbags s₂ hk₂ hrem₂]
  refine bind_congr_ok fun s₃ hs₃ => ?_
  obtain ⟨hk₃, hrem₃⟩ := walk_wellKept hcount _ _ hk₂ hrem₂ hs₃
  rw [hinSlots (fun h pos => !false || decide (canUnequipItem h pos = .ok))
    (fun _ _ => Bool.true_or _)]
  refine bind_congr_ok fun s₄ hs₄ => ?_
  obtain ⟨hk₄, hrem₄⟩ := walk_wellKept hcount _ _ hk₃ hrem₃ hs₄
  rw [hinSlots _ (fun _ _ => rfl)]
  refine bind_congr_ok fun s₅ hs₅ => ?_
  obtain ⟨hk₅, hrem₅⟩ := walk_wellKept hcount _ _ hk₄ hrem₄ hs₅
  exact destroyInBags_eq hcount hbank s₅ hk₅ hrem₅

end Destroying

namespace Holdings

variable {mgr : ObjectMgr} {item count : Nat} {h h' : Holdings}

/-! ## What lies before a position -/

variable (mgr h item) in
theorem unitsIn_before_le {ps done rest : List Pos} (hps : ps = done ++ rest) (hn : ps.Nodup)
    {p : Pos} (hp : p ∈ done) :
    h.unitsIn mgr item (ps.takeWhile (· ≠ p)) + h.unitsAt mgr item p ≤
      h.unitsIn mgr item done := by
  obtain ⟨before, after, rfl⟩ := List.append_of_mem hp
  subst hps
  have hnot : ∀ q ∈ before, decide (q ≠ p) = true := by
    intro q hq
    rw [List.append_assoc] at hn
    have := (List.nodup_append.1 hn).2.2 q hq p (by simp)
    exact decide_eq_true this
  rw [List.append_assoc, List.takeWhile_append_of_pos hnot, List.cons_append,
    List.takeWhile_cons_of_neg (by simp), List.append_nil, unitsIn_append, unitsIn_cons]
  omega

variable (mgr h item) in
theorem le_unitsIn_before {ps done rest : List Pos} (hps : ps = done ++ rest) {p : Pos}
    (hp : p ∉ done) :
    h.unitsIn mgr item done ≤ h.unitsIn mgr item (ps.takeWhile (· ≠ p)) := by
  subst hps
  have hnot : ∀ q ∈ done, decide (q ≠ p) = true :=
    fun q hq => decide_eq_true fun he => hp (he ▸ hq)
  rw [List.takeWhile_append_of_pos hnot, unitsIn_append]
  omega

end Holdings

end Sunstrider.Inventory
