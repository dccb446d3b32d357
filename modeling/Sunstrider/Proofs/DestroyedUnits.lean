import Sunstrider.Proofs.DestroyCount

/-!
# The units destroyed and the units asked for

`DestroyItemCount` is to destroy a number of units of one entry, or what there is
of them outside a trade, and nothing else. On a well kept inventory it does so
exactly when three things hold. The units it searches are as many as those not in
trade, or there are enough of both. The stack it would cut does not look small
because its total has left 32 bits. And no worn bag of the entry is among the
stacks that go whole, unless all there is in it is of the entry as well.
-/

namespace Sunstrider.Inventory

namespace Holdings

variable (mgr : ObjectMgr)

/-- What `DestroyItemCount` is to make of an inventory. -/
structure DestroyedRightly (h h' : Holdings) (item count : Nat) : Prop where
  units : h'.unitsIn mgr item positions + min count (h.freeUnitsIn mgr item positions) =
    h.unitsIn mgr item positions
  others : ∀ r, (h.objects.item r).entry ≠ item →
    SameStack (h.objects.item r) (h'.objects.item r) ∧ h'.removed r = h.removed r ∧
      ∀ pos, h'.itemAt mgr pos = some r ↔ h.itemAt mgr pos = some r
  counted : ∀ pos r, h'.itemAt mgr pos = some r → 0 < (h'.objects.item r).count

/-- The units that are found before a position. -/
def unitsBefore (h : Holdings) (item : Nat) (pos : Pos) : Nat :=
  h.unitsIn mgr item (searched.takeWhile (· ≠ pos))

/-- When it does. -/
structure Destroyable (h : Holdings) (item count : Nat) : Prop where
  /-- The search finds what is not in trade, or enough of it. -/
  found : (count ≤ h.unitsIn mgr item searched ∧ count ≤ h.freeUnitsIn mgr item positions) ∨
    h.unitsIn mgr item searched = h.freeUnitsIn mgr item positions
  /-- The stack with which the total passes the count passes it in 32 bits. -/
  fits : ∀ pos ∈ searched, h.unitsBefore mgr item pos < count →
    count < h.unitsBefore mgr item pos + h.unitsAt mgr item pos →
    count < (h.unitsBefore mgr item pos + h.unitsAt mgr item pos) % pow32
  /-- A worn bag that goes whole holds nothing else. -/
  worn : ∀ slot, inventorySlotBagStart ≤ slot → slot < inventorySlotBagEnd →
    0 < h.unitsAt mgr item ⟨inventorySlotBag0, slot⟩ →
    h.unitsBefore mgr item ⟨inventorySlotBag0, slot⟩ +
      h.unitsAt mgr item ⟨inventorySlotBag0, slot⟩ ≤ count →
    ∀ j r, h.itemAt mgr ⟨slot, j⟩ = some r → (h.objects.item r).entry = item

variable {mgr} {h h' : Holdings} {item count : Nat} {done rest : List Pos} {p : Pos}
  {r : ItemRef}

theorem nodup_searched : searched.Nodup := by
  have h : positions.Nodup := pairwise_positions.imp fun hpq he => hpq (.inl he.symm)
  exact (List.nodup_append.1 h).1

variable (mgr h item) in
theorem unitsBefore_eq (hps : searched = done ++ p :: rest) :
    h.unitsBefore mgr item p = h.unitsIn mgr item done := by
  have hnodup := nodup_searched
  rw [hps] at hnodup
  have hnot : ∀ q ∈ done, decide (q ≠ p) = true := fun q hq =>
    decide_eq_true ((List.nodup_append.1 hnodup).2.2 q hq p List.mem_cons_self)
  unfold unitsBefore
  rw [hps, List.takeWhile_append_of_pos hnot, List.takeWhile_cons_of_neg (by simp),
    List.append_nil]

/-! ## Units -/

/-- Behind the positions passed everything is as it was. -/
theorem unitsAt_rest {bank : List Pos} (hps : positions = done ++ (rest ++ bank))
    (hc : Cleared mgr h (h.stacksAt mgr item done) h') {q : Pos} (hq : q ∈ rest ++ bank) :
    h'.unitsAt mgr item q = h.unitsAt mgr item q := by
  refine hc.unitsAt_kept item fun p hp => ?_
  have hpair := pairwise_positions
  rw [hps] at hpair
  exact (List.pairwise_append.1 hpair).2.2 p (mem_stacksAt.1 hp).1 q hq

theorem unitsIn_positions (hps : searched = done ++ rest)
    (hc : Cleared mgr h (h.stacksAt mgr item done) h') :
    h'.unitsIn mgr item positions + h.unitsIn mgr item done = h.unitsIn mgr item positions := by
  have hall : positions = done ++ (rest ++ ownRange bankSlotBagStart bankSlotBagEnd) := by
    rw [← List.append_assoc, ← hps]
    rfl
  have hdone : h'.unitsIn mgr item done = 0 := unitsIn_zero fun q hq => hc.unitsAt_passed hq
  have hrest := unitsIn_congr fun q hq => unitsAt_rest hall hc hq
  rw [hall, unitsIn_append, unitsIn_append (h := h), hdone, hrest]
  omega

/-- The stack that is cut loses what it is to lose. -/
theorem unitsIn_cut (hk : h.WellKept mgr) (hps : searched = done ++ p :: rest)
    (hc : Cleared mgr h (h.stacksAt mgr item done) h') (hr : h'.itemAt mgr p = some r)
    (he : (h'.objects.item r).entry = item) {n : Nat} (hn : n ≤ h.unitsAt mgr item p) :
    (h'.modify r fun i => { i with count := n }).unitsIn mgr item positions +
        (h.unitsIn mgr item done + (h.unitsAt mgr item p - n)) =
      h.unitsIn mgr item positions := by
  have hk' := hc.wellKept hk
  have hall : positions =
      done ++ p :: (rest ++ ownRange bankSlotBagStart bankSlotBagEnd) := by
    rw [← List.cons_append, ← List.append_assoc, ← hps]
    rfl
  have hnodup : positions.Nodup := pairwise_positions.imp fun hpq he => hpq (.inl he.symm)
  rw [hall] at hnodup
  obtain ⟨-, hrestNodup, hdisj⟩ := List.nodup_append.1 hnodup
  have hcut := unitsAt_cut item hk' hr n
  have hdone : (h'.modify r fun i => { i with count := n }).unitsIn mgr item done = 0 := by
    refine unitsIn_zero fun q hq => ?_
    rw [(hcut q).2.1 (hdisj q hq p List.mem_cons_self)]
    exact hc.unitsAt_passed hq
  have hrest : ∀ q ∈ rest ++ ownRange bankSlotBagStart bankSlotBagEnd,
      (h'.modify r fun i => { i with count := n }).unitsAt mgr item q =
        h.unitsAt mgr item q := by
    intro q hq
    have hqp : q ≠ p := fun hqp => (List.nodup_cons.1 hrestNodup).1 (hqp ▸ hq)
    rw [(hcut q).2.1 hqp]
    have hall' : positions =
        done ++ ((p :: rest) ++ ownRange bankSlotBagStart bankSlotBagEnd) := hall
    exact unitsAt_rest hall' hc (List.mem_cons_of_mem _ hq)
  rw [hall, unitsIn_append, unitsIn_append (h := h), unitsIn_cons, unitsIn_cons, hdone,
    unitsIn_congr hrest, (hcut p).2.2 he]
  omega

/-- Where the total has left 32 bits, all it came from is gone. -/
theorem unitsIn_wrapped (hps : searched = done ++ p :: rest)
    (hle : ∀ q, h'.unitsAt mgr item q ≤ h.unitsAt mgr item q)
    (hzero : ∀ q ∈ done ++ [p], h'.unitsAt mgr item q = 0) :
    h'.unitsIn mgr item positions + (h.unitsIn mgr item done + h.unitsAt mgr item p) ≤
      h.unitsIn mgr item positions := by
  have hall : positions =
      (done ++ [p]) ++ (rest ++ ownRange bankSlotBagStart bankSlotBagEnd) := by
    rw [List.append_assoc, List.singleton_append, ← List.cons_append, ← List.append_assoc, ← hps]
    rfl
  have hrest := unitsIn_le mgr item
    (rest ++ ownRange bankSlotBagStart bankSlotBagEnd) fun q _ => hle q
  rw [hall, unitsIn_append, unitsIn_append (h := h), unitsIn_zero hzero, unitsIn_append (h := h),
    unitsIn_cons, unitsIn_nil]
  omega

/-! ## The others -/

/-- Items of other entries are lost from the bags that are destroyed, and from
nowhere else. -/
theorem others_iff (hc : Cleared mgr h (h.stacksAt mgr item done) h') :
    (∀ r, (h.objects.item r).entry ≠ item →
      SameStack (h.objects.item r) (h'.objects.item r) ∧ h'.removed r = h.removed r ∧
        ∀ pos, h'.itemAt mgr pos = some r ↔ h.itemAt mgr pos = some r) ↔
    ∀ p ∈ h.stacksAt mgr item done, ∀ q r, Hides p q → h.itemAt mgr q = some r →
      (h.objects.item r).entry = item := by
  constructor
  · intro hothers p hp q r hpq hr
    by_contra hne
    have hr' := ((hothers r hne).2.2 q).2 hr
    rw [hc.lost hp hpq] at hr'
    cases hr'
  · intro hclean r hne
    refine ⟨hc.same r, hc.removed fun p hp hr => ?_, fun pos => ⟨hc.fewer, fun hr => ?_⟩⟩
    · exact hne (hclean p hp p r (.inl rfl) hr)
    · rw [hc.kept fun p hp hpq => hne (hclean p hp pos r hpq hr)]
      exact hr

/-- The stack that is cut is of the entry: for the others nothing changes. -/
theorem others_cut_iff (hk : h'.WellKept mgr) (hr : h'.itemAt mgr p = some r)
    (he : (h.objects.item r).entry = item) (n : Nat) :
    (∀ r', (h.objects.item r').entry ≠ item →
      SameStack (h.objects.item r')
          ((h'.modify r fun i => { i with count := n }).objects.item r') ∧
        (h'.modify r fun i => { i with count := n }).removed r' = h.removed r' ∧
        ∀ pos, (h'.modify r fun i => { i with count := n }).itemAt mgr pos = some r' ↔
          h.itemAt mgr pos = some r') ↔
    ∀ r', (h.objects.item r').entry ≠ item →
      SameStack (h.objects.item r') (h'.objects.item r') ∧ h'.removed r' = h.removed r' ∧
        ∀ pos, h'.itemAt mgr pos = some r' ↔ h.itemAt mgr pos = some r' := by
  refine forall_congr' fun r' => ?_
  by_cases hne : (h.objects.item r').entry = item
  · exact iff_of_true (fun h => absurd hne h) (fun h => absurd hne h)
  · have hrr : r' ≠ r := fun hrr => hne (hrr ▸ he)
    have hitem : (h'.modify r fun i => { i with count := n }).objects.item r' =
        h'.objects.item r' := by
      unfold Holdings.modify
      dsimp only
      rw [modify_item, if_neg hrr]
    have hat : ∀ pos, (h'.modify r fun i => { i with count := n }).itemAt mgr pos =
        h'.itemAt mgr pos := fun pos => (unitsAt_cut item hk hr n pos).1
    simp only [hitem, hat]
    exact Iff.rfl

/-- The bags among the stacks that are gone are the worn ones. -/
theorem clean_iff_worn (hps : searched = done ++ rest)
    (hreached : ∀ p ∈ searched, 0 < h.unitsAt mgr item p →
      (h.unitsBefore mgr item p + h.unitsAt mgr item p ≤ count ↔ p ∈ done)) :
    (∀ p ∈ h.stacksAt mgr item done, ∀ q r, Hides p q → h.itemAt mgr q = some r →
      (h.objects.item r).entry = item) ↔
    ∀ slot, inventorySlotBagStart ≤ slot → slot < inventorySlotBagEnd →
      0 < h.unitsAt mgr item ⟨inventorySlotBag0, slot⟩ →
      h.unitsBefore mgr item ⟨inventorySlotBag0, slot⟩ +
        h.unitsAt mgr item ⟨inventorySlotBag0, slot⟩ ≤ count →
      ∀ j r, h.itemAt mgr ⟨slot, j⟩ = some r → (h.objects.item r).entry = item := by
  have hsearched : ∀ slot, slot < inventorySlotBagEnd →
      (⟨inventorySlotBag0, slot⟩ : Pos) ∈ searched := by
    intro slot hslot
    unfold searched searchedThen
    simp [hslot]
  constructor
  · intro hclean slot hfirst hlast hpos hle j r hr
    have hdone := (hreached _ (hsearched slot hlast) hpos).1 hle
    refine hclean _ (mem_stacksAt.2 ⟨hdone, hpos⟩) ⟨slot, j⟩ r (.inr ?_) hr
    rw [rootSlot_inBag]
    unfold inventorySlotBag0
    unfold inventorySlotBagEnd at hlast
    show slot ≠ 255
    omega
  · intro hworn p hp q r hpq hr
    obtain ⟨hdone, hpos⟩ := mem_stacksAt.1 hp
    rcases hides_iff.1 hpq with ⟨hbag, hslot⟩ | ⟨hown, hqbag, hq⟩
    · have hqp : q = p := by
        cases q
        cases p
        simp only at hbag hslot
        rw [hbag, hslot]
      subst hqp
      obtain ⟨r', hr', he, -⟩ := exists_stack hpos
      rw [hr] at hr'
      cases hr'
      exact he
    · -- only under a bag slot is there anything, and the bank bags are not searched
      have hmem : p ∈ searched := hps ▸ List.mem_append_left _ hdone
      have hbagSlot : isBagSlot q.bag := by
        obtain ⟨-, -, hbagSlot, -⟩ := bagAt_of_itemAt hqbag hr
        exact hbagSlot
      have hslots : inventorySlotBagStart ≤ p.slot ∧ p.slot < inventorySlotBagEnd := by
        rw [hq] at hbagSlot
        unfold searched searchedFirst searchedThen at hmem
        simp only [List.mem_append, mem_ownRange, mem_bagRange] at hmem
        simp only [isBagSlot, Bool.or_eq_true, Bool.and_eq_true, decide_eq_true_eq] at hbagSlot
        unfold inventorySlotItemStart inventorySlotItemEnd keyringSlotStart keyringSlotEnd
          inventorySlotBagStart inventorySlotBagEnd bankSlotItemStart bankSlotItemEnd
          bankSlotBagStart bankSlotBagEnd inventorySlotBag0 maxBagSize at *
        omega
      rw [eq_own hown] at hdone hpos
      have hle := (hreached _ (hsearched p.slot hslots.2) hpos).2 hdone
      refine hworn p.slot hslots.1 hslots.2 hpos hle q.slot r ?_
      rw [← hq]
      exact hr

/-! ## The whole run -/

theorem found_iff_min (a b : Nat) :
    min count b = min count a ↔ (count ≤ a ∧ count ≤ b) ∨ a = b := by
  omega

theorem destroyable_of_whole (hk : h.WellKept mgr) (hps : searched = done ++ rest)
    (hc : Cleared mgr h (h.stacksAt mgr item done) h') (hle : h.unitsIn mgr item done ≤ count)
    (hend : rest = [] ∨ h.unitsIn mgr item done = count) :
    h.DestroyedRightly mgr h' item count ↔ h.Destroyable mgr item count := by
  have hreached : ∀ p ∈ searched, 0 < h.unitsAt mgr item p →
      (h.unitsBefore mgr item p + h.unitsAt mgr item p ≤ count ↔ p ∈ done) := by
    intro p hp hpos
    constructor
    · intro hfits
      by_contra hnot
      have hbefore := le_unitsIn_before mgr item h hps hnot
      unfold unitsBefore at hfits
      rcases hend with hnil | hcount
      · rw [hps, hnil, List.append_nil] at hp
        exact hnot hp
      · omega
    · intro hmem
      have := unitsIn_before_le mgr item h hps nodup_searched hmem
      unfold unitsBefore
      omega
  have htotal := unitsIn_positions hps hc
  have hsum : h.unitsIn mgr item searched =
      h.unitsIn mgr item done + h.unitsIn mgr item rest := by
    rw [hps, unitsIn_append]
  have hdone : h.unitsIn mgr item done = min count (h.unitsIn mgr item searched) := by
    rcases hend with hnil | hcount
    · rw [hnil, unitsIn_nil] at hsum
      omega
    · omega
  constructor
  · intro hright
    refine ⟨(found_iff_min _ _).1 ?_, ?_, ?_⟩
    · have := hright.units
      omega
    · intro p hp hlt hmore
      by_cases hmem : p ∈ done
      · have := unitsIn_before_le mgr item h hps nodup_searched hmem
        unfold unitsBefore at hmore
        omega
      · have hbefore := le_unitsIn_before mgr item h hps hmem
        unfold unitsBefore at hlt
        rcases hend with hnil | hcount
        · rw [hps, hnil, List.append_nil] at hp
          exact absurd hp hmem
        · omega
    · exact (clean_iff_worn hps hreached).1 ((others_iff hc).1 hright.others)
  · intro hable
    refine ⟨?_, (others_iff hc).2 ((clean_iff_worn hps hreached).2 hable.worn), ?_⟩
    · have := (found_iff_min _ _).2 hable.found
      omega
    · intro pos r hr
      exact ((hc.wellKept hk).counted hr).1

theorem destroyable_of_cut (hk : h.WellKept mgr) (hps : searched = done ++ p :: rest)
    (hc : Cleared mgr h (h.stacksAt mgr item done) h') (hle : h.unitsIn mgr item done ≤ count)
    (hr : h'.itemAt mgr p = some r) (hpos : 0 < h.unitsAt mgr item p)
    (hmore : count < (h.unitsIn mgr item done + h.unitsAt mgr item p) % pow32) :
    h.DestroyedRightly mgr (h'.modify r fun i =>
        { i with count := h.unitsIn mgr item done + h.unitsAt mgr item p - count }) item count ↔
      h.Destroyable mgr item count := by
  have hexceeds : count < h.unitsIn mgr item done + h.unitsAt mgr item p :=
    Nat.lt_of_lt_of_le hmore (Nat.mod_le _ _)
  have hbefore := unitsBefore_eq mgr h item hps
  -- behind the stack that is cut the total is past the count
  have hbehind : ∀ q, q ∉ done → q ≠ p → count < h.unitsBefore mgr item q := by
    intro q hq hqp
    have hps' : searched = (done ++ [p]) ++ rest := by simp [hps]
    have := le_unitsIn_before mgr item h hps' (p := q)
      (by simp [hq, hqp])
    simp only [unitsIn_append, unitsIn_cons, unitsIn_nil] at this
    unfold unitsBefore
    omega
  have hbound : ∀ q ∈ done, h.unitsBefore mgr item q + h.unitsAt mgr item q ≤ count := by
    intro q hq
    have := unitsIn_before_le mgr item h hps nodup_searched hq
    unfold unitsBefore
    omega
  have hreached : ∀ q ∈ searched, 0 < h.unitsAt mgr item q →
      (h.unitsBefore mgr item q + h.unitsAt mgr item q ≤ count ↔ q ∈ done) := by
    intro q hq _
    refine ⟨fun hfits => ?_, hbound q⟩
    by_contra hnot
    by_cases hqp : q = p
    · subst hqp
      omega
    · have := hbehind q hnot hqp
      omega
  obtain ⟨r', hr', he, -⟩ := exists_stack hpos
  have hrr : r' = r := Option.some.inj (hr'.symm.trans (hc.fewer hr))
  subst hrr
  have htotal := unitsIn_cut hk hps hc hr ((hc.same r').entry.trans he)
    (n := h.unitsIn mgr item done + h.unitsAt mgr item p - count) (by omega)
  have hsum : h.unitsIn mgr item searched =
      h.unitsIn mgr item done + (h.unitsAt mgr item p + h.unitsIn mgr item rest) := by
    rw [hps, unitsIn_append, unitsIn_cons]
  have hothers := others_cut_iff (hc.wellKept hk) hr he
    (h.unitsIn mgr item done + h.unitsAt mgr item p - count)
  constructor
  · intro hright
    refine ⟨(found_iff_min _ _).1 ?_, ?_, ?_⟩
    · have := hright.units
      omega
    · intro q hq hlt hmore'
      by_cases hmem : q ∈ done
      · have := hbound q hmem
        omega
      · by_cases hqp : q = p
        · subst hqp
          rw [hbefore]
          exact hmore
        · have := hbehind q hmem hqp
          omega
    · exact (clean_iff_worn hps hreached).1 ((others_iff hc).1 (hothers.1 hright.others))
  · intro hable
    refine ⟨?_, hothers.2 ((others_iff hc).2 ((clean_iff_worn hps hreached).2 hable.worn)), ?_⟩
    · have := (found_iff_min _ _).2 hable.found
      omega
    · intro pos r hr₁
      rw [(unitsAt_cut item (hc.wellKept hk) hr _ pos).1] at hr₁
      unfold Holdings.modify
      dsimp only
      rw [modify_item]
      split
      · show 0 < h.unitsIn mgr item done + h.unitsAt mgr item p - count
        omega
      · exact ((hc.wellKept hk).counted hr₁).1

/-- On a well kept inventory `DestroyItemCount` destroys the units it is asked for, and
nothing else, exactly when the inventory lets it. -/
theorem destroyItemCount_right_iff (hk : h.WellKept mgr) (item count depth : Nat)
    (hcount : count < pow32) (canUnequipItem : Holdings → Pos → InventoryResult) :
    h.DestroyedRightly mgr
        (h.destroyItemCount mgr (depth + 1) canUnequipItem item count false true) item count ↔
      h.Destroyable mgr item count := by
  rw [Destroying.destroyItemCount_eq hcount hk canUnequipItem]
  have hstart : Destroying.Underway mgr item count h [] ⟨h, 0⟩ :=
    ⟨Cleared.none mgr h, rfl, Nat.zero_le _, id⟩
  have hpair : ([] ++ searched).Pairwise fun p q => ¬ Hides p q :=
    (List.pairwise_append.1 pairwise_positions).1
  have hdrawn := Destroying.drawn_of_underway depth hk hcount searched [] _ hpair hstart
  rw [List.nil_append] at hdrawn
  generalize Destroying.outcome _ = h' at hdrawn ⊢
  cases hdrawn with
  | whole hps hc hle hend => exact destroyable_of_whole hk hps hc hle hend
  | cut hps hc hle hr hpos hmore => exact destroyable_of_cut hk hps hc hle hr hpos hmore
  | @wrapped done rest p _ hps hlt hmore hwrap hbig hle hzero =>
      refine iff_of_false (fun hright => ?_) (fun hable => ?_)
      · have hunits := hright.units
        have htotal := unitsIn_wrapped hps hle hzero
        omega
      · have hbefore := unitsBefore_eq mgr h item hps
        have hmem : p ∈ searched := by
          rw [hps]
          exact List.mem_append_right _ List.mem_cons_self
        have := hable.fits p hmem (hbefore ▸ hlt) (hbefore ▸ hmore)
        rw [hbefore] at this
        omega

/-! ## A stack of five -/

def plainProto (entry : Nat) : ItemTemplate where
  itemId := entry
  itemClass := .other
  subClass := 0
  inventoryType := .nonEquip
  bagFamily := 0
  maxCount := 0
  stackable := 20
  containerSlots := 0
  bonding := .noBind
  uniqueEquipped := false
  gemProperties := 0
  socketColor := 0
  maxCount_lt := by decide
  stackable_lt := by decide
  containerSlots_le := by decide

def plainMgr : ObjectMgr := ⟨plainProto, fun _ => true, fun _ => rfl⟩

/-- Five units in the first slot of the backpack. -/
def fiveUnits (inTrade : Bool) : Holdings where
  objects :=
    ⟨fun _ =>
      { entry := 7, count := 5, bagslot := fun _ => none, slot := 23, container := none
        owner := 1, soulBound := false, lootGenerated := false, inTrade := inTrade
        gemIds := [] }, 1⟩
  player := ⟨1, fun slot => if slot = 23 then some 0 else none⟩
  removed := fun _ => false

theorem itemAt_fiveUnits {inTrade : Bool} {pos : Pos} {r : ItemRef}
    (hr : (fiveUnits inTrade).itemAt plainMgr pos = some r) :
    pos = ⟨inventorySlotBag0, 23⟩ := by
  have hown : ∀ slot r, (fiveUnits inTrade).player.getOwnItem slot = some r → slot = 23 := by
    intro slot r hslot
    unfold Player.getOwnItem fiveUnits at hslot
    dsimp only at hslot
    split at hslot
    · split at hslot
      · assumption
      · cases hslot
    · cases hslot
  by_cases hpos : pos.bag = inventorySlotBag0
  · rw [eq_own hpos] at hr ⊢
    rw [hown _ _ hr]
  · obtain ⟨pBag, hbag, hbagSlot, -⟩ := bagAt_of_itemAt hpos hr
    rw [hown _ _ hbag] at hbagSlot
    exact absurd hbagSlot (by decide)

theorem wellKept_fiveUnits (inTrade : Bool) : (fiveUnits inTrade).WellKept plainMgr where
  apart hr hr' := (itemAt_fiveUnits hr).trans (itemAt_fiveUnits hr').symm
  own hr := by
    have hpos := itemAt_fiveUnits hr
    rw [Pos.mk.injEq] at hpos
    exact hpos.2.symm
  inBag hpos hr := by
    rw [itemAt_fiveUnits hr] at hpos
    exact absurd rfl hpos
  counted _ := ⟨show 0 < 5 by decide, show 5 < pow32 by decide⟩

/-- Three of five units: the inventory lets it. -/
theorem destroyItemCount_right_iff_five :
    (fiveUnits false).DestroyedRightly plainMgr
        ((fiveUnits false).destroyItemCount plainMgr 1 (fun _ _ => .ok) 7 3 false true) 7 3 ↔
      (fiveUnits false).Destroyable plainMgr 7 3 :=
  destroyItemCount_right_iff (wellKept_fiveUnits false) 7 3 0 (by decide) fun _ _ => .ok

/-- The five units are in trade, and three of them are destroyed. -/
theorem destroys_what_is_in_trade :
    (fiveUnits true).WellKept plainMgr ∧
      ¬ (fiveUnits true).DestroyedRightly plainMgr
        ((fiveUnits true).destroyItemCount plainMgr 1 (fun _ _ => .ok) 7 3 false true) 7 3 := by
  refine ⟨wellKept_fiveUnits true, fun hright => ?_⟩
  have hbefore : (fiveUnits true).unitsIn plainMgr 7 positions = 5 := by decide +kernel
  have hafter : ((fiveUnits true).destroyItemCount plainMgr 1 (fun _ _ => .ok) 7 3 false
      true).unitsIn plainMgr 7 positions = 2 := by decide +kernel
  have hfree : (fiveUnits true).freeUnitsIn plainMgr 7 positions = 0 := by decide +kernel
  have hunits := hright.units
  rw [hbefore, hafter, hfree] at hunits
  cases hunits

end Holdings

end Sunstrider.Inventory
