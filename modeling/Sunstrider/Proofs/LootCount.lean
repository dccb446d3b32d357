import Sunstrider.Proofs.LootActs

/-!
# The counter counts the claims

`Recorded` relates a loot to its claims: the counter is their number, and each
claim shows in the flags of an item or of a player's own entry. There is one
lemma for each of the nine acts: filling adds to both sides what
`Sunstrider.Proofs.LootActs` computed, taking removes one claim that `Act.Ok`
says is there. `runOps_recorded` follows by induction over the acts of a call
and the calls of a run.

What `Act.Ok` asks is not always so. `LootItemInSlot` asks a player's own entry
whether a conditional item or a quest item is gone, not the item; so two
players with an entry can both take an item that was counted once.
-/

set_option linter.unusedSectionVars false

namespace Sunstrider.Looting

variable {P : Type} [DecidableEq P] {M : Type} [DecidableEq M]

variable {l l' : Loot P} {c : Multiset (Claim P)} {item : LootItem P} {i : Nat} {p : P}
  {is : List Nat} {map : NotNormalLootItemMap P} {x : Claim P} {f : LootItem P → LootItem P}

variable {item' : LootItem P} {items items' added : List (LootItem P)} {new : List (Claim P)}
  {p' : P} {n j slot : Nat} {env : LootEnv P}

namespace Loot

/-- Somebody may still take an item that is for one player: it is not taken,
and if it has conditions somebody met them. -/
def openItem (item : LootItem P) : Bool :=
  !item.freeforall && !item.isLooted && (item.conditions.isEmpty || item.isCounted)

/-- A player's own entries. -/
def entries (map : NotNormalLootItemMap P) (p : P) : List NotNormalLootItem :=
  (map.lookup p).getD []

/-- The shared claims on the item at a position. -/
def sharedAt (l : Loot P) (i : Nat) : Nat :=
  match l.items[i]? with
  | none => 0
  | some item => if openItem item then 1 else 0

/-- A player's own claims on a quest item: the entries not taken, if it is for
everybody. -/
def ownQuestAt (l : Loot P) (p : P) (i : Nat) : Nat :=
  match l.questItems[i]? with
  | none => 0
  | some item =>
      if item.freeforall then (entries l.playerQuestItems p).count (newEntry i) else 0

end Loot

open Loot

/-- The claims are those the loot shows, and the counter is their number. -/
structure Recorded (l : Loot P) (c : Multiset (Claim P)) : Prop where
  counter : l.unlootedCount = c.card
  bound : c.card ≤ 255
  shared : ∀ i, c.count (.shared false i) = l.sharedAt i
  own : ∀ p i, c.count (.own false p i) = (entries l.playerFFAItems p).count (newEntry i)
  ownQuest : ∀ p i, c.count (.own true p i) = l.ownQuestAt p i
  sharedQuest : ∀ i, 0 < c.count (.shared true i) →
    ∃ item, l.questItems[i]? = some item ∧ item.freeforall = false
  inRange : ∀ p, ∀ e ∈ entries l.playerQuestItems p, e.index < l.questItems.length
  room : l.items.length ≤ maxNrLootItems

theorem empty_recorded (gold : Nat) : Recorded (Loot.empty gold : Loot P) 0 := by
  refine ⟨rfl, by simp, ?_, ?_, ?_, ?_, ?_, by simp [Loot.empty]⟩
  · intro i
    simp [sharedAt, Loot.empty]
  · intro p i
    simp [entries, Loot.empty]
  · intro p i
    simp [ownQuestAt, Loot.empty]
  · intro i h
    simp at h
  · intro p e he
    simp [entries, Loot.empty] at he

/-- The corpse is done with exactly when gold and claims are gone. -/
theorem isLooted_iff (h : Recorded l c) : l.isLooted = true ↔ l.gold = 0 ∧ c = 0 := by
  rw [isLooted, Bool.and_eq_true, decide_eq_true_eq, decide_eq_true_eq, h.counter,
    Multiset.card_eq_zero]

/-! ## Acts that count nothing -/

/-- What of an item the claims depend on. -/
def claimView (item : LootItem P) : Bool × Bool × Bool × List Nat :=
  (item.freeforall, item.isLooted, item.isCounted, item.conditions)

theorem openItem_of_view (h : claimView item' = claimView item) :
    openItem item' = openItem item := by
  simp only [claimView, Prod.mk.injEq] at h
  simp only [openItem, h]

theorem freeforall_of_view (h : claimView item' = claimView item) :
    item'.freeforall = item.freeforall := congrArg Prod.fst h

theorem getElem?_of_map_view (h : items'.map claimView = items.map claimView) (i : Nat) :
    items'[i]?.map claimView = items[i]?.map claimView := by
  rw [← List.getElem?_map, h, List.getElem?_map]

theorem sharedAt_congr (h : l'.items.map claimView = l.items.map claimView) (i : Nat) :
    l'.sharedAt i = l.sharedAt i := by
  have hi := getElem?_of_map_view h i
  unfold sharedAt
  cases h' : l'.items[i]? with
  | none =>
      rw [h'] at hi
      cases h'' : l.items[i]? with
      | none => rfl
      | some item => simp [h''] at hi
  | some item' =>
      rw [h'] at hi
      cases h'' : l.items[i]? with
      | none => simp [h''] at hi
      | some item =>
          rw [h''] at hi
          simp only [openItem_of_view (Option.some.inj hi)]

theorem item_of_view (h : items'.map claimView = items.map claimView) (hi : items[i]? = some item) :
    ∃ item', items'[i]? = some item' ∧ item'.freeforall = item.freeforall := by
  have hv := getElem?_of_map_view h i
  cases h' : items'[i]? with
  | none => simp [hi, h'] at hv
  | some item' =>
      rw [h', hi] at hv
      exact ⟨item', rfl, freeforall_of_view (Option.some.inj hv)⟩

theorem ownQuestAt_congr (h : l'.questItems.map claimView = l.questItems.map claimView)
    (hp : entries l'.playerQuestItems p = entries l.playerQuestItems p) (i : Nat) :
    l'.ownQuestAt p i = l.ownQuestAt p i := by
  unfold ownQuestAt
  cases hi : l.questItems[i]? with
  | none =>
      have hlen := congrArg List.length h
      simp only [List.length_map] at hlen
      have hnone : l'.questItems[i]? = none :=
        List.getElem?_eq_none (by rw [hlen]; exact List.getElem?_eq_none_iff.1 hi)
      rw [hnone]
  | some item =>
      obtain ⟨item', hi', hf⟩ := item_of_view h hi
      simp only [hi', hf, hp]

/-- Anything that keeps the counter, the views and the lists keeps `Recorded`. -/
theorem recorded_of_view (h : Recorded l c) (hcount : l'.unlootedCount = l.unlootedCount)
    (hitems : l'.items.map claimView = l.items.map claimView)
    (hquest : l'.questItems.map claimView = l.questItems.map claimView)
    (hffa : l'.playerFFAItems = l.playerFFAItems)
    (hlists : l'.playerQuestItems = l.playerQuestItems) : Recorded l' c := by
  have hlen := congrArg List.length hquest
  have hroom := congrArg List.length hitems
  simp only [List.length_map] at hlen hroom
  refine ⟨by rw [hcount, h.counter], h.bound, ?_, ?_, ?_, ?_, ?_, hroom ▸ h.room⟩
  · intro i
    rw [h.shared, sharedAt_congr hitems]
  · intro p i
    rw [h.own, hffa]
  · intro p i
    rw [h.ownQuest, ownQuestAt_congr hquest (by rw [hlists])]
  · intro i hi
    obtain ⟨item, hitem, hf⟩ := h.sharedQuest i hi
    obtain ⟨item', hitem', hf'⟩ := item_of_view hquest hitem
    exact ⟨item', hitem', hf'.trans hf⟩
  · intro p e he
    rw [hlists] at he
    rw [hlen]
    exact h.inRange p e he

theorem map_view_modify (f : LootItem P → LootItem P)
    (hf : ∀ item, claimView (f item) = claimView item) (items : List (LootItem P)) (i : Nat) :
    (items.modify i f).map claimView = items.map claimView := by
  apply List.ext_getElem?
  intro j
  rw [List.getElem?_map, List.getElem?_map, List.getElem?_modify]
  split
  · cases items[j]? with
    | none => rfl
    | some item => simp [hf]
  · simp

theorem map_view_map (f : LootItem P → LootItem P)
    (hf : ∀ item, claimView (f item) = claimView item) (items : List (LootItem P)) :
    (items.map f).map claimView = items.map claimView := by
  rw [List.map_map]
  exact List.map_congr_left fun item _ => hf item

theorem modifyAt_recorded (h : Recorded l c) (slot : Nat) (f : LootItem P → LootItem P)
    (hf : ∀ item, claimView (f item) = claimView item) : Recorded (l.modifyAt slot f) c := by
  unfold modifyAt
  split
  · exact recorded_of_view h rfl rfl (map_view_modify f hf _ _) rfl rfl
  · exact recorded_of_view h rfl (map_view_modify f hf _ _) rfl rfl rfl

/-- Marks count nothing and take nothing. -/
theorem mark_recorded (h : Recorded l c) (m : Mark P) : Recorded (m.apply l) c := by
  cases m with
  | roundRobin p => exact recorded_of_view h rfl rfl rfl rfl rfl
  | underthreshold env threshold =>
      refine recorded_of_view h rfl (map_view_map _ ?_ _) rfl rfl rfl
      intro item
      split
      · rfl
      · split <;> rfl
  | masterLoot =>
      refine recorded_of_view h rfl (map_view_map _ ?_ _) (map_view_map _ ?_ _) rfl rfl
      · intro item
        split <;> rfl
      · intro item
        split <;> rfl
  | block slot => exact modifyAt_recorded h slot _ fun _ => rfl
  | unblock slot => exact modifyAt_recorded h slot _ fun _ => rfl
  | keepFor w slot => exact modifyAt_recorded h slot _ fun _ => rfl

theorem money_recorded (h : Recorded l c) :
    Recorded l.lootMoney c := recorded_of_view h rfl rfl rfl rfl rfl

/-! ## Filling -/

/-- A fill that counts `new`, and shows it. -/
theorem recorded_fill (h : Recorded l c) (hbound : (c + (new : Multiset (Claim P))).card ≤ 255)
    (hcount : l'.unlootedCount = (l.unlootedCount + new.length) % 256)
    (hshared : ∀ i, l'.sharedAt i = l.sharedAt i + new.count (.shared false i))
    (hown : ∀ p i, (entries l'.playerFFAItems p).count (newEntry i) =
      (entries l.playerFFAItems p).count (newEntry i) + new.count (.own false p i))
    (hquest : ∀ p i, l'.ownQuestAt p i = l.ownQuestAt p i + new.count (.own true p i))
    (hsq : ∀ i, 0 < c.count (.shared true i) + new.count (.shared true i) → ∃ item,
      l'.questItems[i]? = some item ∧ item.freeforall = false)
    (hrange : ∀ p, ∀ e ∈ entries l'.playerQuestItems p, e.index < l'.questItems.length)
    (hroom : l'.items.length ≤ maxNrLootItems) : Recorded l' (c + (new : Multiset (Claim P))) := by
  have hcard : (c + (new : Multiset (Claim P))).card = c.card + new.length := by
    rw [Multiset.card_add, Multiset.coe_card]
  refine ⟨?_, hbound, ?_, ?_, ?_, ?_, hrange, hroom⟩
  · rw [hcount, h.counter, hcard, Nat.mod_eq_of_lt (by omega)]
  · intro i
    rw [Multiset.count_add, Multiset.coe_count, h.shared, hshared]
  · intro p i
    rw [Multiset.count_add, Multiset.coe_count, h.own, hown]
  · intro p i
    rw [Multiset.count_add, Multiset.coe_count, h.ownQuest, hquest]
  · intro i hi
    rw [Multiset.count_add, Multiset.coe_count] at hi
    exact hsq i hi

theorem count_eq_zero_of_ne {α β : Type} [DecidableEq β] {f : α → β} {b : β}
    (h : ∀ a, f a ≠ b) (is : List α) : (is.map f).count b = 0 := by
  rw [List.count_eq_zero]
  intro hb
  obtain ⟨a, _, ha⟩ := List.mem_map.1 hb
  exact h a ha

theorem count_map_shared (hn : is.Nodup) (quest : Bool) (i : Nat) :
    (is.map (Claim.shared quest)).count (Claim.shared quest i : Claim P) =
      if i ∈ is then 1 else 0 := by
  rw [List.count_map_of_injective _ _ (fun a b h => by cases h; rfl), hn.count]

theorem count_map_own (hn : is.Nodup) (quest : Bool) (p : P) (i : Nat) :
    (is.map (Claim.own quest p)).count (Claim.own quest p i) = if i ∈ is then 1 else 0 := by
  rw [List.count_map_of_injective _ _ (fun a b h => by cases h; rfl), hn.count]

theorem count_map_newEntry (hn : is.Nodup) (i : Nat) :
    (is.map newEntry).count (newEntry i) = if i ∈ is then 1 else 0 := by
  rw [List.count_map_of_injective _ _ (fun a b h => by cases h; rfl), hn.count]

theorem entries_insert_self (map : NotNormalLootItemMap P) (p : P)
    (ql : List NotNormalLootItem) : entries (map.insert p ql) p = ql := by
  simp [entries]

theorem entries_insert_ne (map : NotNormalLootItemMap P) (h : p' ≠ p)
    (ql : List NotNormalLootItem) : entries (map.insert p ql) p' = entries map p' := by
  rw [entries, AList.lookup_insert_ne h, entries]

theorem entries_of_none (h : map.lookup p = none) : entries map p = [] := by
  simp [entries, h]

/-! ### `AddItem` -/

theorem filter_range_added {k : Nat} :
    (List.range (n + k)).filter (fun i => decide (n ≤ i)) = (List.range k).map (n + ·) := by
  rw [List.range_add, List.filter_append, List.filter_eq_nil_iff.2, List.nil_append,
    List.filter_eq_self]
  · intro i hi
    obtain ⟨j, _, rfl⟩ := List.mem_map.1 hi
    simp
  · intro i hi
    have := List.mem_range.1 hi
    simp
    omega

/-- The claims of an `AddItem` that added `added` to the items. -/
theorem addClaims_of_append {store : LootStoreItem} {count : Nat}
    (h : (l.addItem env store count).items = l.items ++ added) (b : Bool)
    (hb : ∀ item ∈ added, ordinary item = b) :
    l.addClaims env store count =
      if b then ((List.range added.length).map (l.items.length + ·)).map (Claim.shared false)
      else [] := by
  rw [addClaims, addedSlots, h, List.length_append, filter_range_added]
  have hord : ∀ i ∈ (List.range added.length).map (l.items.length + ·),
      ((l.items ++ added)[i]?.map ordinary).getD false = b := by
    intro i hi
    obtain ⟨j, hj, rfl⟩ := List.mem_map.1 hi
    have hlt : j < added.length := List.mem_range.1 hj
    rw [List.getElem?_append_right (by omega), Nat.add_sub_cancel_left,
      List.getElem?_eq_getElem hlt]
    exact hb _ (List.getElem_mem hlt)
  cases b
  · rw [List.filter_eq_nil_iff.2 (fun i hi => by rw [hord i hi]; simp)]
    rfl
  · rw [List.filter_eq_self.2 hord]
    rfl

theorem lt_of_recorded (h : Recorded l c) : l.unlootedCount < 256 := by
  have hb := h.bound
  rw [h.counter]
  omega

theorem appendQuest_recorded (h : Recorded l c) (added : List (LootItem P)) :
    Recorded { l with questItems := l.questItems ++ added } c := by
  refine ⟨h.counter, h.bound, h.shared, h.own, ?_, ?_, ?_, h.room⟩
  · intro p i
    rw [h.ownQuest]
    unfold ownQuestAt
    rcases Nat.lt_or_ge i l.questItems.length with hi | hi
    · rw [List.getElem?_append_left hi]
    · -- no list has an entry for a position that was not there
      have hzero : (entries l.playerQuestItems p).count (newEntry i) = 0 := by
        rw [List.count_eq_zero]
        intro he
        have hlt : i < l.questItems.length := h.inRange p _ he
        omega
      rw [List.getElem?_eq_none hi, List.getElem?_append_right hi]
      cases added[i - l.questItems.length]? with
      | none => rfl
      | some item => simp [hzero]
  · intro i hi
    obtain ⟨item, hitem, hf⟩ := h.sharedQuest i hi
    refine ⟨item, ?_, hf⟩
    have hlt := (List.getElem?_eq_some_iff.1 hitem).1
    rw [List.getElem?_append_left hlt]
    exact hitem
  · intro p e he
    have hlt := h.inRange p e he
    simp only [List.length_append]
    omega

/-- The claims on items that were appended. -/
def appendClaims (n k : Nat) (b : Bool) : List (Claim P) :=
  if b then ((List.range k).map (n + ·)).map (Claim.shared false) else []

theorem count_appendClaims (n k : Nat) (b : Bool) (i : Nat) :
    (appendClaims n k b : List (Claim P)).count (.shared false i) =
      if n ≤ i ∧ i < n + k ∧ b = true then 1 else 0 := by
  rw [appendClaims]
  cases b with
  | false => simp
  | true =>
      have hnodup : ((List.range k).map (n + ·)).Nodup :=
        List.nodup_range.map fun a b h => Nat.add_left_cancel h
      rw [if_pos rfl, count_map_shared hnodup]
      refine if_congr ?_ rfl rfl
      simp only [List.mem_map, List.mem_range]
      refine ⟨fun ⟨j, hj, hij⟩ => ⟨by omega, by omega, trivial⟩, fun ⟨h1, h2, _⟩ => ?_⟩
      exact ⟨i - n, by omega, by omega⟩

theorem count_appendClaims_of_ne (hx : ∀ i, Claim.shared false i ≠ x) (n k : Nat) (b : Bool) :
    (appendClaims n k b : List (Claim P)).count x = 0 := by
  rw [appendClaims]
  cases b with
  | false => rfl
  | true => exact count_eq_zero_of_ne hx _

theorem appendItems_recorded (h : Recorded l c) {b : Bool}
    (hadded : ∀ item ∈ added, ordinary item = b ∧ item.isLooted = false ∧ item.isCounted = false)
    (hlen : (l.items ++ added).length ≤ maxNrLootItems)
    (hnew : new = appendClaims l.items.length added.length b)
    (hok : (c + (new : Multiset (Claim P))).card ≤ 255) :
    Recorded { l with
        items := l.items ++ added
        unlootedCount := (l.unlootedCount + if b then added.length else 0) % 256 }
      (c + (new : Multiset (Claim P))) := by
  subst hnew
  refine recorded_fill h hok ?_ ?_ ?_ ?_ ?_ h.inRange hlen
  · cases b <;> simp [appendClaims]
  · intro i
    rw [count_appendClaims]
    unfold sharedAt
    rcases Nat.lt_or_ge i l.items.length with hi | hi
    · rw [List.getElem?_append_left hi, if_neg (by omega)]
      rfl
    · rw [List.getElem?_eq_none hi, List.getElem?_append_right hi]
      rcases Nat.lt_or_ge (i - l.items.length) added.length with hj | hj
      · obtain ⟨hord, hloot, hcount⟩ := hadded _ (List.getElem_mem hj)
        have hopen : openItem added[i - l.items.length] = b := by
          rw [← hord, openItem, ordinary, hloot, hcount]
          simp [Bool.and_comm]
        rw [List.getElem?_eq_getElem hj]
        simp [hopen, hi, show i < l.items.length + added.length by omega]
      · rw [List.getElem?_eq_none hj, if_neg (by omega)]
  · intro p i
    rw [count_appendClaims_of_ne (fun a h => by cases h)]
    rfl
  · intro p i
    rw [count_appendClaims_of_ne (fun a h => by cases h)]
    rfl
  · intro i hi
    rw [count_appendClaims_of_ne (fun a h => by cases h)] at hi
    exact h.sharedQuest i hi

theorem addItem_recorded (h : Recorded l c) (env : LootEnv P) (store : LootStoreItem)
    (count : Nat) (hok : (c + (l.addClaims env store count : Multiset (Claim P))).card ≤ 255) :
    Recorded (l.addItem env store count)
      (c + (l.addClaims env store count : Multiset (Claim P))) := by
  obtain ⟨added, heq | ⟨hlen, b, heq, hadded⟩⟩ :=
    addItem_cases env l store count (lt_of_recorded h) h.room
  · have hsame : (l.addItem env store count).items = l.items ++ [] := by
      rw [heq, List.append_nil]
    have hnil : l.addClaims env store count = [] :=
      addClaims_of_append hsame false (by simp)
    rw [hnil, heq, Multiset.coe_nil, Multiset.add_zero]
    exact appendQuest_recorded h added
  · have hclaims : l.addClaims env store count =
        appendClaims l.items.length added.length b :=
      addClaims_of_append (by rw [heq]) b fun item hitem => (hadded item hitem).1
    rw [heq]
    exact appendItems_recorded h hadded hlen hclaims hok

/-! ### The three lists -/

theorem entries_fillMap (h : map.lookup p = none) (offered : List Nat) (p' : P) :
    entries (fillMap map p offered) p' =
      if p' = p then offered.map newEntry else entries map p' := by
  unfold fillMap
  split <;> rename_i hnil
  · split <;> rename_i hp
    · rw [hp, entries_of_none h, hnil]
      rfl
    · rfl
  · split <;> rename_i hp
    · rw [hp, entries_insert_self]
    · rw [entries_insert_ne _ hp]

theorem fillFFA_recorded (h : Recorded l c) (env : LootEnv P)
    (hp : l.playerFFAItems.lookup p = none)
    (hok : (c + (l.ffaClaims env p : Multiset (Claim P))).card ≤ 255) :
    Recorded (l.fillFFALoot env p) (c + (l.ffaClaims env p : Multiset (Claim P))) := by
  have hnodup : (l.ffaOffers env p).Nodup := List.nodup_range.filter _
  rw [fillFFALoot_eq env l p (lt_of_recorded h)]
  refine recorded_fill h hok rfl ?_ ?_ ?_ ?_ h.inRange h.room
  · intro i
    rw [ffaClaims, count_eq_zero_of_ne (fun a h => by cases h)]
    rfl
  · intro p' i
    rw [entries_fillMap hp, ffaClaims]
    split <;> rename_i hp'
    · rw [hp', entries_of_none hp, count_map_newEntry hnodup, count_map_own hnodup]
      simp
    · rw [count_eq_zero_of_ne (fun a h => hp' (by cases h; rfl))]
      rfl
  · intro p' i
    rw [ffaClaims, count_eq_zero_of_ne (fun a h => by cases h)]
    rfl
  · intro i hi
    rw [ffaClaims, count_eq_zero_of_ne (fun a h => by cases h)] at hi
    exact h.sharedQuest i hi

theorem fillConditional_recorded (h : Recorded l c) (env : LootEnv P) (p : P)
    (hok : (c + (l.conditionalClaims env p : Multiset (Claim P))).card ≤ 255) :
    Recorded (l.fillNonQuestNonFFAConditionalLoot env p)
      (c + (l.conditionalClaims env p : Multiset (Claim P))) := by
  have hnodup : ((l.conditionalOffers env p).filter l.notCounted).Nodup :=
    (List.nodup_range.filter _).filter _
  rw [fillConditional_eq env l p (lt_of_recorded h)]
  refine recorded_fill h hok rfl ?_ ?_ ?_ ?_ h.inRange ?_
  · intro i
    rw [conditionalClaims, count_map_shared hnodup]
    unfold sharedAt
    simp only [getElem?_markCounted]
    by_cases hmem : i ∈ (l.conditionalOffers env p).filter l.notCounted
    · -- offered for the first time: not open before, open now
      obtain ⟨hoff, hnc⟩ := List.mem_filter.1 hmem
      have hoff' := (List.mem_filter.1 hoff).2
      cases hi : l.items[i]? with
      | none => simp [notCounted, hi] at hnc
      | some item =>
          simp only [notCounted, hi, Bool.not_eq_true'] at hnc
          simp only [offersConditional, hi, Bool.and_eq_true, Bool.not_eq_true',
            List.isEmpty_eq_false_iff] at hoff'
          obtain ⟨⟨⟨hlooted, hffa⟩, _⟩, hcond⟩ := hoff'
          simp [openItem, hlooted, hffa, hcond, hnc, hmem]
    · rw [if_neg hmem, if_neg hmem]
      rfl
  · intro p' i
    rw [conditionalClaims, count_eq_zero_of_ne (fun a h => by cases h)]
    rfl
  · intro p' i
    rw [conditionalClaims, count_eq_zero_of_ne (fun a h => by cases h)]
    rfl
  · intro i hi
    rw [conditionalClaims, count_eq_zero_of_ne (fun a h => by cases h)] at hi
    exact h.sharedQuest i hi
  · simpa [markCounted, length_foldl_modify] using h.room

theorem markBlocked_view (env : LootEnv P) (p : P) (is : List Nat) :
    ∀ items : List (LootItem P),
      (markBlocked env p is items).map claimView = items.map claimView := by
  unfold markBlocked
  split
  · induction is with
    | nil =>
        intro items
        rfl
    | cons i rest ih =>
        intro items
        rw [List.foldl_cons, ih, map_view_modify]
        intro item
        rfl
  · intro items
    rfl

/-- The claim a quest item makes knows its position. -/
theorem questClaim_index (h : l.questClaim p i = some x) :
    ∃ item, l.questItems[i]? = some item ∧
      (x = .own true p i ∧ item.freeforall = true ∨
        x = .shared true i ∧ item.freeforall = false) := by
  unfold questClaim at h
  cases hi : l.questItems[i]? with
  | none => simp [hi] at h
  | some item =>
      simp only [hi] at h
      refine ⟨item, rfl, ?_⟩
      cases hf : item.freeforall with
      | true =>
          simp only [hf, if_true] at h
          exact Or.inl ⟨(Option.some.inj h).symm, rfl⟩
      | false =>
          simp only [hf, Bool.false_eq_true, if_false] at h
          split at h
          · cases h
          · exact Or.inr ⟨(Option.some.inj h).symm, rfl⟩

theorem questClaims_nodup (env : LootEnv P) (l : Loot P) (p : P) :
    (l.questClaims env p).Nodup := by
  have hnodup : (l.questOffers env p).Nodup := by
    unfold questOffers
    split
    · exact List.nodup_nil
    · exact (List.nodup_range.filter _).sublist (List.take_sublist _ _)
  refine hnodup.filterMap ?_
  intro i j x hi hj
  obtain ⟨_, _, h | h⟩ := questClaim_index hi <;> obtain ⟨_, _, h' | h'⟩ := questClaim_index hj
  · have := h.1.symm.trans h'.1
    cases this
    rfl
  · have := h.1.symm.trans h'.1
    cases this
  · have := h.1.symm.trans h'.1
    cases this
  · have := h.1.symm.trans h'.1
    cases this
    rfl

theorem mem_questClaims_own :
    Claim.own true p' i ∈ l.questClaims env p ↔
      p' = p ∧ i ∈ l.questOffers env p ∧
        ∃ item, l.questItems[i]? = some item ∧ item.freeforall = true := by
  rw [questClaims, List.mem_filterMap]
  refine ⟨?_, ?_⟩
  · intro hclaim
    obtain ⟨j, hj, hx⟩ := hclaim
    obtain ⟨item, hitem, h | h⟩ := questClaim_index hx
    · cases h.1
      exact ⟨rfl, hj, item, hitem, h.2⟩
    · cases h.1
  · intro hoffer
    obtain ⟨hp, hi, item, hitem, hf⟩ := hoffer
    exact ⟨i, hi, by simp [questClaim, hitem, hf, hp]⟩

theorem fillQuest_recorded (h : Recorded l c) (env : LootEnv P)
    (hp : l.playerQuestItems.lookup p = none)
    (hok : (c + (l.questClaims env p : Multiset (Claim P))).card ≤ 255) :
    Recorded (l.fillQuestLoot env p) (c + (l.questClaims env p : Multiset (Claim P))) := by
  have hview := markBlocked_view env p (l.questOffers env p) l.questItems
  have hlen := congrArg List.length hview
  simp only [List.length_map] at hlen
  have hnodup : (l.questOffers env p).Nodup := by
    unfold questOffers
    split
    · exact List.nodup_nil
    · exact (List.nodup_range.filter _).sublist (List.take_sublist _ _)
  rw [fillQuestLoot_eq env l p (lt_of_recorded h) h.room]
  refine recorded_fill h hok rfl ?_ ?_ ?_ ?_ ?_ h.room
  · intro i
    have hzero : (l.questClaims env p).count (Claim.shared false i) = 0 := by
      rw [List.count_eq_zero]
      intro hmem
      obtain ⟨j, _, hx⟩ := List.mem_filterMap.1 hmem
      obtain ⟨_, _, h | h⟩ := questClaim_index hx <;> cases h.1
    rw [hzero]
    rfl
  · intro p' i
    have hzero : (l.questClaims env p).count (Claim.own false p' i) = 0 := by
      rw [List.count_eq_zero]
      intro hmem
      obtain ⟨j, _, hx⟩ := List.mem_filterMap.1 hmem
      obtain ⟨_, _, h | h⟩ := questClaim_index hx <;> cases h.1
    rw [hzero]
    rfl
  · intro p' i
    rw [(questClaims_nodup env l p).count, if_congr mem_questClaims_own rfl rfl]
    unfold ownQuestAt
    cases hi : l.questItems[i]? with
    | none =>
        have hnone : (markBlocked env p (l.questOffers env p) l.questItems)[i]? = none :=
          List.getElem?_eq_none (by rw [hlen]; exact List.getElem?_eq_none_iff.1 hi)
        simp [hnone]
    | some item =>
        obtain ⟨item', hi', hf⟩ := item_of_view hview hi
        simp only [hi', hf, entries_fillMap hp]
        by_cases hpp : p' = p
        · cases hfa : item.freeforall with
          | false => simp [hfa]
          | true => simp [hpp, hfa, entries_of_none hp, count_map_newEntry hnodup]
        · simp [hpp]
  · intro i hi
    have hitem : ∃ item, l.questItems[i]? = some item ∧ item.freeforall = false := by
      rcases Nat.eq_zero_or_pos (c.count (.shared true i)) with hz | hpos
      · have hmem : Claim.shared true i ∈ l.questClaims env p :=
          List.count_pos_iff.1 (by omega)
        obtain ⟨j, _, hx⟩ := List.mem_filterMap.1 hmem
        obtain ⟨item, hitem, h | h⟩ := questClaim_index hx
        · cases h.1
        · cases h.1
          exact ⟨item, hitem, h.2⟩
      · exact h.sharedQuest i hpos
    obtain ⟨item, hitem, hf⟩ := hitem
    obtain ⟨item', hi', hf'⟩ := item_of_view hview hitem
    exact ⟨item', hi', hf'.trans hf⟩
  · intro p' e he
    simp only [entries_fillMap hp] at he
    rw [hlen]
    split at he
    · obtain ⟨i, hi, rfl⟩ := List.mem_map.1 he
      unfold questOffers at hi
      split at hi
      · cases hi
      · have := List.mem_range.1 (List.mem_filter.1 (List.mem_of_mem_take hi)).1
        exact this
    · exact h.inRange p' e he

/-! ## Taking -/

theorem count_erase_add (hx : x ∈ c) (y : Claim P) :
    (c.erase x).count y + (if x = y then 1 else 0) = c.count y := by
  rcases eq_or_ne x y with rfl | hne
  · have hpos := Multiset.count_pos.2 hx
    rw [Multiset.count_erase_self, if_pos rfl]
    omega
  · rw [Multiset.count_erase_of_ne hne.symm, if_neg hne]
    rfl

/-- Taking a claim that is there, from the claims and from the loot. -/
theorem recorded_take (h : Recorded l c) (hx : x ∈ c)
    (hcount : l'.unlootedCount = decr8 l.unlootedCount)
    (hshared : ∀ i, l'.sharedAt i + (if x = .shared false i then 1 else 0) = l.sharedAt i)
    (hown : ∀ p i, (entries l'.playerFFAItems p).count (newEntry i) + (if x = .own false p i then
      1 else 0) = (entries l.playerFFAItems p).count (newEntry i))
    (hquest : ∀ p i, l'.ownQuestAt p i + (if x = .own true p i then 1 else 0) = l.ownQuestAt p i)
    (hview : ∀ (i : Nat) (item : LootItem P), l.questItems[i]? = some item → ∃ item',
      l'.questItems[i]? = some item' ∧ item'.freeforall = item.freeforall)
    (hrange : ∀ p, ∀ e ∈ entries l'.playerQuestItems p, e.index < l'.questItems.length)
    (hroom : l'.items.length ≤ maxNrLootItems) : Recorded l' (c.erase x) := by
  have hcard := Multiset.card_erase_add_one hx
  have hbound := h.bound
  refine ⟨?_, by omega, ?_, ?_, ?_, ?_, hrange, hroom⟩
  · rw [hcount, h.counter, decr8]
    omega
  · intro i
    have hsum := count_erase_add hx (.shared false i)
    have hold := h.shared i
    have hnew := hshared i
    omega
  · intro p i
    have hsum := count_erase_add hx (.own false p i)
    have hold := h.own p i
    have hnew := hown p i
    omega
  · intro p i
    have hsum := count_erase_add hx (.own true p i)
    have hold := h.ownQuest p i
    have hnew := hquest p i
    omega
  · intro i hi
    have hsum := count_erase_add hx (.shared true i)
    obtain ⟨item, hitem, hf⟩ := h.sharedQuest i (by omega)
    obtain ⟨item', hitem', hf'⟩ := hview i item hitem
    exact ⟨item', hitem', hf'.trans hf⟩

/-- The flag on a player's own entry. -/
theorem entries_takeEntry (map : NotNormalLootItemMap P) (p : P) (j : Nat) (p' : P) :
    entries (takeEntry map p j) p' =
      if p' = p then (entries map p).modify j fun e => { e with isLooted := true }
      else entries map p' := by
  unfold takeEntry
  split <;> rename_i hp
  · split <;> rename_i hpp
    · rw [hpp, entries_of_none hp, List.modify_nil]
    · rfl
  · rename_i ql
    split <;> rename_i hpp
    · rw [hpp, entries_insert_self, entries, hp]
      rfl
    · exact entries_insert_ne _ hpp _

/-- A taken entry is one entry less for its position. -/
theorem count_take (ql : List NotNormalLootItem) : ∀ (j : Nat),
    ql[j]? = some (newEntry i) → ∀ i',
      (ql.modify j fun e => { e with isLooted := true }).count (newEntry i') +
        (if i = i' then 1 else 0) = ql.count (newEntry i') := by
  induction ql with
  | nil =>
      intro j h
      simp at h
  | cons e rest ih =>
      intro j h i'
      cases j with
      | zero =>
          obtain rfl : e = newEntry i := by simpa using h
          rw [List.modify_zero_cons, List.count_cons, List.count_cons]
          have htaken : ({ newEntry i with isLooted := true } : NotNormalLootItem) ≠
              newEntry i' := by simp [newEntry]
          rcases eq_or_ne i i' with rfl | hne
          · simp [htaken]
          · have hother : newEntry i ≠ newEntry i' := by simpa [newEntry] using hne
            simp [htaken, hother, hne]
      | succ j =>
          rw [List.modify_succ_cons, List.count_cons, List.count_cons]
          have hrec := ih j (by simpa using h) i'
          omega

theorem index_take {ql : List NotNormalLootItem} (j : Nat) (h : ∀ e ∈ ql, e.index < n) :
    ∀ e ∈ ql.modify j fun e => { e with isLooted := true }, e.index < n := by
  intro e he
  obtain ⟨k, hk⟩ := List.mem_iff_getElem?.1 he
  rw [List.getElem?_modify] at hk
  cases hq : ql[k]? with
  | none => simp [hq] at hk
  | some e' =>
      have hlt := h e' (List.mem_of_getElem? hq)
      simp only [hq, Option.map_eq_map, Option.map_some, Option.some.injEq] at hk
      split at hk <;> rw [← hk] <;> exact hlt

/-- An item that is open is one shared claim; taken, it is none. -/
theorem sharedAt_take (hf : ∀ it, openItem (f it) = false)
    (hitems : l'.items = l.items.modify i f) (hi : l.items[i]? = some item)
    (hopen : openItem item = true) (i' : Nat) :
    l'.sharedAt i' + (if (Claim.shared false i : Claim P) = .shared false i' then 1 else 0) =
      l.sharedAt i' := by
  unfold sharedAt
  rw [hitems]
  rcases eq_or_ne i i' with rfl | hne
  · rw [List.getElem?_modify_eq, hi]
    simp [hf, hopen]
  · rw [List.getElem?_modify_ne _ _ hne]
    simp [hne]

theorem entryFor_some {e : NotNormalLootItem} (h : entryFor map p i = some (j, e)) :
    (entries map p)[j]? = some e ∧ e.index = i := by
  unfold entryFor at h
  cases hp : map.lookup p with
  | none => simp [hp] at h
  | some ql =>
      simp only [hp] at h
      cases hfind : ql.findIdx? (fun e => decide (e.index = i)) with
      | none => simp [hfind] at h
      | some k =>
          obtain ⟨hk, hidx, _⟩ := List.findIdx?_eq_some_iff_getElem.1 hfind
          simp only [hfind, List.getElem?_eq_getElem hk, Option.map_some, Option.some.injEq,
            Prod.mk.injEq] at h
          obtain ⟨rfl, rfl⟩ := h
          exact ⟨by simp [entries, hp, hk], of_decide_eq_true hidx⟩

/-- What `LootItemInSlot` finds: a quest item through an entry that is not
taken, or an item, and a free-for-all item's entry is not taken either. -/
theorem lootItemInSlot_some {ref : SlotRef} (h : l.lootItemInSlot slot p = some (ref, item)) :
    (∃ i j, ref = ⟨true, i, some j⟩ ∧ l.questItems[i]? = some item ∧
      (entries l.playerQuestItems p)[j]? = some (newEntry i)) ∨
    (∃ i entry, ref = ⟨false, i, entry⟩ ∧ l.items[i]? = some item ∧
      (item.freeforall = true → ∀ j, entry = some j →
        (entries l.playerFFAItems p)[j]? = some (newEntry i))) := by
  unfold lootItemInSlot at h
  split at h
  · left
    cases hp : l.playerQuestItems.lookup p with
    | none => simp [hp] at h
    | some ql =>
        simp only [hp] at h
        cases he : ql[slot - l.items.length]? with
        | none => simp [he] at h
        | some e =>
            simp only [he] at h
            cases hq : l.questItems[e.index]? with
            | none => simp [hq] at h
            | some it =>
                simp only [hq] at h
                split at h <;> rename_i htaken
                · cases h
                · cases h
                  refine ⟨e.index, _, rfl, hq, ?_⟩
                  obtain ⟨i, b⟩ := e
                  obtain rfl : b = false := by simpa using htaken
                  simpa [entries, hp, newEntry] using he
  · right
    cases hi : l.items[slot]? with
    | none => simp [hi] at h
    | some it =>
        simp only [hi] at h
        generalize hown : (if it.freeforall = true then entryFor l.playerFFAItems p slot
          else if (!it.conditions.isEmpty) = true then
            entryFor l.playerNonQuestNonFFAConditionalItems p slot
          else none) = own at h
        cases own with
        | none =>
            simp only [Option.map_none] at h
            split at h
            · cases h
            · cases h
              exact ⟨slot, none, rfl, hi, fun _ j hj => by cases hj⟩
        | some je =>
            obtain ⟨k, e⟩ := je
            simp only [Option.map_some] at h
            split at h <;> rename_i htaken
            · cases h
            · cases h
              refine ⟨slot, some k, rfl, hi, fun hffa j hj => ?_⟩
              obtain rfl := Option.some.inj hj
              rw [if_pos hffa] at hown
              obtain ⟨he, hidx⟩ := entryFor_some hown
              obtain ⟨i, b⟩ := e
              obtain rfl : b = false := by simpa using htaken
              obtain rfl : i = slot := hidx
              exact he

theorem openItem_of_claimed (h : Act.Claimed c false i item) : openItem item = true := by
  obtain ⟨hf, hl, hc⟩ := h
  rcases hc with hc | hc <;> simp [openItem, hf, hl, hc]

theorem mem_of_open (h : Recorded l c) (hi : l.items[i]? = some item) (ho : openItem item = true) :
    Claim.shared false i ∈ c := by
  rw [← Multiset.count_pos, h.shared i, sharedAt, hi]
  simp [ho]

/-- The item itself is taken, for everybody. -/
theorem takeItem_recorded (h : Recorded l c) (hi : l.items[i]? = some item)
    (hc : Act.Claimed c false i item) (hf : ∀ it, openItem (f it) = false)
    (hitems : l'.items = l.items.modify i f) (hquest : l'.questItems = l.questItems)
    (hcount : l'.unlootedCount = decr8 l.unlootedCount)
    (hffa : l'.playerFFAItems = l.playerFFAItems)
    (hlists : l'.playerQuestItems = l.playerQuestItems) :
    Recorded l' (c.erase (.shared false i)) := by
  have hopen := openItem_of_claimed hc
  refine recorded_take h (mem_of_open h hi hopen) hcount
    (sharedAt_take hf hitems hi hopen) ?_ ?_ ?_ ?_ ?_
  · intro p i'
    rw [hffa, if_neg (fun h => by cases h)]
    rfl
  · intro p i'
    rw [if_neg (fun h => by cases h), ownQuestAt, ownQuestAt, hquest, hlists]
    rfl
  · intro i' it hit
    exact ⟨it, by rw [hquest]; exact hit, rfl⟩
  · intro p e he
    rw [hlists] at he
    rw [hquest]
    exact h.inRange p e he
  · rw [hitems, List.length_modify]
    exact h.room

/-- A quest item is taken for one of the times it was counted; a player's own
entry may be flagged with it. -/
theorem takeQuest_recorded (h : Recorded l c) (hi : l.questItems[i]? = some item)
    (hc : Act.Claimed c true i item) (hf : ∀ it, (f it).freeforall = it.freeforall)
    (hitems : l'.items = l.items) (hquest : l'.questItems = l.questItems.modify i f)
    (hcount : l'.unlootedCount = decr8 l.unlootedCount)
    (hffa : l'.playerFFAItems = l.playerFFAItems)
    (hlists : ∀ p', entries l'.playerQuestItems p' = entries l.playerQuestItems p' ∨ ∃ j,
      (entries l.playerQuestItems p')[j]? = some (newEntry i) ∧ entries l'.playerQuestItems p' =
      (entries l.playerQuestItems p').modify j fun e => { e with isLooted := true }) :
    Recorded l' (c.erase (.shared true i)) := by
  obtain ⟨hnf, hpos⟩ := hc
  have hview : ∀ (i' : Nat) (it : LootItem P), l.questItems[i']? = some it →
      ∃ it', l'.questItems[i']? = some it' ∧ it'.freeforall = it.freeforall := by
    intro i' it hit
    rw [hquest, List.getElem?_modify, hit]
    split
    · exact ⟨f it, rfl, hf it⟩
    · exact ⟨it, rfl, rfl⟩
  refine recorded_take h (Multiset.count_pos.1 hpos) hcount ?_ ?_ ?_ hview ?_ ?_
  · intro i'
    rw [if_neg (fun h => by cases h), sharedAt, hitems]
    rfl
  · intro p i'
    rw [hffa, if_neg (fun h => by cases h)]
    rfl
  · intro p i'
    rw [if_neg (fun h => by cases h), Nat.add_zero]
    unfold ownQuestAt
    cases hit : l.questItems[i']? with
    | none =>
        have hnone : l'.questItems[i']? = none := by
          rw [hquest, List.getElem?_modify, hit]
          rfl
        rw [hnone]
    | some it =>
        obtain ⟨it', hit', hff⟩ := hview i' it hit
        simp only [hit', hff]
        split <;> rename_i hfit
        · -- a free-for-all item is another one
          have hne : i ≠ i' := by
            rintro rfl
            rw [hi] at hit
            cases hit
            simp [hnf] at hfit
          rcases hlists p with hp | ⟨j, hj, hp⟩
          · rw [hp]
          · have hsum := count_take (entries l.playerQuestItems p) j hj i'
            rw [if_neg hne] at hsum
            rw [hp]
            exact hsum
        · rfl
  · intro p e he
    rw [hquest, List.length_modify]
    rcases hlists p with hp | ⟨j, _, hp⟩
    · rw [hp] at he
      exact h.inRange p e he
    · rw [hp] at he
      exact index_take j (h.inRange p) e he
  · rw [hitems]
    exact h.room

/-- A player's own copy is taken, of an item or of a quest item. -/
theorem takeOwn_recorded (h : Recorded l c) {quest : Bool} (hf : item.freeforall = true)
    (hi : (if quest then l.questItems else l.items)[i]? = some item)
    (hj : (entries (if quest then l.playerQuestItems else l.playerFFAItems) p)[j]? =
      some (newEntry i))
    (hl : l' = (if quest then { l with playerQuestItems := takeEntry l.playerQuestItems p j } else
      { l with playerFFAItems := takeEntry l.playerFFAItems p j }).countDown) :
    Recorded l' (c.erase (.own quest p i)) := by
  have hpos : ∀ ql : List NotNormalLootItem, ql[j]? = some (newEntry i) →
      0 < ql.count (newEntry i) := fun ql h => List.count_pos_iff.2 (List.mem_of_getElem? h)
  cases quest with
  | true =>
      simp only [if_true] at hi hj hl
      have hmem : Claim.own true p i ∈ c := by
        rw [← Multiset.count_pos, h.ownQuest p i, ownQuestAt, hi]
        simpa [hf] using hpos _ hj
      subst hl
      refine recorded_take h hmem rfl (fun _ => rfl) (fun _ _ => rfl) ?_
        (fun _ it hit => ⟨it, hit, rfl⟩) ?_ h.room
      · intro p' i'
        simp only [ownQuestAt, countDown, entries_takeEntry]
        cases hit : l.questItems[i']? with
        | none =>
            have hne : ¬ (p = p' ∧ i = i') := by
              rintro ⟨_, rfl⟩
              rw [hi] at hit
              cases hit
            simpa using hne
        | some it =>
            cases hfit : it.freeforall with
            | false =>
                have hne : ¬ (p = p' ∧ i = i') := by
                  rintro ⟨_, rfl⟩
                  rw [hi] at hit
                  cases hit
                  simp [hf] at hfit
                simpa [hfit] using hne
            | true =>
                by_cases hp : p' = p
                · subst hp
                  simpa [hfit] using count_take _ j hj i'
                · simp [hfit, hp, Ne.symm hp]
      · intro p' e he
        simp only [countDown, entries_takeEntry] at he
        split at he
        · exact index_take j (h.inRange p) e he
        · exact h.inRange p' e he
  | false =>
      simp only [Bool.false_eq_true, if_false] at hi hj hl
      have hmem : Claim.own false p i ∈ c := by
        rw [← Multiset.count_pos, h.own p i]
        exact hpos _ hj
      subst hl
      refine recorded_take h hmem rfl (fun _ => rfl) ?_ (fun _ _ => rfl)
        (fun _ it hit => ⟨it, hit, rfl⟩) h.inRange h.room
      intro p' i'
      simp only [countDown, entries_takeEntry]
      by_cases hp : p' = p
      · subst hp
        simpa using count_take _ j hj i'
      · simp [hp, Ne.symm hp]

/-- `StoreLootItem` on an item for one player. -/
theorem markStored_item (l : Loot P) (p : P) (i : Nat) (entry : Option Nat)
    (hf : item.freeforall = false) :
    (l.markStored p ⟨false, i, entry⟩ item).items =
        l.items.modify i (fun it => { it with isLooted := true }) ∧
      (l.markStored p ⟨false, i, entry⟩ item).questItems = l.questItems ∧
      (l.markStored p ⟨false, i, entry⟩ item).unlootedCount = decr8 l.unlootedCount ∧
      (l.markStored p ⟨false, i, entry⟩ item).playerFFAItems = l.playerFFAItems ∧
      (l.markStored p ⟨false, i, entry⟩ item).playerQuestItems = l.playerQuestItems := by
  cases entry <;> simp [markStored, hf, countDown]

theorem store_recorded (h : Recorded l c) (env : LootEnv P) (p : P) (slot : Nat)
    (hok : Act.Ok l c (.store env p slot)) :
    Recorded (l.storeLootItem env p slot) (Act.claims l c (.store env p slot)) := by
  rw [storeLootItem, Act.claims]
  cases hfound : l.lootItemInSlot slot p with
  | none => exact h
  | some found =>
      obtain ⟨ref, item⟩ := found
      simp only
      split <;> rename_i hmay
      · have hclaim := hok (ref, item) hfound hmay
        simp only at hclaim
        rcases lootItemInSlot_some hfound with ⟨i, j, rfl, hi, hj⟩ | ⟨i, entry, rfl, hi, hj⟩
        · cases hf : item.freeforall with
          | true =>
              rw [storedClaim, if_pos hf]
              exact takeOwn_recorded h hf hi hj (by simp [markStored, hf])
          | false =>
              rw [hf, if_neg (by simp)] at hclaim
              rw [storedClaim, if_neg (by simp [hf])]
              have hmark : l.markStored p ⟨true, i, some j⟩ item =
                  { l with
                    playerQuestItems := takeEntry l.playerQuestItems p j
                    questItems := l.questItems.modify i fun it => { it with isLooted := true }
                    unlootedCount := decr8 l.unlootedCount } := by
                simp [markStored, hf, countDown]
              rw [hmark]
              refine takeQuest_recorded h (i := i) hi hclaim
                (f := fun it => { it with isLooted := true }) (fun _ => rfl) rfl rfl rfl rfl ?_
              intro p'
              rw [entries_takeEntry]
              split <;> rename_i hp
              · subst hp
                exact Or.inr ⟨j, hj, rfl⟩
              · exact Or.inl rfl
        · cases hf : item.freeforall with
          | true =>
              rw [hf, if_pos rfl] at hclaim
              obtain ⟨j, rfl⟩ := Option.isSome_iff_exists.1 hclaim
              rw [storedClaim, if_pos hf]
              exact takeOwn_recorded h hf hi (hj hf j rfl) (by simp [markStored, hf])
          | false =>
              rw [hf, if_neg (by simp)] at hclaim
              rw [storedClaim, if_neg (by simp [hf])]
              obtain ⟨h1, h2, h3, h4, h5⟩ := markStored_item l p i entry hf
              exact takeItem_recorded h hi hclaim (fun it => by simp [openItem]) h1 h2 h3 h4 h5
      · exact h

/-- A slot's item is handed over, with whatever flags change besides. -/
theorem slot_recorded (h : Recorded l c) (hi : l.itemAt slot = some item)
    (hc : Act.SlotClaimed l c slot item) (hopen : ∀ it, openItem (f it) = false)
    (hf : ∀ it, (f it).freeforall = it.freeforall) :
    Recorded (l.modifyAt slot f).countDown (c.erase (l.slotClaim slot)) := by
  unfold modifyAt slotClaim
  unfold itemAt at hi
  unfold Act.SlotClaimed at hc
  split <;> rename_i hslot
  · rw [if_pos hslot] at hi hc
    exact takeQuest_recorded h hi hc hf rfl rfl rfl rfl fun _ => Or.inl rfl
  · rw [if_neg hslot] at hi hc
    exact takeItem_recorded h hi hc hopen rfl rfl rfl rfl rfl

theorem give_recorded (h : Recorded l c) (env : LootEnv P) (target : P) (slot : Nat)
    (hok : Act.Ok l c (.give env target slot)) :
    Recorded (l.lootMasterGive env target slot) (Act.claims l c (.give env target slot)) := by
  rw [lootMasterGive, Act.claims]
  cases hi : l.itemAt slot with
  | none =>
      rw [gives, hi]
      exact h
  | some item =>
      have hgives : l.gives env target slot =
          ((!item.followLootRules || env.allowedForPlayer item target) &&
            env.canStoreNewItem target item.itemid item.count) := by rw [gives, hi]
      simp only
      split <;> rename_i h1
      · rw [hgives, if_neg (by
          simp only [Bool.and_eq_true, Bool.not_eq_true'] at h1
          simp [h1])]
        exact h
      · split <;> rename_i h2
        · rw [hgives, if_neg (by
            simp only [Bool.not_eq_true'] at h2
            simp [h2])]
          exact h
        · have htrue : l.gives env target slot = true := by
            rw [hgives]
            cases hb : item.followLootRules <;> cases ha : env.allowedForPlayer item target <;>
              simp_all
          rw [if_pos htrue]
          exact slot_recorded h hi (hok htrue item hi) (fun it => by simp [openItem])
            fun _ => rfl

/-! ## Every act, every run -/

/-- The step: an act that finds what it must keeps the claims in step. -/
theorem act_recorded (h : Recorded l c) (a : Act P) (hok : a.Ok l c) :
    Recorded (a.apply l) (a.claims l c) := by
  cases a with
  | addItem env entry count => exact addItem_recorded h env entry count hok
  | fillQuest env p =>
      simp only [Act.Ok, Act.apply, Act.claims] at hok ⊢
      cases hp : l.playerQuestItems.lookup p with
      | none =>
          rw [hp] at hok
          exact fillQuest_recorded h env hp hok
      | some ql => exact h
  | fillFFA env p =>
      simp only [Act.Ok, Act.apply, Act.claims] at hok ⊢
      cases hp : l.playerFFAItems.lookup p with
      | none =>
          rw [hp] at hok
          exact fillFFA_recorded h env hp hok
      | some ql => exact h
  | fillConditional env p =>
      simp only [Act.Ok, Act.apply, Act.claims] at hok ⊢
      cases hp : l.playerNonQuestNonFFAConditionalItems.lookup p with
      | none =>
          rw [hp] at hok
          exact fillConditional_recorded h env p hok
      | some ql => exact h
  | store env p slot => exact store_recorded h env p slot hok
  | give env target slot => exact give_recorded h env target slot hok
  | award slot =>
      obtain ⟨item, hi, hclaimed⟩ := hok
      exact slot_recorded h hi hclaimed (fun it => by simp [openItem]) fun _ => rfl
  | money => exact money_recorded h
  | mark m => exact mark_recorded h m

theorem runActs_recorded (acts : List (Act P)) : ∀ {l : Loot P} {c : Multiset (Claim P)},
    Recorded l c → ActsOk l c acts → Recorded (runActs l acts) (actsClaims l c acts) := by
  induction acts with
  | nil =>
      intro l c h _
      exact h
  | cons a rest ih =>
      intro l c h hok
      exact ih (act_recorded h a hok.1) hok.2

theorem runOps_recorded (ops : List (Op P M)) : ∀ {l : Loot P} {c : Multiset (Claim P)},
    Recorded l c → OpsOk l c ops → Recorded (runOps l ops) (opsClaims l c ops) := by
  induction ops with
  | nil =>
      intro l c h _
      exact h
  | cons op rest ih =>
      intro l c h hok
      refine ih ?_ hok.2
      rw [← op.run_acts l]
      exact runActs_recorded _ h hok.1

theorem OpsOk.left (ops rest : List (Op P M)) : ∀ {l : Loot P} {c : Multiset (Claim P)},
    OpsOk l c (ops ++ rest) → OpsOk l c ops := by
  induction ops with
  | nil =>
      intro l c _
      exact trivial
  | cons op ops ih =>
      intro l c h
      exact ⟨h.1, ih h.2⟩

/-- In every state of a run whose acts find what they must, the counter is the
number of claims that are left, and the loot is looted when they and the gold
are gone. -/
theorem runOps_unlootedCount (gold : Nat) (ops rest : List (Op P M))
    (h : OpsOk (Loot.empty gold) 0 (ops ++ rest)) :
    let l := runOps (Loot.empty gold) ops
    let c := opsClaims (Loot.empty gold) 0 ops
    l.unlootedCount = c.card ∧ c.card ≤ 255 ∧ (l.isLooted = true ↔ l.gold = 0 ∧ c = 0) ∧
      Recorded l c := by
  intro l c
  have hrec : Recorded l c := runOps_recorded ops (empty_recorded gold) (h.left ops rest)
  exact ⟨hrec.counter, hrec.bound, isLooted_iff hrec, hrec⟩

/-! Players 1 and 2 kill something together. Item 7 is for one of them, item 8
has a condition that both meet, item 9 is for each of them. -/

def pairEnv : LootEnv Nat where
  template id := some ⟨1, decide (id = 9), 2, false⟩
  allowedForPlayer _ _ := true
  canStoreNewItem _ _ _ := true
  group _ := some ⟨.groupLoot, 0, 2, [(1, true, true), (2, true, true)]⟩

def pairFill (entries : List LootStoreItem) : Op Nat Unit :=
  .fillLoot pairEnv (entries.map fun e => (e, 1)) 1 false

/-- Everybody takes what is theirs, player 1 the conditional item. -/
def fairRun : List (Op Nat Unit) :=
  [pairFill [⟨7, false, []⟩, ⟨8, false, [3]⟩, ⟨9, false, []⟩],
    .storeLootItem pairEnv 2 0, .storeLootItem pairEnv 1 1, .storeLootItem pairEnv 1 2,
    .lootMoney, .storeLootItem pairEnv 2 2]

theorem runOps_unlootedCount_fairRun :
    let l := runOps (Loot.empty 5) fairRun
    let c := opsClaims (Loot.empty 5) 0 fairRun
    l.unlootedCount = c.card ∧ c.card ≤ 255 ∧ (l.isLooted = true ↔ l.gold = 0 ∧ c = 0) ∧
      Recorded l c :=
  runOps_unlootedCount 5 fairRun [] (by decide)

/-- Both players take the one conditional item, each by the own entry. -/
def twiceRun : List (Op Nat Unit) :=
  [pairFill [⟨8, false, [3]⟩], .storeLootItem pairEnv 1 0, .storeLootItem pairEnv 2 0]

theorem twiceRun_wraps :
    let l := runOps (Loot.empty 0) twiceRun
    let c := opsClaims (Loot.empty 0) 0 twiceRun
    l.unlootedCount = 255 ∧ c.card = 0 ∧ (∀ item ∈ l.items, item.isLooted = true) ∧
      ¬ (l.isLooted = true ↔ l.gold = 0 ∧ c.card = 0) := by
  decide

end Sunstrider.Looting
