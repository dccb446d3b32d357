import Sunstrider.Lib.Runs
import Sunstrider.Loot.LootItemStorage

/-!
# Which loot survives a restart

The tables have what the storage has until an item is removed of which its container has
another with the same id and count: one entry goes, and the rows of both. A container may
also be left, or stored, with nothing in it. It has no row then, so after a restart it is not
found, and its loot is rolled anew.

The rows of a container are told apart from those of the others (`rowsOf`), and each
operation has to do with one container.
-/

namespace Sunstrider.Looting.StorageWorld

open Lib

variable {α : Type} {c c' : UInt32} {w : StorageWorld} {o : Op}

/-! ## Rows of one container -/

def rowsOf (containerId : UInt32) (table : List (UInt32 × α)) : List α :=
  (table.filter fun row => row.1 == containerId).map Prod.snd

@[simp] theorem rowsOf_nil : rowsOf c ([] : List (UInt32 × α)) = [] := rfl

@[simp] theorem rowsOf_append (t t' : List (UInt32 × α)) :
    rowsOf c (t ++ t') = rowsOf c t ++ rowsOf c t' := by
  simp [rowsOf]

theorem rowsOf_cons (row : UInt32 × α) (t : List (UInt32 × α)) :
    rowsOf c (row :: t) = if row.1 = c then row.2 :: rowsOf c t else rowsOf c t := by
  by_cases h : row.1 = c <;> simp [rowsOf, h]

theorem rowsOf_map_mk (l : List α) : rowsOf c (l.map (c', ·)) = if c' = c then l else [] := by
  induction l with
  | nil => simp
  | cons a l ih =>
      rw [List.map_cons, rowsOf_cons, ih]
      split <;> rfl

theorem rowsOf_deleteWhere (p : α → Bool) (t : List (UInt32 × α)) :
    rowsOf c (deleteWhere c' p t) =
      if c' = c then (rowsOf c t).filter fun a => !p a else rowsOf c t := by
  induction t with
  | nil => simp [deleteWhere]
  | cons row t ih =>
      unfold deleteWhere at ih ⊢
      rw [List.filter_cons]
      by_cases hdel : row.1 = c' ∧ p row.2 = true
      · rw [if_neg (by simpa using hdel), ih, rowsOf_cons]
        by_cases hrow : row.1 = c
        · simp [hrow, ← hdel.1, hdel.2]
        · simp [hrow]
      · rw [if_pos (by simpa [imp_iff_not_or] using hdel), rowsOf_cons, rowsOf_cons, ih]
        by_cases hrow : row.1 = c
        · by_cases hc : c' = c <;> simp_all
        · simp [hrow]

/-- What the loop over the rows makes of one container. -/
theorem foldl_loadRow (add : StoredLootContainer → α → StoredLootContainer)
    (rows : List (UInt32 × α)) (store : LootItemStore) :
    rows.foldl (loadRow add) store c =
      if rowsOf c rows = [] then store c
      else some ((rowsOf c rows).foldl add ((store c).getD .new)) := by
  induction rows generalizing store with
  | nil => rfl
  | cons row rows ih =>
      rw [List.foldl_cons, ih, rowsOf_cons]
      by_cases hrow : row.1 = c
      · subst hrow
        by_cases hrest : rowsOf row.1 rows = [] <;> simp [loadRow, hrest]
      · rw [if_neg hrow, loadRow, Function.update_of_ne (Ne.symm hrow)]

theorem foldl_lootItems (rows : List StoredLootItem) (container : StoredLootContainer) :
    rows.foldl (fun container row => { container with lootItems := container.lootItems ++ [row] })
      container = { container with lootItems := container.lootItems ++ rows } := by
  induction rows generalizing container with
  | nil => simp
  | cons row rows ih => simp [ih]

theorem foldl_insItems (t : LootTables) (rows : List StoredLootItem) :
    (rows.map (LootStatement.insItems c)).foldl LootStatement.execute t =
      { t with items := t.items ++ rows.map (c, ·) } := by
  induction rows generalizing t with
  | nil => simp
  | cons row rows ih => simp [ih, LootStatement.execute]

/-! ## What a restart restores -/

/-- The entries and the money of a container, none if it is not in the storage. -/
def held (w : StorageWorld) (containerId : UInt32) : StoredLootContainer :=
  (w.store containerId).getD .new

/-- The tables have the items of the storage and its money. -/
structure Agree (w : StorageWorld) : Prop where
  items : ∀ c, (rowsOf c w.tables.items).Perm (w.held c).lootItems
  money : ∀ c, rowsOf c w.tables.money = if (w.held c).money = 0 then [] else [(w.held c).money]

/-- The loot gets the same gold and items after a restart. -/
def OffersSame (w : StorageWorld) : Prop :=
  ∀ c hasTemplate,
    let after := (loadStoredLoot (loadStorageFromDB w.tables) c hasTemplate).getD (0, [])
    let before := (loadStoredLoot w.store c hasTemplate).getD (0, [])
    after.1 = before.1 ∧ after.2.Perm before.2

/-- And it is found in the storage where it was before. -/
def FindsSame (w : StorageWorld) : Prop :=
  ∀ c hasTemplate, (loadStoredLoot (loadStorageFromDB w.tables) c hasTemplate).isSome =
    (loadStoredLoot w.store c hasTemplate).isSome

theorem loadStorageFromDB_eq (h : Agree w) (c : UInt32) :
    loadStorageFromDB w.tables c =
      if rowsOf c w.tables.items = [] ∧ (w.held c).money = 0 then none
      else some ⟨rowsOf c w.tables.items, (w.held c).money⟩ := by
  rw [loadStorageFromDB, foldl_loadRow, foldl_loadRow, h.money c]
  by_cases hmoney : (w.held c).money = 0 <;> by_cases hrows : rowsOf c w.tables.items = [] <;>
    simp [hmoney, hrows, foldl_lootItems, StoredLootContainer.new]

theorem Agree.offersSame (h : Agree w) : OffersSame w := by
  intro c hasTemplate
  have hitems := h.items c
  simp only [loadStoredLoot, loadStorageFromDB_eq h]
  cases hc : w.store c with
  | none =>
      have hnil : rowsOf c w.tables.items = [] := by
        simpa [held, hc, StoredLootContainer.new] using hitems
      simp [held, hc, hnil, StoredLootContainer.new]
  | some container =>
      simp only [held, hc, Option.getD_some] at hitems ⊢
      by_cases hempty : rowsOf c w.tables.items = [] ∧ container.money = 0
      · rw [hempty.1, List.nil_perm] at hitems
        simp [hempty, hitems]
      · cases hasTemplate <;> simp [hempty, hitems]

/-- No container is there with nothing in it. -/
def NoneEmpty (w : StorageWorld) : Prop :=
  ∀ c container, w.store c = some container → container.lootItems = [] → container.money ≠ 0

theorem Agree.findsSame_iff (h : Agree w) : FindsSame w ↔ NoneEmpty w := by
  have hc : ∀ c, (loadStorageFromDB w.tables c).isSome = (w.store c).isSome ↔
      ∀ container, w.store c = some container → container.lootItems = [] →
        container.money ≠ 0 := by
    intro c
    have hitems := h.items c
    rw [loadStorageFromDB_eq h]
    cases hc : w.store c with
    | none =>
        have hnil : rowsOf c w.tables.items = [] := by
          simpa [held, hc, StoredLootContainer.new] using hitems
        simp [held, hc, hnil, StoredLootContainer.new]
    | some container =>
        have hnil : rowsOf c w.tables.items = [] ↔ container.lootItems = [] := by
          simp only [held, hc, Option.getD_some] at hitems
          rw [← List.length_eq_zero_iff, hitems.length_eq, List.length_eq_zero_iff]
        simp [held, hc, hnil]
  simp only [FindsSame, loadStoredLoot, Option.isSome_map, hc, NoneEmpty, forall_const]

/-! ## Steps -/

/-- An item that is removed has no twin in its container, of the same id and count. -/
def DropsOne (w : StorageWorld) : Op → Prop
  | .removeStoredLootItemForContainer c itemId count =>
      (w.held c).lootItems.countP (StoredLootItem.matches itemId count) ≤ 1
  | _ => True

/-- No container is stored with nothing in it, and of none the last is taken away. -/
def LeavesLoot (w : StorageWorld) : Op → Prop
  | .addNewStoredLoot loot =>
      loot.isLooted = false → w.store loot.containerId = none → loot.saved = [] → loot.gold ≠ 0
  | .removeStoredLootItemForContainer c itemId count =>
      ∀ container, w.store c = some container →
        (∀ item ∈ container.lootItems, item.matches itemId count) → container.money ≠ 0
  | .removeStoredMoneyForContainer c =>
      ∀ container, w.store c = some container → container.lootItems ≠ []
  | _ => True

theorem eraseP_eq_filter {p : α → Bool} {l : List α} (h : l.countP p ≤ 1) :
    l.eraseP p = l.filter fun a => !p a := by
  induction l with
  | nil => rfl
  | cons a l ih =>
      cases hp : p a with
      | true =>
          rw [List.countP_cons_of_pos hp] at h
          have hnone : ∀ b ∈ l, ¬p b = true := List.countP_eq_zero.1 (by omega)
          rw [List.eraseP_cons_of_pos hp, List.filter_cons_of_neg (by simp [hp])]
          exact (List.filter_eq_self.2 fun b hb => by simpa using hnone b hb).symm
      | false =>
          rw [List.countP_cons_of_neg (by simp [hp])] at h
          rw [List.eraseP_cons_of_neg (by simp [hp]), List.filter_cons_of_pos (by simp [hp]), ih h]

/-- Erasing one is deleting all exactly if there is at most one. -/
theorem countP_le_one_of_perm {p : α → Bool} {l : List α}
    (h : (l.filter fun a => !p a).Perm (l.eraseP p)) : l.countP p ≤ 1 := by
  have hlength := h.length_eq
  have hsplit := List.length_eq_countP_add_countP p (l := l)
  rw [← List.countP_eq_length_filter, List.length_eraseP] at hlength
  have hnot : l.countP (fun a => !p a) = l.countP (fun a => ¬p a) := by
    refine List.countP_congr fun a _ => by simp
  split at hlength <;> omega

theorem held_setContainer (w : StorageWorld) (container : Option StoredLootContainer) :
    (w.setContainer c' container).held c =
      if c = c' then container.getD .new else w.held c := by
  by_cases h : c = c' <;> simp [held, setContainer, h]

/-- After an operation on one container the tables agree where they do at that container. -/
theorem Agree.setContainer (h : Agree w) {t : LootTables}
    {container : Option StoredLootContainer}
    (hitems : ∀ c', c' ≠ c → rowsOf c' t.items = rowsOf c' w.tables.items)
    (hmoney : ∀ c', c' ≠ c → rowsOf c' t.money = rowsOf c' w.tables.money) :
    Agree (({ w with tables := t } : StorageWorld).setContainer c container) ↔
      (rowsOf c t.items).Perm (container.getD .new).lootItems ∧
        rowsOf c t.money = if (container.getD .new).money = 0 then []
          else [(container.getD .new).money] := by
  constructor
  · intro h'
    have hi := h'.items c
    have hm := h'.money c
    rw [held_setContainer, if_pos rfl] at hi hm
    exact ⟨hi, hm⟩
  · rintro ⟨hi, hm⟩
    refine ⟨fun c' => ?_, fun c' => ?_⟩ <;> rw [held_setContainer] <;> by_cases hc : c' = c
    · subst hc
      rw [if_pos rfl]
      exact hi
    · rw [if_neg hc]
      exact (List.Perm.of_eq (hitems c' hc)).trans (h.items c')
    · subst hc
      rw [if_pos rfl]
      exact hm
    · rw [if_neg hc]
      exact (hmoney c' hc).trans (h.money c')

theorem agree_addNewStoredLoot (h : Agree w) (loot : ContainerLoot) :
    Agree (w.addNewStoredLoot loot) := by
  unfold addNewStoredLoot
  split
  · exact h
  · cases hc : w.store loot.containerId with
    | some _ =>
        simp only [hc]
        exact h
    | none =>
        have hmoney := h.money loot.containerId
        simp only [held, hc, Option.getD_none, StoredLootContainer.new, if_true] at hmoney
        simp only [hc, execute, List.foldl_append, List.foldl_cons, foldl_insItems]
        by_cases hgold : loot.gold = 0
        · rw [h.setContainer] <;>
            simp +contextual [hgold, hmoney, LootStatement.execute, rowsOf_deleteWhere,
              rowsOf_map_mk, eq_comm]
        · rw [h.setContainer] <;>
            simp +contextual [hgold, LootStatement.execute, rowsOf_deleteWhere, rowsOf_map_mk,
              rowsOf_cons, eq_comm]

/-- The one operation after which the tables may not agree. -/
theorem agree_removeItem_iff (h : Agree w) (itemId count : UInt32) :
    Agree (w.removeStoredLootItemForContainer c itemId count) ↔
      DropsOne w (.removeStoredLootItemForContainer c itemId count) := by
  have hitems := h.items c
  have hmoney := h.money c
  unfold removeStoredLootItemForContainer DropsOne
  cases hc : w.store c with
  | none => simpa [held, hc, StoredLootContainer.new] using h
  | some container =>
      simp only [held, hc, Option.getD_some] at hitems hmoney ⊢
      have hrows := hitems.filter fun item => !item.matches itemId count
      rw [execute, h.setContainer]
      · simp only [List.foldl_cons, List.foldl_nil, LootStatement.execute, rowsOf_deleteWhere,
          if_true, Option.getD_some, hmoney, and_true]
        constructor
        · exact fun hperm => countP_le_one_of_perm (hrows.symm.trans hperm)
        · intro hone
          rw [eraseP_eq_filter hone]
          exact hrows
      · simp +contextual [LootStatement.execute, rowsOf_deleteWhere, eq_comm]
      · simp [LootStatement.execute]

theorem agree_step_iff (h : Agree w) (o : Op) : Agree (step w o) ↔ DropsOne w o := by
  cases o with
  | addNewStoredLoot loot => exact iff_of_true (agree_addNewStoredLoot h loot) trivial
  | removeStoredLootItemForContainer c itemId count => exact agree_removeItem_iff h itemId count
  | removeStoredMoneyForContainer c =>
      refine iff_of_true ?_ trivial
      have hitems := h.items c
      show Agree (w.removeStoredMoneyForContainer c)
      unfold removeStoredMoneyForContainer
      cases hc : w.store c with
      | none => exact h
      | some container =>
          simp only [held, hc, Option.getD_some] at hitems
          rw [execute, h.setContainer] <;>
            simp +contextual [hitems, LootStatement.execute, rowsOf_deleteWhere, eq_comm]
  | removeStoredLootForContainer c =>
      refine iff_of_true ?_ trivial
      show Agree (w.removeStoredLootForContainer c)
      unfold removeStoredLootForContainer
      rw [execute, h.setContainer] <;>
        simp +contextual [LootStatement.execute, rowsOf_deleteWhere, StoredLootContainer.new,
          eq_comm]
  | restart =>
      have hheld : ∀ c, (step w .restart).held c =
          ⟨rowsOf c w.tables.items, (w.held c).money⟩ := by
        intro c
        show (loadStorageFromDB w.tables c).getD .new = _
        rw [loadStorageFromDB_eq h]
        split
        · rename_i hempty
          rw [hempty.1, hempty.2]
          rfl
        · rfl
      refine iff_of_true ⟨fun c => ?_, fun c => ?_⟩ trivial <;> rw [hheld c]
      · exact List.Perm.refl _
      · exact h.money c

/-! ## Emptied containers -/

theorem NoneEmpty.setContainer (hw : NoneEmpty w) {statements : List LootStatement}
    {container : Option StoredLootContainer} :
    NoneEmpty ((w.execute statements).setContainer c container) ↔
      ∀ k, container = some k → k.lootItems = [] → k.money ≠ 0 := by
  have hstore : ∀ c', ((w.execute statements).setContainer c container).store c' =
      if c' = c then container else w.store c' := fun c' => Function.update_apply _ _ _ _
  constructor
  · intro h k hk
    exact h c k (by rw [hstore, if_pos rfl, hk])
  · intro h c' k hk
    rw [hstore] at hk
    split at hk
    · exact h k hk
    · exact hw c' k hk

theorem noneEmpty_step_iff (h : Agree w) (hw : NoneEmpty w) (hone : DropsOne w o) :
    NoneEmpty (step w o) ↔ LeavesLoot w o := by
  cases o with
  | addNewStoredLoot loot =>
      simp only [step, addNewStoredLoot, LeavesLoot]
      split
      · rename_i hlooted
        exact iff_of_true hw fun hnot => by simp [hlooted] at hnot
      · cases hc : w.store loot.containerId with
        | some _ => exact iff_of_true hw fun _ hnone => by cases hnone
        | none => simp_all [hw.setContainer]
  | removeStoredLootItemForContainer c itemId count =>
      simp only [step, removeStoredLootItemForContainer, LeavesLoot]
      cases hc : w.store c with
      | none => simpa using hw
      | some container =>
          simp only [DropsOne, held, hc, Option.getD_some] at hone
          simp [hw.setContainer, eraseP_eq_filter hone]
  | removeStoredMoneyForContainer c =>
      simp only [step, removeStoredMoneyForContainer, LeavesLoot]
      cases hc : w.store c with
      | none => simpa using hw
      | some container => simp [hw.setContainer]
  | removeStoredLootForContainer c =>
      simp [step, removeStoredLootForContainer, LeavesLoot, hw.setContainer]
  | restart =>
      refine iff_of_true (fun c k hk hitems hmoney => ?_) trivial
      have hload := (loadStorageFromDB_eq h c).symm.trans hk
      split at hload
      · cases hload
      · rename_i hnot
        cases hload
        exact hnot ⟨hitems, hmoney⟩

/-! ## Runs -/

/-- At every moment of a run the tables have what the storage has, and a restart then offers
the same, exactly if no item is removed that has a twin; and every container is found again
exactly if besides none is left with nothing in it. -/
theorem run_brings_back_iff (ops : List Op) :
    ((∀ ops', ops' <+: ops → Agree (start.run ops') ∧ OffersSame (start.run ops')) ↔
      Along step DropsOne start ops) ∧
    ((∀ ops', ops' <+: ops → Agree (start.run ops') ∧ OffersSame (start.run ops') ∧
        FindsSame (start.run ops')) ↔
      Along step (fun w o => DropsOne w o ∧ LeavesLoot w o) start ops) := by
  have hstart : Agree start := ⟨fun _ => List.Perm.refl _, fun _ => rfl⟩
  constructor
  · exact Along.holds_iff (Q := fun w => Agree w ∧ OffersSame w) (fun w h => ⟨h, h.offersSame⟩)
      (fun w o h hone => (agree_step_iff h o).2 hone)
      (fun w o h hnext => (agree_step_iff h o).1 hnext.1) hstart
  · refine Along.holds_iff (I := fun w => Agree w ∧ NoneEmpty w)
      (Q := fun w => Agree w ∧ OffersSame w ∧ FindsSame w)
      (fun w h => ⟨h.1, h.1.offersSame, h.1.findsSame_iff.2 h.2⟩) ?_ ?_
      ⟨hstart, fun c k hk => by cases hk⟩
    · rintro w o ⟨h, hw⟩ ⟨hone, hloot⟩
      exact ⟨(agree_step_iff h o).2 hone, (noneEmpty_step_iff h hw hone).2 hloot⟩
    · rintro w o ⟨h, hw⟩ ⟨hnext, -, hfinds⟩
      have hone := (agree_step_iff h o).1 hnext
      exact ⟨hone, (noneEmpty_step_iff h hw hone).1 (hnext.findsSame_iff.1 hfinds)⟩

/-- Two stacks of one potion are stored for container 7, and one of them is looted. -/
def twoPotions : List Op :=
  let potion : StoredLootItem :=
    { itemId := 118, count := 1, followRules := true, ffa := false, blocked := false,
      counted := false, underThreshold := false, needsQuest := false, randomPropertyId := 0,
      randomSuffix := 0 }
  [.addNewStoredLoot ⟨7, 0, 2, [⟨potion, true, some false⟩, ⟨potion, true, some false⟩]⟩,
    .removeStoredLootItemForContainer 7 118 1]

/-- The other one is not there after a restart. -/
theorem twin_is_lost : ¬(Agree (start.run twoPotions) ∧ OffersSame (start.run twoPotions)) := by
  rintro ⟨-, h⟩
  have hlength := (h 7 true).2.length_eq
  revert hlength
  decide

end Sunstrider.Looting.StorageWorld
