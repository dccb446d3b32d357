import Sunstrider.Proofs.PoolCircles

/-!
# What the rows make of the groups

A row that is accepted adds one object to one list of one group, and a link to the
search map if its object has none. So a list of a group counts rows, and the map has
the mother of an object's first row. The rest of `LoadFromDB` leaves the groups of
pools alone, which makes the condition of the check for circles a condition on the
rows of `pool_pool`: each row that lies on a circle of rows is the first row of its
pool and shares its place with no other.

What the check leaves acyclic, `SpawnPool` and `DespawnPool` can go down: each pool is
higher than its sub-pools, and no pool is higher than there are templates.
-/

set_option linter.unusedSectionVars false

namespace Sunstrider.Pools

open Lib Relation

variable {F : Type} [Chance F]

namespace PoolMgr

/-- Which list of its group a row goes to. -/
def goesExplicit (m : PoolMgr F) (r : PoolRow F) : Bool :=
  (PoolObject.new r.guid r.chance).chance ≠ 0 ∧ (m.template r.poolId).maxLimit = 1

/-- The mother in the first row of a pool. -/
def firstPool (rows : List (PoolRow F)) (guid : Nat) : Option Nat :=
  (rows.find? (·.guid = guid)).map (·.poolId)

/-- How many rows put an object into one list of one group. -/
def rowCount (m : PoolMgr F) (rows : List (PoolRow F)) (b : Bool) (pool guid : Nat) : Nat :=
  rows.countP fun r => r.poolId = pool ∧ r.guid = guid ∧ m.goesExplicit r = b

variable {m : PoolMgr F}

/-! ## One row -/

theorem groups_loadEntry_ne {k k' : Kind} (hk : k' ≠ k) (pool guid q : Nat) (chance : F) :
    (m.loadEntry k pool guid chance).groups k' q = m.groups k' q := by
  unfold loadEntry
  rw [groups_setSearchMap, groups_setGroup, if_neg fun h => hk h.1]

theorem searchMap_loadEntry (k k' : Kind) (pool guid : Nat) (chance : F) :
    (m.loadEntry k pool guid chance).searchMap k' =
      if k' = k then (m.searchMap k).insertNew guid pool else m.searchMap k' := by
  unfold loadEntry
  exact searchMap_setSearchMap ..

theorem times_loadEntry (k : Kind) (r : PoolRow F) (b : Bool) (q guid : Nat) :
    (m.loadEntry k r.poolId r.guid r.chance).times k b q guid =
      m.times k b q guid +
        if r.poolId = q ∧ r.guid = guid ∧ m.goesExplicit r = b then 1 else 0 := by
  unfold times loadEntry
  rw [groups_setSearchMap, groups_setGroup]
  by_cases hq : q = r.poolId
  · subst hq
    rw [if_pos ⟨rfl, rfl⟩]
    have hlist : (PoolGroup.addEntry { m.groups k r.poolId with poolId := r.poolId }
        (PoolObject.new r.guid r.chance) (m.template r.poolId).maxLimit).listOf b =
          (m.groups k r.poolId).listOf b ++
            if m.goesExplicit r = b then [PoolObject.new r.guid r.chance] else [] := by
      unfold PoolGroup.addEntry
      by_cases hexp : (PoolObject.new r.guid r.chance).chance ≠ 0 ∧
          (m.template r.poolId).maxLimit = 1
      · have hgoes : m.goesExplicit r = true := decide_eq_true hexp
        rw [if_pos hexp, hgoes]
        cases b
        · exact (List.append_nil _).symm
        · rfl
      · have hgoes : m.goesExplicit r = false := decide_eq_false hexp
        rw [if_neg hexp, hgoes]
        cases b
        · rfl
        · exact (List.append_nil _).symm
    rw [hlist, List.countP_append]
    by_cases hgoes : m.goesExplicit r = b
    · rw [if_pos hgoes, List.countP_singleton]
      show _ + (if decide (r.guid = guid) = true then 1 else 0) = _
      by_cases hg : r.guid = guid
      · rw [if_pos (decide_eq_true hg), if_pos ⟨rfl, hg, hgoes⟩]
      · rw [if_neg fun h => hg (of_decide_eq_true h), if_neg fun h => hg h.2.1]
    · rw [if_neg hgoes, if_neg fun h => hgoes h.2.2]
      rfl
  · rw [if_neg fun h => hq h.2, if_neg fun h => hq h.1.symm]
    rfl

theorem lookup_insertNew (S : SearchMap) (guid pool c : Nat) :
    (S.insertNew guid pool).lookup c =
      (S.lookup c).or (if guid = c then some pool else none) := by
  unfold SearchMap.insertNew
  by_cases hc : guid = c
  · subst hc
    rw [if_pos rfl]
    split <;> rename_i hl
    · obtain ⟨q, hq⟩ := Option.isSome_iff_exists.1 hl
      rw [hq]
      rfl
    · rw [Option.not_isSome_iff_eq_none.1 hl, AList.lookup_insert]
      rfl
  · rw [if_neg hc, Option.or_none]
    split
    · rfl
    · exact AList.lookup_insert_ne (Ne.symm hc)

/-! ## All rows -/

section Rows

variable {k : Kind} {accept : PoolMgr F → PoolRow F → Bool}

/-- The check of a row looks at the templates only. -/
def ByTemplates (accept : PoolMgr F → PoolRow F → Bool) : Prop :=
  ∀ m m' : PoolMgr F, m.poolTemplate = m'.poolTemplate → accept m = accept m'

theorem byTemplates_acceptPool : ByTemplates (F := F) acceptPool := by
  intro m m' h
  funext r
  unfold acceptPool hasTemplate
  rw [h]

theorem poolTemplate_loadRows (rows : List (PoolRow F)) (m : PoolMgr F) :
    (loadRows k accept rows m).poolTemplate = m.poolTemplate := by
  unfold loadRows
  induction rows generalizing m with
  | nil => rfl
  | cons r rows ih =>
      rw [List.foldl_cons, ih]
      split
      · rfl
      · rfl

theorem groups_loadRows_ne {k' : Kind} (hk : k' ≠ k) (rows : List (PoolRow F))
    (m : PoolMgr F) : (loadRows k accept rows m).groups k' = m.groups k' := by
  unfold loadRows
  induction rows generalizing m with
  | nil => rfl
  | cons r rows ih =>
      rw [List.foldl_cons, ih]
      split
      · funext q
        exact groups_loadEntry_ne hk ..
      · rfl

theorem searchMap_loadRows_ne {k' : Kind} (hk : k' ≠ k) (rows : List (PoolRow F))
    (m : PoolMgr F) : (loadRows k accept rows m).searchMap k' = m.searchMap k' := by
  unfold loadRows
  induction rows generalizing m with
  | nil => rfl
  | cons r rows ih =>
      rw [List.foldl_cons, ih]
      split
      · rw [searchMap_loadEntry, if_neg hk]
      · rfl

theorem goesExplicit_congr {m' : PoolMgr F} (h : m.poolTemplate = m'.poolTemplate) :
    m.goesExplicit = m'.goesExplicit := by
  funext r
  unfold goesExplicit template
  rw [h]

theorem times_loadRows (haccept : ByTemplates accept) (rows : List (PoolRow F)) (m : PoolMgr F)
    (b : Bool) (q guid : Nat) :
    (loadRows k accept rows m).times k b q guid =
      m.times k b q guid + m.rowCount (rows.filter (accept m)) b q guid := by
  induction rows generalizing m with
  | nil => rfl
  | cons r rows ih =>
      show (loadRows k accept rows (if accept m r then _ else m)).times k b q guid = _
      by_cases hr : accept m r = true
      · rw [if_pos hr, ih, List.filter_cons_of_pos hr, times_loadEntry,
          haccept (m.loadEntry k r.poolId r.guid r.chance) m rfl]
        unfold rowCount
        have hgoes : (m.loadEntry k r.poolId r.guid r.chance).goesExplicit = m.goesExplicit :=
          goesExplicit_congr rfl
        rw [hgoes, List.countP_cons]
        simp only [decide_eq_true_eq]
        omega
      · rw [if_neg hr, ih, List.filter_cons_of_neg hr]

theorem lookup_loadRows (haccept : ByTemplates accept) (rows : List (PoolRow F))
    (m : PoolMgr F) (c : Nat) :
    ((loadRows k accept rows m).searchMap k).lookup c =
      ((m.searchMap k).lookup c).or (firstPool (rows.filter (accept m)) c) := by
  induction rows generalizing m with
  | nil => exact Option.or_none.symm
  | cons r rows ih =>
      show ((loadRows k accept rows (if accept m r then _ else m)).searchMap k).lookup c = _
      by_cases hr : accept m r = true
      · rw [if_pos hr, ih, List.filter_cons_of_pos hr, searchMap_loadEntry, if_pos rfl,
          lookup_insertNew, haccept (m.loadEntry k r.poolId r.guid r.chance) m rfl,
          Option.or_assoc]
        unfold firstPool
        rw [List.find?_cons]
        by_cases hg : r.guid = c
        · rw [if_pos hg, decide_eq_true hg]
          rfl
        · rw [if_neg hg, decide_eq_false hg]
          rfl
      · rw [if_neg hr, ih, List.filter_cons_of_neg hr]

end Rows

theorem groups_loadTemplates (rows : List (Nat × PoolTemplateData F)) (m : PoolMgr F) :
    (loadTemplates rows m).groups = m.groups ∧ (loadTemplates rows m).searchMap = m.searchMap := by
  unfold loadTemplates
  induction rows generalizing m with
  | nil => exact ⟨rfl, rfl⟩
  | cons r rows ih => exact ih _

theorem groups_loadQuests (o : ObjectMgr) (rows : List (Nat × Nat)) {k : Kind} (hk : k ≠ .quest)
    (acc : PoolMgr F × (Nat → Option QuestType)) :
    (rows.foldl (loadQuest o) acc).1.groups k = acc.1.groups k := by
  have hone : ∀ acc row, (loadQuest (F := F) o acc row).1.groups k = acc.1.groups k := by
    intro acc row
    unfold loadQuest
    dsimp only
    split
    · rfl
    · split
      · rfl
      · split
        · rfl
        · repeat' split
          all_goals first
            | rfl
            | exact funext fun q => groups_loadEntry_ne hk ..
  induction rows generalizing acc with
  | nil => rfl
  | cons row rows ih => rw [List.foldl_cons, ih, hone]

end PoolMgr

/-! ## The tables -/

namespace Tables

open PoolMgr

variable (t : Tables F)

/-- The templates alone. -/
def templates : PoolMgr F := loadTemplates t.poolTemplate empty

/-- The rows of `pool_pool` that are not skipped. -/
def acceptedPools : List (PoolRow F) := t.poolPool.filter (acceptPool t.templates)

/-- The sub-pools a pool has in the rows. -/
def Below (mother child : Nat) : Prop :=
  ∃ r ∈ t.acceptedPools, r.poolId = mother ∧ r.guid = child

/-- The check can take the row out for good: it is the first of its pool, and the only
one that puts it into its list. -/
def Removable (r : PoolRow F) : Prop :=
  firstPool t.acceptedPools r.guid = some r.poolId ∧
    t.templates.rowCount t.acceptedPools (t.templates.goesExplicit r) r.poolId r.guid ≤ 1

/-- The manager when the rows of `pool_pool` come. -/
def beforePools (o : ObjectMgr) : PoolMgr F :=
  loadRows .gameobject (acceptGameobject o) t.poolGameobject
    (loadRows .creature (acceptCreature o) t.poolCreature t.templates)

/-- The manager when those rows are read and nothing is checked yet. -/
def unchecked (o : ObjectMgr) : PoolMgr F := loadRows .pool acceptPool t.poolPool (t.beforePools o)

variable {t} (o : ObjectMgr)

theorem poolTemplate_beforePools : (t.beforePools o).poolTemplate = t.templates.poolTemplate :=
  (poolTemplate_loadRows ..).trans (poolTemplate_loadRows ..)

theorem groups_beforePools : (t.beforePools o).groups .pool = fun _ => PoolGroup.new := by
  unfold beforePools templates
  rw [groups_loadRows_ne (by decide), groups_loadRows_ne (by decide), (groups_loadTemplates ..).1]
  rfl

theorem searchMap_beforePools : (t.beforePools o).searchMap .pool = ∅ := by
  unfold beforePools templates
  rw [searchMap_loadRows_ne (by decide), searchMap_loadRows_ne (by decide),
    (groups_loadTemplates ..).2]
  rfl

theorem acceptPool_beforePools : acceptPool (t.beforePools o) = acceptPool t.templates :=
  byTemplates_acceptPool _ _ (poolTemplate_beforePools o)

theorem times_unchecked (b : Bool) (q c : Nat) :
    (t.unchecked o).times .pool b q c = t.templates.rowCount t.acceptedPools b q c := by
  unfold unchecked
  rw [times_loadRows byTemplates_acceptPool, acceptPool_beforePools]
  unfold times rowCount acceptedPools
  rw [groups_beforePools, goesExplicit_congr (poolTemplate_beforePools o)]
  cases b <;> exact Nat.zero_add _

theorem up_unchecked (c q : Nat) :
    (t.unchecked o).Up c q ↔ firstPool t.acceptedPools c = some q := by
  have hlookup : ((t.unchecked o).searchMap .pool).lookup c = firstPool t.acceptedPools c := by
    unfold unchecked
    rw [lookup_loadRows byTemplates_acceptPool, acceptPool_beforePools, searchMap_beforePools,
      AList.lookup_empty, Option.none_or]
    rfl
  exact iff_of_eq (congrArg (· = some q) hlookup)

theorem child_unchecked (q c : Nat) : (t.unchecked o).Child q c ↔ t.Below q c := by
  unfold Child Below
  constructor
  · intro ⟨b, hb⟩
    rw [times_unchecked] at hb
    obtain ⟨r, hr, hp⟩ := List.countP_pos_iff.1 hb
    have hp := of_decide_eq_true hp
    exact ⟨r, hr, hp.1, hp.2.1⟩
  · intro ⟨r, hr, hq, hc⟩
    refine ⟨t.templates.goesExplicit r, ?_⟩
    rw [times_unchecked]
    exact List.countP_pos_iff.2 ⟨r, hr, decide_eq_true ⟨hq, hc, rfl⟩⟩

/-- A row is single in the groups if and only if it is removable. -/
theorem single_unchecked (q c : Nat) : (t.unchecked o).Single q c ↔
    firstPool t.acceptedPools c = some q ∧
      ∀ b, t.templates.rowCount t.acceptedPools b q c ≤ 1 := by
  unfold Single
  rw [up_unchecked]
  refine and_congr_right fun _ => forall_congr' fun b => ?_
  rw [times_unchecked]

theorem mem_keys_of_up {c q : Nat} (h : (t.unchecked o).Up c q) :
    c ∈ t.templates.poolTemplate.keys := by
  rw [up_unchecked] at h
  unfold firstPool at h
  obtain ⟨r, hr, _⟩ := Option.map_eq_some_iff.1 h
  have hguid : r.guid = c := by
    simpa using List.find?_some hr
  have haccept := (List.mem_filter.1 (List.mem_of_find?_eq_some hr)).2
  unfold acceptPool hasTemplate at haccept
  simp only [Bool.and_eq_true] at haccept
  rw [← AList.mem_keys, ← AList.lookup_isSome, ← hguid]
  exact haccept.1.1.2

/-- The sub-pools that are left in the end. -/
theorem child_loadFromDB {order : List Nat} (horder : order.Perm t.templates.poolTemplate.keys)
    (q c : Nat) : (loadFromDB o t order).Child q c ↔
      (order.foldl checkCircle (t.unchecked o)).Child q c := by
  unfold loadFromDB
  split <;> rename_i hrows
  · have htemplates : t.templates = empty := by
      unfold templates
      rw [List.isEmpty_iff.1 hrows]
      rfl
    rw [htemplates] at horder
    rw [List.Perm.eq_nil horder]
    show _ ↔ (t.unchecked o).Child q c
    rw [child_unchecked]
    constructor
    · intro ⟨b, hb⟩
      cases b <;> exact absurd hb (Nat.lt_irrefl 0)
    · intro ⟨r, hr, _⟩
      have haccept := (List.mem_filter.1 hr).2
      rw [htemplates] at haccept
      cases haccept
  · have hgroups : (loadPools t.poolPool order (t.beforePools o)).groups =
        (order.foldl checkCircle (t.unchecked o)).groups := by
      unfold loadPools unchecked
      split <;> rename_i hempty
      · rw [List.isEmpty_iff.1 hempty]
        show _ = (order.foldl checkCircle (t.beforePools o)).groups
        rw [foldl_of_ends]
        intro p hp
        obtain ⟨y, hy, -⟩ := TransGen.head'_iff.1 hp
        rw [Up, Link, searchMap_beforePools] at hy
        cases hy
      · rfl
    have hpools := (groups_loadQuests o t.poolQuest (k := .pool) (by decide)
      (loadPools t.poolPool order (t.beforePools o), fun _ => none)).trans (congrFun hgroups .pool)
    unfold Child times
    rw [← hpools]
    rfl

end Tables

end Sunstrider.Pools
