import Sunstrider.Loot.LootMgr
import Sunstrider.Lib.Circles

/-!
# References that end

`Process` calls itself for a row that refers to a template and names no group; a
row that names one leads to the group and no further. All these calls look into
the reference table, whatever table the first template is from. So what matters is
where the rows of the reference table lead that can come up: if no circle of them
comes back to its entry, each entry has a height that drops along every call, and
as much fuel as there are rows is enough for any rolls.

If there is such a circle, rolls of zero take every row of it that can come up at
all, and no fuel is enough. Nothing at loading looks for circles.
-/

namespace Sunstrider.Looting

open Pools Lib Relation

variable {P F : Type} [Chance F]

variable {item : LootRow F} {template : LootTemplate F}

variable {process : Filling P → Option (Filling P)} {loops fuel : Nat} {entries : List (LootRow F)}

/-! ## What is loaded -/

/-- The rows of an entry that stand together. -/
def entriesOf (store : LootTemplateMap F) (id : Nat) : List (LootRow F) :=
  match store.lookup id with
  | some template => template.entries
  | none => []

/-- A row that is accepted for the entry and does not go to a group. -/
def filedFor (world : LootWorld P F) (id : Nat) (row : Nat × LootRow F) : Bool :=
  row.2.isValid world && decide (row.1 = id ∧ ¬ (0 < row.2.groupid ∧ row.2.reference = 0))

variable {world : LootWorld P F}

theorem entriesOf_loadRow (store : LootTemplateMap F) (row : Nat × LootRow F) (id : Nat) :
    entriesOf (loadRow world store row) id =
      entriesOf store id ++ if filedFor world id row then [row.2] else [] := by
  by_cases hvalid : row.2.isValid world = true
  · rw [loadRow, if_pos hvalid]
    by_cases hid : id = row.1
    · rw [hid, entriesOf, AList.lookup_insert]
      simp only [LootTemplate.addEntry]
      have hbase : ((store.lookup row.1).getD ⟨[], []⟩).entries = entriesOf store row.1 := by
        unfold entriesOf
        cases store.lookup row.1 with
        | none => rfl
        | some template => rfl
      split
      · rename_i hgroup
        rw [hbase, if_neg (by simp [filedFor, hgroup.1, hgroup.2]), List.append_nil]
      · rename_i hgroup
        rw [if_pos (by simp [filedFor, hvalid, hgroup])]
        exact congrArg (· ++ [row.2]) hbase
    · have hnot : filedFor world id row = false := by simp [filedFor, Ne.symm hid]
      rw [entriesOf, AList.lookup_insert_ne hid, hnot]
      exact (List.append_nil _).symm
  · have hnot : filedFor world id row = false := by simp [filedFor, hvalid]
    rw [loadRow, if_neg hvalid, hnot]
    exact (List.append_nil _).symm

theorem entriesOf_foldl (rows : List (Nat × LootRow F)) (store : LootTemplateMap F) (id : Nat) :
    entriesOf (rows.foldl (loadRow world) store) id =
      entriesOf store id ++ (rows.filter (filedFor world id)).map Prod.snd := by
  induction rows generalizing store with
  | nil => exact (List.append_nil _).symm
  | cons row rows ih =>
      rw [List.foldl_cons, ih, entriesOf_loadRow, List.append_assoc]
      congr 1
      rw [List.filter_cons]
      split <;> rfl

/-- A template has the accepted rows of its entry, in the order of the table. -/
theorem entriesOf_loadLootTable (rows : List (Nat × LootRow F)) (id : Nat) :
    entriesOf (loadLootTable world rows) id =
      (rows.filter (filedFor world id)).map Prod.snd := by
  rw [loadLootTable, entriesOf_foldl]
  rfl

/-! ## Rows that come up -/

variable {rolls : Rolls F} {references : LootTemplateMap F} {rate : Bool} {lootMode : Nat}

/-- Some roll lets the row come up. -/
def LootRow.MayComeUp (world : LootWorld P F) (rate : Bool) (lootMode : Nat) (item : LootRow F) :
    Prop :=
  item.lootmode &&& lootMode ≠ 0 ∧
    (((100 : Nat) : F) ≤ item.chance ∨ 0 < item.ratedChance world rate)

theorem LootRow.mayComeUp_of_roll (rolls : Rolls F) (s : Filling P)
    (hmode : item.lootmode &&& lootMode ≠ 0) (hroll : (item.roll world rolls rate s).1 = true) :
    item.MayComeUp world rate lootMode := by
  refine ⟨hmode, ?_⟩
  rw [LootRow.roll] at hroll
  split at hroll
  · rename_i hsure
    exact .inl hsure
  · exact .inr (lt_of_le_of_lt (rolls.randChance_nonneg _) (of_decide_eq_true hroll))

/-- Every roll is zero. -/
def lucky : Rolls F where
  randChance _ := 0
  randChance_nonneg _ := le_refl 0
  urand _ lo _ := lo

theorem LootRow.roll_lucky (h : item.MayComeUp world rate lootMode) (s : Filling P) :
    (item.roll world lucky rate s).1 = true := by
  rw [LootRow.roll]
  split
  · rfl
  · rename_i hsure
    exact decide_eq_true (h.2.resolve_left hsure)

/-! ## One call -/

theorem processTimes_isSome (h : 0 < loops → ∀ s, (process s).isSome) (s : Filling P) :
    (processTimes process loops s).isSome := by
  induction loops generalizing s with
  | zero => rfl
  | succ loops ih =>
      obtain ⟨s', hs'⟩ := Option.isSome_iff_exists.1 (h (Nat.succ_pos loops) s)
      rw [processTimes, hs']
      exact ih (fun _ => h (Nat.succ_pos loops)) s'

theorem processTimes_eq_none (hpos : 0 < loops) (h : ∀ s, process s = none) (s : Filling P) :
    processTimes process loops s = none := by
  cases loops with
  | zero => exact absurd hpos (Nat.lt_irrefl 0)
  | succ loops =>
      rw [processTimes, h s]
      rfl

/-- The entries are got through if every call that may be made comes back. -/
theorem processEntries_isSome {process : LootTemplate F → Nat → Filling P → Option (Filling P)}
    (h : ∀ item ∈ entries, item.MayComeUp world rate lootMode → 0 < item.reference →
      0 < item.maxcount → ∀ referenced, references.lookup item.reference = some referenced → ∀ s,
      (process referenced item.groupid s).isSome)
    (s : Filling P) :
    (processEntries world rolls references rate lootMode process entries s).isSome := by
  induction entries generalizing s with
  | nil => rfl
  | cons item entries ih =>
      have hnext := ih fun item' hmem => h item' (List.mem_cons_of_mem _ hmem)
      simp only [processEntries]
      split
      · exact hnext s
      · rename_i hmode
        split
        · exact hnext _
        · rename_i s' hroll
          have hmay : item.MayComeUp world rate lootMode :=
            LootRow.mayComeUp_of_roll rolls s hmode (by rw [hroll])
          split
          · rename_i href
            split
            · exact hnext s'
            · rename_i referenced hlookup
              obtain ⟨s'', hs''⟩ := Option.isSome_iff_exists.1 (processTimes_isSome
                (fun hmax => h item List.mem_cons_self hmay href hmax referenced hlookup) s')
              rw [hs'']
              exact hnext s''
          · exact hnext _

/-- They are not if one that comes up never comes back. -/
theorem processEntries_eq_none {process : LootTemplate F → Nat → Filling P → Option (Filling P)}
    (hmem : item ∈ entries) (hmay : item.MayComeUp world rate lootMode)
    (href : 0 < item.reference) (hmax : 0 < item.maxcount) {referenced : LootTemplate F}
    (hlookup : references.lookup item.reference = some referenced)
    (h : ∀ s, process referenced item.groupid s = none) (s : Filling P) :
    processEntries world lucky references rate lootMode process entries s = none := by
  induction entries generalizing s with
  | nil => cases hmem
  | cons first entries ih =>
      simp only [processEntries]
      rcases List.mem_cons.1 hmem with heq | hmem
      · rw [← heq, if_neg hmay.1]
        have hroll := LootRow.roll_lucky hmay s
        split
        · rename_i s' hfalse
          rw [hfalse] at hroll
          cases hroll
        · rename_i s' _
          rw [if_pos href, hlookup]
          simp only
          rw [processTimes_eq_none hmax h]
          rfl
      · have hnext := ih hmem
        split
        · exact hnext s
        · split
          · exact hnext _
          · split
            · split
              · exact hnext _
              · exact Option.bind_eq_none_iff.2 fun s'' _ => hnext s''
            · exact hnext _

/-! ## Circles of rows -/

/-- A row of the reference table leads from its entry to a whole template: it is
accepted, may come up, names no group and is processed at least once. -/
def Refers (world : LootWorld P F) (rows : List (Nat × LootRow F)) (rate : Bool)
    (lootMode : Nat) (id reference : Nat) : Prop :=
  ∃ row ∈ rows, row.1 = id ∧ row.2.isValid world = true ∧
    row.2.MayComeUp world rate lootMode ∧ 0 < row.2.reference ∧ row.2.reference = reference ∧
    0 < row.2.maxcount ∧ row.2.groupid = 0

variable {rows : List (Nat × LootRow F)} {id reference : Nat}

theorem refers_iff : Refers world rows rate lootMode id reference ↔
    ∃ item ∈ entriesOf (loadLootTable world rows) id, item.MayComeUp world rate lootMode ∧
      0 < item.reference ∧ item.reference = reference ∧ 0 < item.maxcount ∧ item.groupid = 0 := by
  rw [entriesOf_loadLootTable]
  constructor
  · rintro ⟨row, hmem, hid, hvalid, hmay, href, heq, hmax, hgroup⟩
    refine ⟨row.2, List.mem_map.2 ⟨row, List.mem_filter.2 ⟨hmem, ?_⟩, rfl⟩, hmay, href, heq, hmax,
      hgroup⟩
    simp [filedFor, hvalid, hid, hgroup]
  · rintro ⟨item, hmem, hmay, href, heq, hmax, hgroup⟩
    obtain ⟨row, hrow, rfl⟩ := List.mem_map.1 hmem
    obtain ⟨hin, hfiled⟩ := List.mem_filter.1 hrow
    simp only [filedFor, Bool.and_eq_true, decide_eq_true_eq] at hfiled
    exact ⟨row, hin, hfiled.2.1, hfiled.1, hmay, href, heq, hmax, hgroup⟩

omit [Chance F] in
theorem entries_of_lookup {store : LootTemplateMap F} (h : store.lookup id = some template) :
    entriesOf store id = template.entries := by
  rw [entriesOf, h]

/-- A group is processed without another call. -/
theorem process_group_isSome {groupId : Nat} (hgroup : 0 < groupId) (template : LootTemplate F)
    (s : Filling P) :
    (template.process world rolls references rate lootMode (fuel + 1) groupId s).isSome := by
  rw [LootTemplate.process, if_pos hgroup]
  split <;> rfl

/-- With a height that drops along the references, fuel for the highest is enough. -/
theorem process_isSome {height : Nat → Nat}
    (hheight : ∀ id reference, Refers world rows rate lootMode id reference →
      height reference < height id)
    (hfuel : 1 ≤ fuel)
    (hentries : ∀ item ∈ template.entries, item.groupid = 0 → item.MayComeUp world rate lootMode →
      0 < item.reference → 0 < item.maxcount → height item.reference + 2 ≤ fuel)
    (groupId : Nat) (s : Filling P) :
    (template.process world rolls (loadLootTable world rows) rate lootMode (fuel + 1) groupId
      s).isSome := by
  induction fuel generalizing template groupId s with
  | zero => omega
  | succ fuel ih =>
      rcases Nat.eq_zero_or_pos groupId with rfl | hgroup
      · rw [LootTemplate.process, if_neg (Nat.lt_irrefl 0)]
        have hcalls : (processEntries world rolls (loadLootTable world rows) rate lootMode
            (LootTemplate.process world rolls (loadLootTable world rows) rate lootMode (fuel + 1))
              template.entries s).isSome := by
          refine processEntries_isSome ?_ s
          intro item hmem hmay href hmax referenced hlookup s
          rcases Nat.eq_zero_or_pos item.groupid with hzero | hpos
          · have hhigh := hentries item hmem hzero hmay href hmax
            refine ih (by omega) ?_ item.groupid s
            intro item' hmem' hzero' hmay' href' hmax'
            have hrefers : Refers world rows rate lootMode item.reference item'.reference :=
              refers_iff.2 ⟨item', by rwa [entries_of_lookup hlookup], hmay', href', rfl, hmax',
                hzero'⟩
            have hlower := hheight _ _ hrefers
            omega
          · exact process_group_isSome hpos referenced s
        obtain ⟨s', hs'⟩ := Option.isSome_iff_exists.1 hcalls
        rw [hs']
        rfl
      · exact process_group_isSome hgroup template s

/-- On a circle no fuel is enough, if every roll is zero. -/
theorem process_eq_none (hcircle : TransGen (Refers world rows rate lootMode) id id)
    (hlookup : (loadLootTable world rows).lookup id = some template) (fuel : Nat) (s : Filling P) :
    template.process world lucky (loadLootTable world rows) rate lootMode fuel 0 s = none := by
  induction fuel generalizing id template s with
  | zero => rfl
  | succ fuel ih =>
      obtain ⟨next, hrefers, hback⟩ := TransGen.head'_iff.1 hcircle
      have hnext : TransGen (Refers world rows rate lootMode) next next := .tail' hback hrefers
      obtain ⟨item, hmem, hmay, href, rfl, hmax, hzero⟩ := refers_iff.1 hrefers
      -- what it refers to has rows itself, or it would not be on a circle
      obtain ⟨referenced, hreferenced⟩ : ∃ referenced,
          (loadLootTable world rows).lookup item.reference = some referenced := by
        obtain ⟨_, hrefers', -⟩ := TransGen.head'_iff.1 hnext
        obtain ⟨item', hmem', -⟩ := refers_iff.1 hrefers'
        cases hfound : (loadLootTable world rows).lookup item.reference with
        | none =>
            rw [entriesOf, hfound] at hmem'
            cases hmem'
        | some referenced => exact ⟨referenced, rfl⟩
      rw [entries_of_lookup hlookup] at hmem
      rw [LootTemplate.process, if_neg (Nat.lt_irrefl 0),
        processEntries_eq_none hmem hmay href hmax hreferenced (fun s => ?_) s]
      · rfl
      · rw [hzero]
        exact ih hnext hreferenced s

/-! ## The loot tables -/

/-- The stores of the loot manager. -/
inductive LootStoreName
  | creature | disenchant | fishing | gameobject | item | mail | pickpocketing | prospecting
  | reference | skinning
deriving DecidableEq, Repr

/-- With enough calls open at once, processing a template comes back. -/
def Terminates (world : LootWorld P F) (references : LootTemplateMap F)
    (template : LootTemplate F) : Prop :=
  ∀ (rolls : Rolls F) (rate : Bool) (lootMode groupId : Nat) (s : Filling P),
    ∃ enough, ∀ fuel, enough ≤ fuel →
      (template.process world rolls references rate lootMode fuel groupId s).isSome

/-- Every template of every store can be processed, whatever the rolls, if and only if
no circle of rows of the reference table leads back to its entry. -/
theorem process_terminates_iff (world : LootWorld P F)
    (tables : LootStoreName → List (Nat × LootRow F)) :
    (∀ name id template, (loadLootTable world (tables name)).lookup id = some template →
      Terminates world (loadLootTable world (tables .reference)) template) ↔
    ∀ rate lootMode, Acyclic (Refers world (tables .reference) rate lootMode) := by
  constructor
  · intro hall rate lootMode id hcircle
    obtain ⟨_, hrefers, -⟩ := TransGen.head'_iff.1 hcircle
    obtain ⟨item, hmem, -⟩ := refers_iff.1 hrefers
    cases hlookup : (loadLootTable world (tables .reference)).lookup id with
    | none =>
        rw [entriesOf, hlookup] at hmem
        cases hmem
    | some template =>
        obtain ⟨enough, hsome⟩ := hall .reference id template hlookup lucky rate lootMode 0
          ⟨Loot.empty 0, 0⟩
        have henough := hsome enough (Nat.le_refl enough)
        rw [process_eq_none hcircle hlookup] at henough
        cases henough
  · intro hacyclic name id template _ rolls rate lootMode groupId s
    obtain ⟨height, hle, hheight⟩ := (hacyclic rate lootMode).exists_height
      ((tables .reference).map fun row => row.2.reference).toFinset (by
        rintro _ reference ⟨row, hmem, -, -, -, -, rfl, -⟩
        exact List.mem_toFinset.2 (List.mem_map.2 ⟨row, hmem, rfl⟩))
    refine ⟨((tables .reference).map fun row => row.2.reference).toFinset.card + 3, ?_⟩
    intro fuel hfuel
    obtain ⟨fuel, rfl⟩ : ∃ n, fuel = n + 1 := ⟨fuel - 1, by omega⟩
    refine process_isSome hheight (by omega) (fun item _ _ _ _ _ => ?_) groupId s
    have := hle item.reference
    omega

/-! Row 1 of the reference table refers to itself. -/

def noTemplates : LootWorld Nat ℚ where
  template _ := none
  allowedForPlayer _ _ := false
  canStoreNewItem _ _ _ := false
  group _ := none
  rateDropItem _ := 1
  rateDropItemReferenced := 1

def selfReference : LootRow ℚ := ⟨⟨0, false, []⟩, 1, 100, 1, 0, 1, 1⟩

def selfTables : LootStoreName → List (Nat × LootRow ℚ)
  | .reference => [(1, selfReference)]
  | _ => []

theorem selfReference_never_ends :
    selfReference.isValid noTemplates = true ∧
      ∃ template, (loadLootTable noTemplates (selfTables .reference)).lookup 1 = some template ∧
        ∀ (fuel : Nat) (s : Filling Nat), template.process noTemplates lucky
          (loadLootTable noTemplates (selfTables .reference)) true 1 fuel 0 s = none := by
  have hvalid : selfReference.isValid noTemplates = true := by decide
  have hrefers : Refers noTemplates (selfTables .reference) true 1 1 1 :=
    ⟨(1, selfReference), List.mem_singleton.2 rfl, rfl, hvalid, ⟨by decide, .inl (by decide)⟩,
      by decide, rfl, by decide, rfl⟩
  refine ⟨hvalid, ⟨[selfReference], []⟩, rfl, fun fuel s => ?_⟩
  exact process_eq_none (.single hrefers) rfl fuel s

end Sunstrider.Looting
