import Sunstrider.Proofs.LootTape

/-!
# Runs that give a quest item

What a row says is not what comes of it. A row of another loot mode never comes up, and
one behind a sure row of its group is never reached. But where nothing of the kind is in
the way of a row that needs a quest, some run gives it: the rolls on the way to it are
chosen, one call after the other, and all others are what they may.

A group passes over the items that are in the loot. What has come before may put the
same item there as one that needs no quest, and the group would then pass over it.
`alone` is that no row does so; it is asked for where a group gives the row.
-/

namespace Sunstrider.Looting

open Pools Lib

variable {P F : Type} [Chance F]
variable {store references : LootTemplateMap F} {template : LootTemplate F} {groupId : Nat}
variable {world : LootWorld P F} {rate : Bool} {lootMode : Nat} {item : LootRow F}

/-! ## Accepted rows -/

/-- Every row is accepted, and those of the groups refer to nothing. -/
structure Accepted (world : LootWorld P F) (template : LootTemplate F) : Prop where
  entries : ∀ item ∈ template.entries, item.isValid world = true
  groups : ∀ group, some group ∈ template.groups → ∀ item ∈ group.rows,
    item.isValid world = true ∧ item.reference = 0

omit [Chance F] in
theorem mem_resizeGroups {groupid : Nat} {groups : List (Option (LootTemplateGroup F))}
    {group : LootTemplateGroup F} (h : some group ∈ resizeGroups groupid groups) :
    some group ∈ groups := by
  unfold resizeGroups at h
  split at h
  · rcases List.mem_append.1 h with h | h
    · exact h
    · cases List.eq_of_mem_replicate h
  · exact h

theorem mem_rows_addEntry {group : LootTemplateGroup F} {item' : LootRow F}
    (h : item' ∈ (group.addEntry item).rows) : item' = item ∨ item' ∈ group.rows := by
  unfold LootTemplateGroup.addEntry LootTemplateGroup.rows at h
  unfold LootTemplateGroup.rows
  split at h
  · simp only [List.mem_append, List.mem_singleton] at h ⊢
    tauto
  · simp only [List.mem_append, List.mem_singleton] at h ⊢
    tauto

theorem addEntry_accepted (h : Accepted world template) (hvalid : item.isValid world = true) :
    Accepted world (template.addEntry item) := by
  unfold LootTemplate.addEntry
  split
  · rename_i hgroup
    refine ⟨h.entries, fun group hmem row hrow => ?_⟩
    obtain ⟨i, hi⟩ := List.mem_iff_getElem?.1 hmem
    dsimp only at hi
    rw [List.getElem?_modify] at hi
    obtain ⟨slot, hslot, heq⟩ := Option.map_eq_some_iff.1 hi
    have hold : ∀ group, slot = some group → some group ∈ template.groups := by
      intro group hgroup
      rw [hgroup] at hslot
      exact mem_resizeGroups (List.mem_of_getElem? hslot)
    split at heq
    · cases heq
      rcases mem_rows_addEntry hrow with rfl | hrow
      · exact ⟨hvalid, hgroup.2⟩
      · cases slot with
        | none => cases hrow
        | some group => exact h.groups group (hold group rfl) row hrow
    · exact h.groups group (hold group heq) row hrow
  · refine ⟨fun row hrow => ?_, h.groups⟩
    rcases List.mem_append.1 hrow with hrow | hrow
    · exact h.entries row hrow
    · cases List.mem_singleton.1 hrow
      exact hvalid

/-- What is loaded is accepted. -/
theorem loadLootTable_accepted (rows : List (Nat × LootRow F)) {id : Nat}
    (h : (loadLootTable world rows).lookup id = some template) : Accepted world template := by
  have hload : ∀ (rows : List (Nat × LootRow F)) (store : LootTemplateMap F),
      (∀ id template, store.lookup id = some template → Accepted world template) →
      ∀ id template, (rows.foldl (loadRow world) store).lookup id = some template →
        Accepted world template := by
    intro rows
    induction rows with
    | nil => exact fun store hall => hall
    | cons row rows ih =>
        intro store hall
        refine ih _ fun id template hlookup => ?_
        unfold loadRow at hlookup
        split at hlookup
        · rename_i hvalid
          by_cases hid : id = row.1
          · rw [hid, AList.lookup_insert] at hlookup
            cases hlookup
            refine addEntry_accepted ?_ hvalid
            cases hold : store.lookup row.1 with
            | none => exact ⟨fun _ hmem => (by cases hmem), fun _ hmem => (by cases hmem)⟩
            | some template => exact hall row.1 template hold
          · rw [AList.lookup_insert_ne hid] at hlookup
            exact hall id template hlookup
        · exact hall id template hlookup
  exact hload rows ∅ (fun _ _ hnone => (by cases hnone)) id template h

theorem gives_accepted (haccepted : Accepted world template)
    (hreferences : ∀ id template, references.lookup id = some template → Accepted world template)
    (h : Gives references template groupId item) :
    item.isValid world = true ∧ item.reference = 0 := by
  induction h with
  | entry hmem href => exact ⟨haccepted.entries _ hmem, Nat.eq_zero_of_not_pos href⟩
  | group hslot hmem => exact haccepted.groups _ hslot _ hmem
  | named _ hslot hmem => exact haccepted.groups _ (List.mem_of_getElem? hslot) _ hmem
  | reference _ _ hlookup _ ih => exact ih (hreferences _ _ hlookup)

/-! ## What is kept -/

/-- What stays as it is while rows like these are added. -/
def Kept (rows : LootRow F → Prop) (K : Filling P → Prop) : Prop :=
  ∀ s s', Fills rows s s' → K s → K s'

def HasQuestItem (s : Filling P) : Prop := s.loot.questItems ≠ []

/-- A group would not pass over the row. -/
def Untaken (alone : Prop) (item : LootRow F) (s : Filling P) : Prop :=
  alone → ∀ i ∈ s.loot.items, i.itemid ≠ item.itemid

variable {rows : LootRow F → Prop} {alone : Prop} {K : Filling P → Prop}

omit [Chance F] in
theorem hasQuestItem_kept : Kept rows (HasQuestItem (P := P)) := fun _ _ h => h.kept

omit [Chance F] in
theorem untaken_kept
    (halone : alone → ∀ row, rows row → row.needsQuest = false → row.itemid ≠ item.itemid) :
    Kept rows (Untaken (P := P) alone item) := by
  intro s s' h hs hyes i hi
  rcases h.items i hi with hi | ⟨row, hrow, hneeds, hid⟩
  · exact hs hyes i hi
  · rw [hid]
    exact halone hyes row hrow hneeds

section Always

variable {fuel : Nat} (hkept : Kept (Gives references template 0) K)

include hkept

theorem rowStep_always (hmem : item ∈ template.entries)
    (hsome : ∀ (tape : Nat → Draw F) (s : Filling P),
      (rowStep world references rate lootMode fuel item tape s).isSome) :
    Drawing.Always K (rowStep world references rate lootMode fuel item) K := by
  intro tape s hs
  obtain ⟨s', hs'⟩ := Option.isSome_iff_exists.1 (hsome tape s)
  exact ⟨s', hs', hkept s s' (rowStep_fills hmem hs') hs⟩

theorem groupStep_always {group : Option (LootTemplateGroup F)} (hmem : group ∈ template.groups) :
    Drawing.Always K (groupStep world lootMode group) K := by
  intro tape s hs
  cases group with
  | none => exact ⟨s, rfl, hs⟩
  | some group =>
      refine ⟨_, rfl, hkept s _ ?_ hs⟩
      exact (process_group_fills group lootMode s).mono fun row hrow => .group hmem hrow

end Always

theorem process_always {fuel : Nat} (hkept : Kept (Gives references template groupId) K)
    (hsome : ∀ (tape : Nat → Draw F) (s : Filling P),
      (template.process world (Rolls.ofTape tape) references rate lootMode fuel groupId s).isSome) :
    Drawing.Always K (fun (tape : Nat → Draw F) s =>
      template.process world (Rolls.ofTape tape) references rate lootMode fuel groupId s) K := by
  intro tape s hs
  obtain ⟨s', hs'⟩ := Option.isSome_iff_exists.1 (hsome tape s)
  exact ⟨s', hs', hkept s s' (process_fills hs') hs⟩

theorem process_isSome_of_settled (world : LootWorld P F) (rate : Bool) (lootMode : Nat)
    (hsettled : groupId = 0 → Settled store references template) :
    ∃ enough, ∀ fuel, enough ≤ fuel → ∀ (tape : Nat → Draw F) (s : Filling P),
      (template.process world (Rolls.ofTape tape) references rate lootMode fuel groupId
        s).isSome := by
  rcases Nat.eq_zero_or_pos groupId with rfl | hgroup
  · obtain ⟨enough, hrows⟩ := rows_isSome world rate lootMode (hsettled rfl)
    refine ⟨enough + 1, fun fuel hfuel tape s => ?_⟩
    obtain ⟨fuel, rfl⟩ : ∃ n, fuel = n + 1 := ⟨fuel - 1, by omega⟩
    exact process_isSome_of_rows (fun item hmem => hrows item hmem fuel (by omega)) tape s
  · refine ⟨1, fun fuel hfuel tape s => ?_⟩
    obtain ⟨fuel, rfl⟩ : ∃ n, fuel = n + 1 := ⟨fuel - 1, by omega⟩
    exact process_group_isSome hgroup template s

/-! ## What is chosen -/

/-- Zero, and the lower end of a range. -/
def Draw.zero (hundred : (0 : F) < ((100 : Nat) : F)) : Draw F where
  percent := 0
  nonneg := le_refl 0
  lt := hundred
  pick lo _ := lo
  pick_mem lo _ h := ⟨Nat.le_refl lo, h⟩

/-- Whatever else is in the loot, on some tape the group gives the row. -/
def LootTemplateGroup.MayGive (P : Type) (lootMode : Nat) (group : LootTemplateGroup F)
    (item : LootRow F) : Prop :=
  ∀ s : Filling P, (∀ i ∈ s.loot.items, i.itemid ≠ item.itemid) →
    ∃ tape, (group.roll (Rolls.ofTape tape) lootMode s).1 = some item

/-- A row of the template that nothing is in the way of. -/
inductive Drops (world : LootWorld P F) (references : LootTemplateMap F) (rate : Bool)
    (lootMode : Nat) (alone : Prop) (item : LootRow F) : LootTemplate F → Nat → Prop
  | entry {template : LootTemplate F} :
      item ∈ template.entries → ¬ 0 < item.reference → item.MayComeUp world rate lootMode →
        Drops world references rate lootMode alone item template 0
  | group {template : LootTemplate F} {group : LootTemplateGroup F} :
      alone → some group ∈ template.groups → group.MayGive P lootMode item →
        Drops world references rate lootMode alone item template 0
  | named {template : LootTemplate F} {groupId : Nat} {group : LootTemplateGroup F} :
      alone → 0 < groupId → template.groups[groupId - 1]? = some (some group) →
        group.MayGive P lootMode item →
        Drops world references rate lootMode alone item template groupId
  | reference {template referenced : LootTemplate F} {link : LootRow F} :
      link ∈ template.entries → 0 < link.reference → 0 < link.maxcount →
        link.MayComeUp world rate lootMode →
        references.lookup link.reference = some referenced →
        Drops world references rate lootMode alone item referenced link.groupid →
        Drops world references rate lootMode alone item template 0

/-- What `IsValid` asks of a row that gives an item. -/
theorem isValid_item (haccepted : item.isValid world = true ∧ item.reference = 0) :
    (∃ proto, world.template item.itemid = some proto) ∧ 0 < item.mincount ∧
      item.mincount ≤ item.maxcount := by
  obtain ⟨hvalid, href⟩ := haccepted
  unfold LootRow.isValid at hvalid
  rw [if_pos href] at hvalid
  split at hvalid
  · cases hvalid
  rename_i hmin
  split at hvalid
  · cases hvalid
  rename_i hknown
  split at hvalid
  · cases hvalid
  split at hvalid
  · cases hvalid
  split at hvalid
  · cases hvalid
  rename_i hmax
  refine ⟨Option.ne_none_iff_exists'.1 fun hnone => hknown ?_, by omega, by omega⟩
  rw [hnone]
  rfl

/-- A count that is not zero makes a stack. -/
theorem stacks_pos {count : Nat} (hcount : 0 < count) (size : Nat) :
    0 < count / size + if count % size = 0 then 0 else 1 := by
  split
  · rename_i hrest
    have hle : size ≤ count := Nat.le_of_dvd hcount (Nat.dvd_of_mod_eq_zero hrest)
    have hsize : 0 < size := by
      refine Nat.pos_of_ne_zero fun hzero => ?_
      rw [hzero, Nat.mod_zero] at hrest
      omega
    exact Nat.div_pos hle hsize
  · exact Nat.succ_pos _

/-- A row that needs a quest leaves a quest item when it is added. -/
theorem addItem_gives (haccepted : item.isValid world = true ∧ item.reference = 0)
    (hneeds : item.needsQuest = true) (tape : Nat → Draw F) (s : Filling P) :
    HasQuestItem (s.addItem world (Rolls.ofTape tape) item) := by
  obtain ⟨⟨proto, hproto⟩, hmin, hmax⟩ := isValid_item haccepted
  have hcount : item.mincount ≤ (Rolls.ofTape tape).urand s.drawn item.mincount item.maxcount :=
    ((tape s.drawn).pick_mem item.mincount item.maxcount hmax).1
  unfold HasQuestItem Filling.addItem
  rw [hproto]
  dsimp only
  unfold Loot.addItem
  rw [hproto]
  exact addStacks_gives hneeds proto (stacks_pos (by omega) _) _ _

section Steps

variable (haccepted : item.isValid world = true ∧ item.reference = 0)
variable (hneeds : item.needsQuest = true)

include haccepted hneeds

theorem process_group_gives {group : LootTemplateGroup F} (hmay : group.MayGive P lootMode item)
    {s : Filling P} (hfree : ∀ i ∈ s.loot.items, i.itemid ≠ item.itemid) :
    ∃ tape, HasQuestItem (group.process world (Rolls.ofTape tape) lootMode s) := by
  obtain ⟨tape, hroll⟩ := hmay s hfree
  refine ⟨tape, ?_⟩
  unfold LootTemplateGroup.process
  cases hpair : group.roll (Rolls.ofTape tape) lootMode s with
  | mk given t =>
      rw [hpair] at hroll
      cases hroll
      exact addItem_gives haccepted hneeds tape t

theorem groupStep_sometimes {group : LootTemplateGroup F} (hmay : group.MayGive P lootMode item)
    (halone : alone) :
    Drawing.Sometimes (Untaken alone item) (groupStep world lootMode (some group))
      HasQuestItem := by
  intro s hs
  obtain ⟨tape, hgives⟩ := process_group_gives haccepted hneeds hmay (hs halone)
  exact ⟨tape, _, rfl, hgives⟩

theorem rowStep_entry (hundred : (0 : F) < ((100 : Nat) : F)) (fuel : Nat)
    (hmay : item.MayComeUp world rate lootMode) :
    Drawing.Sometimes (Untaken alone item)
      (rowStep world references rate lootMode fuel item) HasQuestItem := by
  intro s _
  have hroll : (item.roll world (Rolls.ofTape fun _ => Draw.zero hundred) rate s).1 = true :=
    LootRow.roll_lucky hmay s
  cases hpair : item.roll world (Rolls.ofTape fun _ => Draw.zero hundred) rate s with
  | mk up t =>
      rw [hpair] at hroll
      cases hroll
      refine ⟨fun _ => Draw.zero hundred, t.addItem world (Rolls.ofTape fun _ => Draw.zero hundred)
        item, ?_, addItem_gives haccepted hneeds _ t⟩
      unfold rowStep entryStep
      rw [if_neg hmay.1, hpair, haccepted.2]
      rfl

end Steps

theorem processTimes_always {X : Drawing (Draw F) (Filling P)} (hX : Drawing.Always K X K)
    (loops : Nat) : Drawing.Always K (fun tape s => processTimes (X tape) loops s) K := by
  induction loops with
  | zero => exact fun tape s hs => ⟨s, rfl, hs⟩
  | succ loops ih => exact hX.andThen ih

/-- A reference that comes up has its template processed, and once is enough. -/
theorem rowStep_reference {link : LootRow F} {referenced : LootTemplate F} {fuel : Nat}
    (hundred : (0 : F) < ((100 : Nat) : F)) (hmay : link.MayComeUp world rate lootMode)
    (href : 0 < link.reference) (hmax : 0 < link.maxcount)
    (hlookup : references.lookup link.reference = some referenced)
    (hsome : ∀ (tape : Nat → Draw F) (s : Filling P),
      (referenced.process world (Rolls.ofTape tape) references rate lootMode fuel link.groupid
        s).isSome)
    (hsometimes : Drawing.Sometimes (Untaken alone item) (fun (tape : Nat → Draw F) s =>
      referenced.process world (Rolls.ofTape tape) references rate lootMode fuel link.groupid s)
      HasQuestItem) :
    Drawing.Sometimes (Untaken alone item)
      (rowStep world references rate lootMode fuel link) HasQuestItem := by
  let zeros : Nat → Draw F := fun _ => Draw.zero hundred
  let X : Drawing (Draw F) (Filling P) := fun tape s =>
    referenced.process world (Rolls.ofTape tape) references rate lootMode fuel link.groupid s
  have hreads : Drawing.Reads Filling.drawn X := process_reads fuel referenced link.groupid
  obtain ⟨loops, hloops⟩ : ∃ n, link.maxcount = n + 1 := ⟨link.maxcount - 1, by omega⟩
  -- the first of the calls gives it, the others keep it
  have hcalls : Drawing.Sometimes (Untaken alone item)
      (fun tape s => processTimes (X tape) (loops + 1) s) HasQuestItem :=
    hsometimes.andThen hreads (processTimes_reads hreads loops)
      ((processTimes_always (process_always hasQuestItem_kept hsome) loops).sometimes zeros)
  intro s hs
  have hroll : (link.roll world (Rolls.ofTape zeros) rate s).1 = true :=
    LootRow.roll_lucky hmay s
  have hloot := roll_entry_loot world (Rolls.ofTape zeros) rate link s
  cases hpair : link.roll world (Rolls.ofTape zeros) rate s with
  | mk up t =>
      rw [hpair] at hroll hloot
      cases hroll
      obtain ⟨tape, s', hrun, hquest⟩ := hcalls t fun hyes i hi => hs hyes i (hloot ▸ hi)
      let both := Drawing.splice t.drawn zeros tape
      have hagain := (roll_alike world zeros both rate link s).2
      rw [hpair] at hagain
      refine ⟨both, s', ?_, hquest⟩
      unfold rowStep entryStep
      rw [if_neg hmay.1, hagain fun n _ hn => if_pos hn]
      dsimp only
      rw [if_pos href, hlookup, hloops]
      exact (processTimes_reads hreads (loops + 1)).agree hrun fun n hn _ =>
        if_neg (Nat.not_lt_of_ge hn)

/-- Where nothing is in the way of a row, there is a run that gives it. -/
theorem Drops.sometimes (hundred : (0 : F) < ((100 : Nat) : F))
    (haccepted : item.isValid world = true ∧ item.reference = 0)
    (hneeds : item.needsQuest = true)
    (halone : alone → ∀ row, rows row → row.needsQuest = false → row.itemid ≠ item.itemid)
    (h : Drops world references rate lootMode alone item template groupId)
    (hsettled : groupId = 0 → Settled store references template)
    (hrows : ∀ row, Gives references template groupId row → rows row) :
    ∃ enough, ∀ fuel, enough ≤ fuel →
      Drawing.Sometimes (Untaken alone item) (fun (tape : Nat → Draw F) s =>
        template.process world (Rolls.ofTape tape) references rate lootMode fuel groupId s)
        HasQuestItem := by
  let zeros : Nat → Draw F := fun _ => Draw.zero hundred
  have huntaken : ∀ {template : LootTemplate F} {groupId : Nat},
      (∀ row, Gives references template groupId row → rows row) →
      Kept (Gives references template groupId) (Untaken (P := P) alone item) :=
    fun hrows => untaken_kept fun hyes row hrow => halone hyes row (hrows row hrow)
  -- a row of the entries that can give it is enough
  have hentry : ∀ {template : LootTemplate F} {row : LootRow F} {fuel : Nat},
      (∀ row, Gives references template 0 row → rows row) → row ∈ template.entries →
      (∀ row ∈ template.entries, ∀ (tape : Nat → Draw F) (s : Filling P),
        (rowStep world references rate lootMode fuel row tape s).isSome) →
      Drawing.Sometimes (Untaken alone item) (rowStep world references rate lootMode fuel row)
        HasQuestItem →
      Drawing.Sometimes (Untaken alone item) (fun (tape : Nat → Draw F) s =>
        template.process world (Rolls.ofTape tape) references rate lootMode (fuel + 1) 0 s)
        HasQuestItem := by
    intro template row fuel hrows hmem hsome hrow
    simp only [process_eq]
    have hreads : ∀ row ∈ template.entries,
        Drawing.Reads Filling.drawn (rowStep world references rate lootMode fuel row) :=
      fun row _ => entryStep_reads fun referenced => process_reads fuel referenced row.groupid
    have hentries := Drawing.Sometimes.inOrder zeros hmem hreads
      (fun row hmem => rowStep_always (huntaken hrows) hmem (hsome row hmem))
      (fun row hmem => rowStep_always hasQuestItem_kept hmem (hsome row hmem)) hrow
    have hquest : Kept (Gives references template 0) (HasQuestItem (P := P)) := hasQuestItem_kept
    have hgroups : Drawing.Always HasQuestItem
        (Drawing.inOrder (groupStep world lootMode) template.groups) HasQuestItem :=
      .inOrder fun group hmem => groupStep_always hquest hmem
    exact hentries.andThen (.inOrder hreads) (.inOrder fun group _ => groupStep_reads ..)
      (hgroups.sometimes zeros)
  induction h with
  | entry hmem href hmay =>
      obtain ⟨enough, hsome⟩ := rows_isSome world rate lootMode (hsettled rfl)
      refine ⟨enough + 1, fun fuel hfuel => ?_⟩
      obtain ⟨fuel, rfl⟩ : ∃ n, fuel = n + 1 := ⟨fuel - 1, by omega⟩
      exact hentry hrows hmem (fun row hmem => hsome row hmem fuel (by omega))
        (rowStep_entry haccepted hneeds hundred fuel hmay)
  | @group template group hyes hslot hmay =>
      obtain ⟨enough, hsome⟩ := rows_isSome world rate lootMode (hsettled rfl)
      refine ⟨enough + 1, fun fuel hfuel => ?_⟩
      obtain ⟨fuel, rfl⟩ : ∃ n, fuel = n + 1 := ⟨fuel - 1, by omega⟩
      simp only [process_eq]
      have hentries : Drawing.Always (Untaken alone item)
          (Drawing.inOrder (rowStep world references rate lootMode fuel) template.entries)
          (Untaken alone item) :=
        .inOrder fun row hmem => rowStep_always (huntaken hrows) hmem
          (hsome row hmem fuel (by omega))
      have hquest : Kept (Gives references template 0) (HasQuestItem (P := P)) := hasQuestItem_kept
      have hgroups := Drawing.Sometimes.inOrder zeros hslot
        (fun group _ => groupStep_reads world lootMode group)
        (fun group hmem => groupStep_always (huntaken hrows) hmem)
        (fun group hmem => groupStep_always hquest hmem)
        (groupStep_sometimes haccepted hneeds hmay hyes)
      exact (hentries.sometimes zeros).andThen
        (.inOrder fun row _ => entryStep_reads fun referenced =>
          process_reads fuel referenced row.groupid)
        (.inOrder fun group _ => groupStep_reads ..) hgroups
  | @named template groupId group hyes hpos hslot hmay =>
      refine ⟨1, fun fuel hfuel s hs => ?_⟩
      obtain ⟨fuel, rfl⟩ : ∃ n, fuel = n + 1 := ⟨fuel - 1, by omega⟩
      obtain ⟨tape, hgives⟩ := process_group_gives haccepted hneeds hmay (hs hyes)
      refine ⟨tape, _, ?_, hgives⟩
      simp only [LootTemplate.process, if_pos hpos, hslot]
  | @reference template referenced link hmem href hmax hmay hlookup _ ih =>
      obtain ⟨enough, hsome⟩ := rows_isSome world rate lootMode (hsettled rfl)
      have hbelow : link.groupid = 0 → Settled store references referenced := by
        intro hzero
        cases hsettled rfl with
        | mk hsame _ hbelow =>
            exact hbelow link hmem href hzero referenced ((hsame link hmem href).trans hlookup)
      obtain ⟨enough', hsome'⟩ := process_isSome_of_settled world rate lootMode hbelow
      obtain ⟨enough'', hsometimes⟩ := ih hbelow fun row hgives =>
        hrows row (.reference hmem href hlookup hgives)
      refine ⟨enough + enough' + enough'' + 1, fun fuel hfuel => ?_⟩
      obtain ⟨fuel, rfl⟩ : ∃ n, fuel = n + 1 := ⟨fuel - 1, by omega⟩
      exact hentry hrows hmem (fun row hmem => hsome row hmem fuel (by omega))
        (rowStep_reference hundred hmay href hmax hlookup (hsome' fuel (by omega))
          (hsometimes fuel (by omega)))

/-! ## The answer and the runs -/

omit [Chance F] in
/-- In both stores a settled template includes the same rows. -/
theorem gives_iff_of_settled (hsettled : groupId = 0 → Settled store references template) :
    Gives store template groupId item ↔ Gives references template groupId item := by
  constructor
  · intro h
    induction h with
    | entry hmem href => exact .entry hmem href
    | group hslot hmem => exact .group hslot hmem
    | named hpos hslot hmem => exact .named hpos hslot hmem
    | reference hmem href hlookup _ ih =>
        cases hsettled rfl with
        | mk hsame _ hbelow =>
            refine .reference hmem href ((hsame _ hmem href).symm.trans hlookup) (ih fun hzero => ?_)
            exact hbelow _ hmem href hzero _ hlookup
  · intro h
    induction h with
    | entry hmem href => exact .entry hmem href
    | group hslot hmem => exact .group hslot hmem
    | named hpos hslot hmem => exact .named hpos hslot hmem
    | reference hmem href hlookup _ ih =>
        cases hsettled rfl with
        | mk hsame _ hbelow =>
            have hown := (hsame _ hmem href).trans hlookup
            refine .reference hmem href hown (ih fun hzero => ?_)
            exact hbelow _ hmem href hzero _ hown

theorem Drops.gives (h : Drops world references rate lootMode alone item template groupId) :
    Gives references template groupId item := by
  have hrow : ∀ {group : LootTemplateGroup F}, group.MayGive P lootMode item →
      item ∈ group.rows := by
    intro group hmay
    obtain ⟨tape, hroll⟩ := hmay ⟨Loot.empty 0, 0⟩ fun i hi => (by cases hi)
    exact roll_mem hroll
  induction h with
  | entry hmem href _ => exact .entry hmem href
  | group _ hslot hmay => exact .group hslot (hrow hmay)
  | named _ hpos hslot hmay => exact .named hpos hslot (hrow hmay)
  | reference hmem href _ _ hlookup _ ih => exact .reference hmem href hlookup ih

/-- The template includes a row that needs a quest. -/
def IncludesQuestItem (references : LootTemplateMap F) (template : LootTemplate F) : Prop :=
  Includes references (fun item => item.needsQuest) template 0

/-- Some run leaves a quest item in a loot that was empty. -/
def Produces (world : LootWorld P F) (references : LootTemplateMap F) (rate : Bool)
    (lootMode : Nat) (template : LootTemplate F) : Prop :=
  ∃ (tape : Nat → Draw F) (fuel : Nat) (s' : Filling P),
    template.process world (Rolls.ofTape tape) references rate lootMode fuel 0
      ⟨Loot.empty 0, 0⟩ = some s' ∧ HasQuestItem s'

/-- No row that needs no quest gives the item. -/
def Alone (references : LootTemplateMap F) (template : LootTemplate F) (item : LootRow F) : Prop :=
  ∀ row, Gives references template 0 row → row.needsQuest = false → row.itemid ≠ item.itemid

/-- `HaveQuestLootFor` answers whether the template includes a row that needs a quest. It
does if any run leaves a quest item, and a row that nothing is in the way of makes such a
run. -/
theorem haveQuestLootFor_iff_includes (world : LootWorld P F)
    (tables : LootStoreName → List (Nat × LootRow F)) (name : LootStoreName)
    (hundred : (0 : F) < ((100 : Nat) : F)) {lootId : Nat}
    (hlookup : (loadLootTable world (tables name)).lookup lootId = some template)
    (hsettled : Settled (loadLootTable world (tables name))
      (loadLootTable world (tables .reference)) template) :
    (∃ enough, ∀ fuel, enough ≤ fuel → ∃ b,
      haveQuestLootFor (loadLootTable world (tables name)) fuel lootId = .ok b ∧
        (b = true ↔ IncludesQuestItem (loadLootTable world (tables .reference)) template)) ∧
    (∀ rolls rate lootMode fuel s',
      template.process world rolls (loadLootTable world (tables .reference)) rate lootMode fuel 0
          ⟨Loot.empty 0, 0⟩ = some s' → HasQuestItem s' →
        IncludesQuestItem (loadLootTable world (tables .reference)) template) ∧
    ∀ rate lootMode item, item.needsQuest = true →
      Drops world (loadLootTable world (tables .reference)) rate lootMode
        (Alone (loadLootTable world (tables .reference)) template item) item template 0 →
      Produces world (loadLootTable world (tables .reference)) rate lootMode template := by
  refine ⟨?_, ?_, ?_⟩
  · obtain ⟨enough, hanswers⟩ := hasDrop_answers (fun item => item.needsQuest)
      (.error .nullGroup) hsettled
    refine ⟨enough, fun fuel hfuel => ?_⟩
    obtain ⟨b, hb⟩ := hanswers fuel hfuel
    refine ⟨b, ?_, ?_⟩
    · unfold haveQuestLootFor
      rw [hlookup]
      exact hb
    · have hsame : Includes (loadLootTable world (tables name)) (fun item => item.needsQuest)
          template 0 ↔ IncludesQuestItem (loadLootTable world (tables .reference)) template :=
        exists_congr fun item => and_congr_left' (gives_iff_of_settled fun _ => hsettled)
      rw [← hsame]
      cases b with
      | true => exact ⟨fun _ => includes_of_hasDrop (fun hnull => by cases hnull) hb, fun _ => rfl⟩
      | false => exact ⟨fun hno => (by cases hno), fun h => absurd h (not_includes_of_hasDrop hb)⟩
  · intro rolls rate lootMode fuel s' hrun hquest
    rcases (process_fills hrun).added hquest with hne | ⟨item, hgives, hneeds⟩
    · exact absurd rfl hne
    · exact ⟨item, hgives, hneeds⟩
  · intro rate lootMode item hneeds hdrops
    have haccepted := gives_accepted (loadLootTable_accepted (tables name) hlookup)
      (fun _ _ => loadLootTable_accepted (tables .reference)) hdrops.gives
    obtain ⟨enough, hsometimes⟩ := hdrops.sometimes hundred haccepted hneeds
      (fun hyes row hrow => hyes row hrow) (fun _ => hsettled) fun row hrow => hrow
    obtain ⟨tape, s', hrun, hquest⟩ := hsometimes enough (Nat.le_refl enough) ⟨Loot.empty 0, 0⟩
      fun _ i hi => (by cases hi)
    exact ⟨tape, enough, s', hrun, hquest⟩

/-! Item 7 is for a quest. Row 1 leads to row 2, which gives it. -/

def questWorld : LootWorld Nat ℚ where
  template itemid := if itemid = 7 then some ⟨1, false, 1, false⟩ else none
  allowedForPlayer _ _ := true
  canStoreNewItem _ _ _ := true
  group _ := none
  rateDropItem _ := 1
  rateDropItemReferenced := 1

def questRow : LootRow ℚ := ⟨⟨7, true, []⟩, 0, 100, 1, 0, 1, 1⟩

def questLink : LootRow ℚ := ⟨⟨0, false, []⟩, 2, 100, 1, 0, 1, 1⟩

def questTables : LootStoreName → List (Nat × LootRow ℚ)
  | .reference => [(1, questLink), (2, questRow)]
  | _ => []

theorem questTables_load : loadLootTable questWorld (questTables .reference) =
    (AList.insert 1 ⟨[questLink], []⟩ ∅).insert 2 ⟨[questRow], []⟩ := by
  have hlink : loadRow questWorld ∅ (1, questLink) = AList.insert 1 ⟨[questLink], []⟩ ∅ :=
    if_pos (by decide +kernel)
  show loadRow questWorld (loadRow questWorld ∅ (1, questLink)) (2, questRow) = _
  rw [hlink]
  exact if_pos (by decide +kernel)

theorem questTables_produce :
    haveQuestLootFor (loadLootTable questWorld (questTables .reference)) 2 1 = .ok true ∧
      Produces questWorld (loadLootTable questWorld (questTables .reference)) true 1
        ⟨[questLink], []⟩ := by
  have hone : (loadLootTable questWorld (questTables .reference)).lookup 1 =
      some ⟨[questLink], []⟩ := by
    rw [questTables_load]
    rfl
  have htwo : (loadLootTable questWorld (questTables .reference)).lookup 2 =
      some ⟨[questRow], []⟩ := by
    rw [questTables_load]
    rfl
  have hsettled : Settled (loadLootTable questWorld (questTables .reference))
      (loadLootTable questWorld (questTables .reference)) ⟨[questLink], []⟩ := by
    refine .mk (fun _ _ _ => rfl) (fun item hmem _ hgroup => ?_) fun item hmem _ _ found hfound => ?_
    · cases List.mem_singleton.1 hmem
      exact absurd hgroup (by decide)
    · cases List.mem_singleton.1 hmem
      cases htwo.symm.trans hfound
      refine .mk (fun _ _ _ => rfl) (fun item hmem href => ?_) fun item hmem href => ?_
      · cases List.mem_singleton.1 hmem
        exact absurd href (by decide)
      · cases List.mem_singleton.1 hmem
        exact absurd href (by decide)
  refine ⟨?_, (haveQuestLootFor_iff_includes questWorld questTables .reference (by decide)
    hone hsettled).2.2 true 1 questRow rfl ?_⟩
  · rw [questTables_load]
    rfl
  · refine .reference List.mem_cons_self (by decide) (by decide) ?_ htwo
      (.entry List.mem_cons_self (by decide) ?_)
    · exact ⟨by decide, .inl (by decide)⟩
    · exact ⟨by decide, .inl (by decide)⟩

/-! A row of no loot mode is accepted, and never comes up. -/

def modeless : LootRow ℚ := { questRow with lootmode := 0 }

theorem modeless_never_comes_up :
    (loadLootTable questWorld [(1, modeless)]).lookup 1 = some ⟨[modeless], []⟩ ∧
      haveQuestLootFor (loadLootTable questWorld [(1, modeless)]) 1 1 = .ok true ∧
      ∀ rolls references rate lootMode fuel s',
        LootTemplate.process questWorld rolls references rate lootMode fuel ⟨[modeless], []⟩ 0
          ⟨Loot.empty 0, 0⟩ = some s' → ¬ HasQuestItem s' := by
  have hload : loadLootTable questWorld [(1, modeless)] = AList.insert 1 ⟨[modeless], []⟩ ∅ :=
    if_pos (by decide +kernel)
  refine ⟨hload ▸ rfl, hload ▸ rfl, fun rolls references rate lootMode fuel s' hrun hquest => ?_⟩
  have hmode : modeless.lootmode &&& lootMode = 0 := Nat.zero_and lootMode
  cases fuel with
  | zero => cases hrun
  | succ fuel =>
      rw [LootTemplate.process, if_neg (Nat.lt_irrefl 0), processEntries_cons, entryStep,
        if_pos hmode] at hrun
      cases hrun
      exact hquest rfl

end Sunstrider.Looting
