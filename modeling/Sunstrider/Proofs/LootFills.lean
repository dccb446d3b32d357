import Sunstrider.Proofs.QuestDrop
import Sunstrider.Proofs.LootReferences

/-!
# What a run adds

`Process` adds nothing but rows that the template gives, whatever is rolled: a group
gives one of its own rows, a row of the entries is added as it stands, and what a
reference leads to is processed the same way. A quest item that is in the loot once
stays there. So a run with a quest item in it shows that the template includes one.
-/

namespace Sunstrider.Looting

open Pools

variable {P F : Type}
variable {references : LootTemplateMap F} {template : LootTemplate F} {groupId : Nat}

variable {item : LootRow F} {s : Filling P}

variable {s' : Filling P} {group : LootTemplateGroup F} {lootMode : Nat} {rows : LootRow F → Prop}

/-- A filling goes on with nothing but some rows. -/
structure Fills (rows : LootRow F → Prop) (s s' : Filling P) : Prop where
  items : ∀ i ∈ s'.loot.items, i ∈ s.loot.items ∨
    ∃ item, rows item ∧ item.needsQuest = false ∧ i.itemid = item.itemid
  kept : s.loot.questItems ≠ [] → s'.loot.questItems ≠ []
  added : s'.loot.questItems ≠ [] → s.loot.questItems ≠ [] ∨
    ∃ item, rows item ∧ item.needsQuest = true

namespace Fills

variable {rows rows' : LootRow F → Prop} {s s' s'' : Filling P}

theorem same (h : s'.loot = s.loot) : Fills rows s s' := by
  constructor
  · exact fun i hi => .inl (h ▸ hi)
  · exact fun hne => h ▸ hne
  · exact fun hne => .inl (h ▸ hne)

theorem trans (h : Fills rows s s') (h' : Fills rows s' s'') : Fills rows s s'' where
  items i hi := by
    rcases h'.items i hi with hi | hrow
    · exact h.items i hi
    · exact .inr hrow
  kept hne := h'.kept (h.kept hne)
  added hne := by
    rcases h'.added hne with hne | hrow
    · exact h.added hne
    · exact .inr hrow

theorem mono (h : Fills rows s s') (hrows : ∀ item, rows item → rows' item) :
    Fills rows' s s' where
  items i hi := (h.items i hi).imp_right fun ⟨item, hrow, hrest⟩ => ⟨item, hrows item hrow, hrest⟩
  kept := h.kept
  added hne := (h.added hne).imp_right fun ⟨item, hrow, hneeds⟩ => ⟨item, hrows item hrow, hneeds⟩

end Fills

/-- One stack more of a row that needs no quest. -/
theorem fills_item (hneeds : item.needsQuest = false) {i : LootItem P}
    (hid : i.itemid = item.itemid) (hitems : s'.loot.items = s.loot.items ++ [i])
    (hquest : s'.loot.questItems = s.loot.questItems) : Fills (· = item) s s' := by
  refine ⟨fun j hj => ?_, fun hne => hquest ▸ hne, fun hne => .inl (hquest ▸ hne)⟩
  rw [hitems, List.mem_append, List.mem_singleton] at hj
  rcases hj with hj | rfl
  · exact .inl hj
  · exact .inr ⟨item, rfl, hneeds, hid⟩

/-- The stacks of one row. -/
theorem addStacks_fills (item : LootRow F) (proto : LootProto) (more count : Nat) (s : Filling P)
    (drawn : Nat) :
    Fills (· = item) s ⟨Loot.addStacks item.toLootStoreItem proto more count s.loot, drawn⟩ := by
  induction more generalizing count s with
  | zero => exact .same rfl
  | succ more ih =>
      rw [Loot.addStacks]
      by_cases hneeds : item.needsQuest = true
      · rw [if_pos hneeds]
        split
        · let i : LootItem P :=
            Loot.newItem item.toLootStoreItem proto (min count proto.maxStackSize)
          have hfirst : Fills (· = item) s
              ⟨{ s.loot with questItems := s.loot.questItems ++ [i] }, s.drawn⟩ :=
            ⟨fun j hj => .inl hj, fun _ => by simp, fun _ => .inr ⟨item, rfl, hneeds⟩⟩
          exact hfirst.trans (ih _ _)
        · exact .same rfl
      · have hneeds : item.needsQuest = false := by simpa using hneeds
        rw [if_neg (by simp [hneeds])]
        split
        · let i : LootItem P :=
            Loot.newItem item.toLootStoreItem proto (min count proto.maxStackSize)
          let l : Loot P := { s.loot with items := s.loot.items ++ [i] }
          have hfirst : Fills (· = item) s
              ⟨if item.conditions.isEmpty && !proto.multiDrop then l.countUp else l, s.drawn⟩ := by
            refine fills_item (i := i) hneeds rfl ?_ ?_
            · dsimp only
              split <;> rfl
            · dsimp only
              split <;> rfl
          exact hfirst.trans (ih _ _)
        · exact .same rfl

/-- A row that needs a quest leaves a quest item behind, or there is one already. -/
theorem addStacks_gives {item : LootStoreItem} (hneeds : item.needsQuest = true)
    (proto : LootProto) {more : Nat} (hmore : 0 < more) (count : Nat) (l : Loot P) :
    (Loot.addStacks item proto more count l).questItems ≠ [] := by
  have hkept : ∀ more count (l : Loot P), l.questItems ≠ [] →
      (Loot.addStacks item proto more count l).questItems ≠ [] := by
    intro more
    induction more with
    | zero => exact fun _ _ hne => hne
    | succ more ih =>
        intro count l hne
        rw [Loot.addStacks, if_pos hneeds]
        split
        · exact ih _ _ (by simp)
        · exact hne
  obtain ⟨more, rfl⟩ : ∃ n, more = n + 1 := ⟨more - 1, by omega⟩
  rw [Loot.addStacks, if_pos hneeds]
  split
  · exact hkept _ _ _ (by simp)
  · rename_i hfull
    intro hempty
    rw [hempty] at hfull
    exact hfull (show 0 < 32 by decide)

variable [Chance F] {world : LootWorld P F} {rolls : Rolls F}

theorem addItem_fills (item : LootRow F) (s : Filling P) :
    Fills (· = item) s (s.addItem world rolls item) := by
  unfold Filling.addItem
  split
  · exact .same rfl
  · dsimp only
    unfold Loot.addItem
    split
    · exact .same rfl
    · exact addStacks_fills item _ _ _ s _

theorem findExplicit_mem {roll : F} {items : List (LootRow F)}
    (h : findExplicit roll items = some item) : item ∈ items := by
  induction items generalizing roll with
  | nil => cases h
  | cons first items ih =>
      rw [findExplicit] at h
      dsimp only at h
      split at h
      · cases h
        exact List.mem_cons_self
      · split at h
        · cases h
          exact List.mem_cons_self
        · exact List.mem_cons_of_mem _ (ih h)

/-- The rows of a group that may be chosen now. -/
def possible (lootMode : Nat) (loot : Loot P) (rows : List (LootRow F)) : List (LootRow F) :=
  rows.filter fun item => !item.isInvalid lootMode loot

/-- The second part of `Roll`. -/
def rollEqual (rolls : Rolls F) (lootMode : Nat) (group : LootTemplateGroup F) (s : Filling P) :
    Option (LootRow F) × Filling P :=
  let equalLoot := possible lootMode s.loot group.equalChanced
  if equalLoot.isEmpty then (none, s)
  else (equalLoot[rolls.urand s.drawn 0 (equalLoot.length - 1)]?, { s with drawn := s.drawn + 1 })

theorem roll_eq (group : LootTemplateGroup F) (lootMode : Nat) (s : Filling P) :
    group.roll rolls lootMode s =
      if (possible lootMode s.loot group.explicitlyChanced).isEmpty then
        rollEqual rolls lootMode group s
      else
        match findExplicit (rolls.randChance s.drawn)
            (possible lootMode s.loot group.explicitlyChanced) with
        | some item => (some item, { s with drawn := s.drawn + 1 })
        | none => rollEqual rolls lootMode group { s with drawn := s.drawn + 1 } := by
  unfold LootTemplateGroup.roll rollEqual possible
  dsimp only
  cases (group.explicitlyChanced.filter fun item => !item.isInvalid lootMode s.loot).isEmpty with
  | true => rfl
  | false =>
      cases findExplicit (rolls.randChance s.drawn)
        (group.explicitlyChanced.filter fun item => !item.isInvalid lootMode s.loot) <;> rfl

theorem rollEqual_mem (h : (rollEqual rolls lootMode group s).1 = some item) :
    item ∈ group.rows := by
  unfold rollEqual at h
  dsimp only at h
  split at h
  · cases h
  · exact List.mem_append_right _ (List.mem_of_mem_filter (List.mem_of_getElem? h))

/-- A group gives one of its rows. -/
theorem roll_mem (h : (group.roll rolls lootMode s).1 = some item) : item ∈ group.rows := by
  rw [roll_eq] at h
  split at h
  · exact rollEqual_mem h
  · split at h
    · rename_i hfound
      cases h
      exact List.mem_append_left _ (List.mem_of_mem_filter (findExplicit_mem hfound))
    · exact rollEqual_mem h

variable (rolls) in
theorem roll_loot (group : LootTemplateGroup F) (lootMode : Nat) (s : Filling P) :
    (group.roll rolls lootMode s).2.loot = s.loot := by
  have hequal : ∀ s : Filling P, (rollEqual rolls lootMode group s).2.loot = s.loot := by
    intro s
    unfold rollEqual
    dsimp only
    split <;> rfl
  rw [roll_eq]
  split
  · exact hequal s
  · split
    · rfl
    · exact hequal _

theorem process_group_fills (group : LootTemplateGroup F) (lootMode : Nat) (s : Filling P) :
    Fills (· ∈ group.rows) s (group.process world rolls lootMode s) := by
  have hloot := roll_loot rolls group lootMode s
  unfold LootTemplateGroup.process
  split
  · rename_i item s' hroll
    have hmem : item ∈ group.rows := roll_mem (by rw [hroll])
    rw [hroll] at hloot
    exact (Fills.same hloot).trans ((addItem_fills item s').mono fun row hrow => hrow ▸ hmem)
  · rename_i s' hroll
    rw [hroll] at hloot
    exact .same hloot

theorem processGroups_fills (lootMode : Nat) {groups : List (Option (LootTemplateGroup F))}
    (hrows : ∀ group, some group ∈ groups → ∀ item ∈ group.rows, rows item) (s : Filling P) :
    Fills rows s (processGroups world rolls lootMode groups s) := by
  unfold processGroups
  induction groups generalizing s with
  | nil => exact .same rfl
  | cons group groups ih =>
      have ih := ih fun group hmem => hrows group (List.mem_cons_of_mem _ hmem)
      rw [List.foldl_cons]
      cases group with
      | none => exact ih s
      | some group =>
          exact ((process_group_fills group lootMode s).mono
            (hrows group List.mem_cons_self)).trans (ih _)

omit [Chance F] in
theorem processTimes_fills {process : Filling P → Option (Filling P)}
    (h : ∀ s s', process s = some s' → Fills rows s s') {loops : Nat}
    (hs : processTimes process loops s = some s') : Fills rows s s' := by
  induction loops generalizing s with
  | zero =>
      cases hs
      exact .same rfl
  | succ loops ih =>
      obtain ⟨t, ht, hs⟩ := Option.bind_eq_some_iff.1 hs
      exact (h s t ht).trans (ih hs)

section Entry

variable {rate : Bool} {lootMode : Nat}

variable {s s' : Filling P}

/-- What the loop over `Entries` does with one row. -/
def entryStep (world : LootWorld P F) (rolls : Rolls F) (references : LootTemplateMap F)
    (rate : Bool) (lootMode : Nat)
    (process : LootTemplate F → Nat → Filling P → Option (Filling P)) (item : LootRow F)
    (s : Filling P) : Option (Filling P) :=
  if item.lootmode &&& lootMode = 0 then some s
  else
    match item.roll world rolls rate s with
    | (false, s) => some s
    | (true, s) =>
        if 0 < item.reference then
          match references.lookup item.reference with
          | none => some s
          | some referenced => processTimes (process referenced item.groupid) item.maxcount s
        else some (s.addItem world rolls item)

theorem processEntries_cons
    (process : LootTemplate F → Nat → Filling P → Option (Filling P)) (item : LootRow F)
    (entries : List (LootRow F)) (s : Filling P) :
    processEntries world rolls references rate lootMode process (item :: entries) s =
      entryStep world rolls references rate lootMode process item s >>=
        processEntries world rolls references rate lootMode process entries := by
  rw [processEntries, entryStep]
  split
  · rfl
  · cases item.roll world rolls rate s with
    | mk up s =>
        cases up with
        | false => rfl
        | true =>
            dsimp only
            split
            · cases references.lookup item.reference <;> rfl
            · rfl

variable (world rolls rate) in
theorem roll_entry_loot (item : LootRow F) (s : Filling P) :
    (item.roll world rolls rate s).2.loot = s.loot := by
  rw [LootRow.roll]
  split <;> rfl

theorem entryStep_fills {rows : LootRow F → Prop}
    {process : LootTemplate F → Nat → Filling P → Option (Filling P)} {item : LootRow F}
    (hrow : ¬ 0 < item.reference → rows item)
    (hcall : 0 < item.reference → ∀ referenced, references.lookup item.reference =
      some referenced → ∀ s s', process referenced item.groupid s = some s' → Fills rows s s')
    (h : entryStep world rolls references rate lootMode process item s = some s') :
    Fills rows s s' := by
  have hloot := roll_entry_loot world rolls rate item s
  rw [entryStep] at h
  split at h
  · cases h
    exact .same rfl
  · split at h
    · rename_i hroll
      cases h
      rw [hroll] at hloot
      exact .same hloot
    · rename_i t hroll
      rw [hroll] at hloot
      split at h
      · rename_i href
        split at h
        · cases h
          exact .same hloot
        · rename_i referenced hlookup
          exact (Fills.same hloot).trans (processTimes_fills (hcall href referenced hlookup) h)
      · rename_i href
        cases h
        exact (Fills.same hloot).trans ((addItem_fills item t).mono fun row he => he ▸ hrow href)

/-- Whatever is rolled, `Process` gives rows of the template only. -/
theorem process_fills {fuel : Nat}
    (h : template.process world rolls references rate lootMode fuel groupId s = some s') :
    Fills (Gives references template groupId) s s' := by
  induction fuel generalizing template groupId s s' with
  | zero => cases h
  | succ fuel ih =>
      rw [LootTemplate.process] at h
      split at h
      · rename_i hgroup
        split at h
        · rename_i group hslot
          cases h
          exact (process_group_fills group lootMode s).mono fun row hrow =>
            .named hgroup hslot hrow
        · cases h
          exact .same rfl
      · rename_i hgroup
        obtain rfl : groupId = 0 := Nat.eq_zero_of_not_pos hgroup
        obtain ⟨t, hentries, h⟩ := Option.bind_eq_some_iff.1 h
        cases h
        have hgroups : Fills (Gives references template 0) t
            (processGroups world rolls lootMode template.groups t) :=
          processGroups_fills lootMode (fun group hmem row hrow => .group hmem hrow) t
        refine Fills.trans ?_ hgroups
        have hall : ∀ entries : List (LootRow F), (∀ item ∈ entries, item ∈ template.entries) →
            ∀ s, processEntries world rolls references rate lootMode
              (LootTemplate.process world rolls references rate lootMode fuel) entries s = some t →
            Fills (Gives references template 0) s t := by
          intro entries
          induction entries with
          | nil =>
              intro _ s hs
              cases hs
              exact .same rfl
          | cons item entries ihentries =>
              intro hsub s hs
              rw [processEntries_cons] at hs
              obtain ⟨u, hfirst, hs⟩ := Option.bind_eq_some_iff.1 hs
              have hmem := hsub item List.mem_cons_self
              refine Fills.trans (entryStep_fills (fun href => .entry hmem href) ?_ hfirst)
                (ihentries (fun item' hmem' => hsub item' (List.mem_cons_of_mem _ hmem')) u hs)
              intro href referenced hlookup s s' hcall
              exact (ih hcall).mono fun row hrow => .reference hmem href hlookup hrow
        exact hall template.entries (fun _ hmem => hmem) s hentries

end Entry
end Sunstrider.Looting
