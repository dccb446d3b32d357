import Sunstrider.Loot.QuestDrop

/-!
# What a template includes

`Gives` are the rows a walk down the references comes to. `HasQuestDrop` is true to
its comment: it answers true when one of them needs a quest and false when none does,
whatever the chance of the row and its loot mode.

The walk ends where the references do. `Settled` says that they do below a template,
that they lead to the same templates in the store `HasQuestDrop` looks at as in the
reference table, and that no group they name is missing.
-/

namespace Sunstrider.Looting

variable {F : Type}

/-! ## The rows of a template -/

def LootTemplateGroup.rows (group : LootTemplateGroup F) : List (LootRow F) :=
  group.explicitlyChanced ++ group.equalChanced

/-- The rows that a template, or the group of it that is named, gives. -/
inductive Gives (store : LootTemplateMap F) : LootTemplate F → Nat → LootRow F → Prop
  | entry {template : LootTemplate F} {item : LootRow F} :
      item ∈ template.entries → ¬ 0 < item.reference → Gives store template 0 item
  | group {template : LootTemplate F} {group : LootTemplateGroup F} {item : LootRow F} :
      some group ∈ template.groups → item ∈ group.rows → Gives store template 0 item
  | named {template : LootTemplate F} {groupId : Nat} {group : LootTemplateGroup F}
      {item : LootRow F} :
      0 < groupId → template.groups[groupId - 1]? = some (some group) → item ∈ group.rows →
        Gives store template groupId item
  | reference {template referenced : LootTemplate F} {link item : LootRow F} :
      link ∈ template.entries → 0 < link.reference →
        store.lookup link.reference = some referenced →
        Gives store referenced link.groupid item → Gives store template 0 item

/-- It includes a row that is wanted. -/
def Includes (store : LootTemplateMap F) (wants : LootRow F → Bool) (template : LootTemplate F)
    (groupId : Nat) : Prop :=
  ∃ item, Gives store template groupId item ∧ wants item = true

/-- Followed to the end, the references of a template lead to the same templates in both
stores, and to no group slot that is empty. -/
inductive Settled (store references : LootTemplateMap F) : LootTemplate F → Prop
  | mk {template : LootTemplate F} :
      (∀ item ∈ template.entries, 0 < item.reference →
        store.lookup item.reference = references.lookup item.reference) →
      (∀ item ∈ template.entries, 0 < item.reference → 0 < item.groupid →
        ∀ referenced, store.lookup item.reference = some referenced →
          referenced.groups[item.groupid - 1]? ≠ some none) →
      (∀ item ∈ template.entries, 0 < item.reference → item.groupid = 0 →
        ∀ referenced, store.lookup item.reference = some referenced →
          Settled store references referenced) →
      Settled store references template

variable {store references : LootTemplateMap F} {wants : LootRow F → Bool}
variable {nullGroup : Except DropFault Bool} {template : LootTemplate F} {groupId : Nat}

theorem LootTemplateGroup.hasDrop_iff {group : LootTemplateGroup F} :
    group.hasDrop wants = true ↔ ∃ item ∈ group.rows, wants item = true := by
  unfold LootTemplateGroup.hasDrop LootTemplateGroup.rows
  rw [← List.any_append, List.any_eq_true]

/-! ## The answer -/

section Entries

variable {walk : LootTemplate F → Nat → Except DropFault Bool} {entries : List (LootRow F)}

/-- A row of the entries that is wanted, or leads to where `walk` finds one. -/
def Found (wants : LootRow F → Bool) (store : LootTemplateMap F)
    (walk : LootTemplate F → Nat → Except DropFault Bool) (item : LootRow F) : Prop :=
  (¬ 0 < item.reference ∧ wants item = true) ∨
  0 < item.reference ∧ ∃ referenced, store.lookup item.reference = some referenced ∧
    walk referenced item.groupid = .ok true

theorem hasDropEntries_true (h : hasDropEntries wants store walk entries = .ok true) :
    ∃ item ∈ entries, Found wants store walk item := by
  induction entries with
  | nil => cases h
  | cons item entries ih =>
      have hrest : hasDropEntries wants store walk entries = .ok true →
          ∃ item' ∈ item :: entries, Found wants store walk item' := by
        intro h
        obtain ⟨item', hmem, hfound⟩ := ih h
        exact ⟨item', List.mem_cons_of_mem _ hmem, hfound⟩
      rw [hasDropEntries] at h
      split at h
      · rename_i href
        cases hlookup : store.lookup item.reference with
        | none =>
            rw [hlookup] at h
            exact hrest h
        | some referenced =>
            rw [hlookup] at h
            dsimp only at h
            split at h
            · cases h
            · rename_i hwalk
              exact ⟨item, List.mem_cons_self, .inr ⟨href, referenced, hlookup, hwalk⟩⟩
            · exact hrest h
      · rename_i href
        split at h
        · rename_i hwants
          exact ⟨item, List.mem_cons_self, .inl ⟨href, hwants⟩⟩
        · exact hrest h

theorem hasDropEntries_false (h : hasDropEntries wants store walk entries = .ok false) :
    ∀ item ∈ entries, (¬ 0 < item.reference → wants item = false) ∧
      (0 < item.reference → ∀ referenced, store.lookup item.reference = some referenced →
        walk referenced item.groupid = .ok false) := by
  induction entries with
  | nil => exact fun item hmem => absurd hmem List.not_mem_nil
  | cons first entries ih =>
      rw [hasDropEntries] at h
      intro item hmem
      split at h
      · rename_i href
        cases hlookup : store.lookup first.reference with
        | none =>
            rw [hlookup] at h
            rcases List.mem_cons.1 hmem with rfl | hmem
            · refine ⟨fun hno => absurd href hno, fun _ referenced hsome => ?_⟩
              rw [hlookup] at hsome
              cases hsome
            · exact ih h item hmem
        | some found =>
            rw [hlookup] at h
            dsimp only at h
            split at h
            · cases h
            · cases h
            · rename_i hwalk
              rcases List.mem_cons.1 hmem with rfl | hmem
              · refine ⟨fun hno => absurd href hno, fun _ referenced hsome => ?_⟩
                rw [hlookup] at hsome
                cases hsome
                exact hwalk
              · exact ih h item hmem
      · rename_i href
        split at h
        · cases h
        · rename_i hwants
          rcases List.mem_cons.1 hmem with rfl | hmem
          · exact ⟨fun _ => by simpa using hwants, fun hyes => absurd hyes href⟩
          · exact ih h item hmem

variable (wants walk) in
/-- The walk through the entries answers where every call does. -/
theorem hasDropEntries_answers
    (h : ∀ item ∈ entries, 0 < item.reference →
      ∀ referenced, store.lookup item.reference = some referenced →
        ∃ b, walk referenced item.groupid = .ok b) :
    ∃ b, hasDropEntries wants store walk entries = .ok b := by
  induction entries with
  | nil => exact ⟨false, rfl⟩
  | cons item entries ih =>
      have ih := ih fun item hmem => h item (List.mem_cons_of_mem _ hmem)
      rw [hasDropEntries]
      split
      · rename_i href
        cases hlookup : store.lookup item.reference with
        | none => exact ih
        | some referenced =>
            obtain ⟨b, hb⟩ := h item List.mem_cons_self href referenced hlookup
            dsimp only
            rw [hb]
            cases b with
            | true => exact ⟨true, rfl⟩
            | false => exact ih
      · split
        · exact ⟨true, rfl⟩
        · exact ih

end Entries

theorem includes_of_hasDrop (hnull : nullGroup ≠ .ok true) {fuel : Nat}
    (h : template.hasDrop wants nullGroup store fuel groupId = .ok true) :
    Includes store wants template groupId := by
  induction fuel generalizing template groupId with
  | zero => cases h
  | succ fuel ih =>
      rw [LootTemplate.hasDrop] at h
      split at h
      · rename_i hgroup
        split at h
        · cases h
        · exact absurd h hnull
        · rename_i group hslot
          obtain ⟨item, hmem, hwants⟩ := LootTemplateGroup.hasDrop_iff.1 (Except.ok.inj h)
          exact ⟨item, .named hgroup hslot hmem, hwants⟩
      · rename_i hgroup
        obtain rfl : groupId = 0 := Nat.eq_zero_of_not_pos hgroup
        split at h
        · cases h
        · rename_i hentries
          obtain ⟨item, hmem, ⟨href, hwants⟩ | ⟨href, referenced, hlookup, hwalk⟩⟩ :=
            hasDropEntries_true hentries
          · exact ⟨item, .entry hmem href, hwants⟩
          · obtain ⟨row, hgives, hwants⟩ := ih hwalk
            exact ⟨row, .reference hmem href hlookup hgives, hwants⟩
        · obtain ⟨slot, hslot, hdrop⟩ := List.any_eq_true.1 (Except.ok.inj h)
          cases slot with
          | none => cases hdrop
          | some group =>
              obtain ⟨item, hmem, hwants⟩ := LootTemplateGroup.hasDrop_iff.1 hdrop
              exact ⟨item, .group hslot hmem, hwants⟩

theorem not_includes_of_hasDrop {fuel : Nat}
    (h : template.hasDrop wants nullGroup store fuel groupId = .ok false) :
    ¬ Includes store wants template groupId := by
  induction fuel generalizing template groupId with
  | zero => cases h
  | succ fuel ih =>
      rintro ⟨item, hgives, hwants⟩
      rw [LootTemplate.hasDrop] at h
      split at h
      · rename_i hgroup
        cases hgives with
        | entry => exact absurd hgroup (Nat.lt_irrefl 0)
        | group => exact absurd hgroup (Nat.lt_irrefl 0)
        | reference => exact absurd hgroup (Nat.lt_irrefl 0)
        | named _ hslot hmem =>
            rw [hslot] at h
            have hnone := Except.ok.inj h
            rw [LootTemplateGroup.hasDrop_iff.2 ⟨item, hmem, hwants⟩] at hnone
            cases hnone
      · rename_i hgroup
        split at h
        · cases h
        · cases h
        · rename_i hentries
          have hrows := hasDropEntries_false hentries
          cases hgives with
          | entry hmem href =>
              rw [(hrows item hmem).1 href] at hwants
              cases hwants
          | group hslot hmem =>
              have hnone := List.any_eq_false.1 (Except.ok.inj h) _ hslot
              exact hnone (LootTemplateGroup.hasDrop_iff.2 ⟨item, hmem, hwants⟩)
          | named hpos => exact hgroup hpos
          | reference hmem href hlookup hgives =>
              exact ih ((hrows _ hmem).2 href _ hlookup) ⟨item, hgives, hwants⟩

/-- Of finitely many bounds one is enough. -/
theorem exists_bound {β : Type} {bs : List β} {Q : β → Nat → Prop}
    (h : ∀ b ∈ bs, ∃ enough, ∀ fuel, enough ≤ fuel → Q b fuel) :
    ∃ enough, ∀ b ∈ bs, ∀ fuel, enough ≤ fuel → Q b fuel := by
  induction bs with
  | nil => exact ⟨0, fun b hb => absurd hb List.not_mem_nil⟩
  | cons b bs ih =>
      obtain ⟨enough, hb⟩ := h b List.mem_cons_self
      obtain ⟨enough', hrest⟩ := ih fun b' hb' => h b' (List.mem_cons_of_mem _ hb')
      refine ⟨max enough enough', fun b' hb' fuel hfuel => ?_⟩
      rcases List.mem_cons.1 hb' with rfl | hb'
      · exact hb fuel (by omega)
      · exact hrest b' hb' fuel (by omega)

variable (wants nullGroup) in
/-- Below a settled template the walk comes to an answer. -/
theorem hasDrop_answers (hsettled : Settled store references template) :
    ∃ enough, ∀ fuel, enough ≤ fuel →
      ∃ b, template.hasDrop wants nullGroup store fuel 0 = .ok b := by
  induction hsettled with
  | @mk template hsame hslots hbelow ih =>
      have hcalls : ∀ item ∈ template.entries, ∃ enough, ∀ fuel, enough ≤ fuel →
          0 < item.reference → ∀ referenced, store.lookup item.reference = some referenced →
            ∃ b, referenced.hasDrop wants nullGroup store fuel item.groupid = .ok b := by
        intro item hmem
        by_cases hcall : 0 < item.reference ∧ ∃ referenced,
            store.lookup item.reference = some referenced
        · obtain ⟨href, referenced, hlookup⟩ := hcall
          rcases Nat.eq_zero_or_pos item.groupid with hzero | hpos
          · obtain ⟨enough, hall⟩ := ih item hmem href hzero referenced hlookup
            refine ⟨enough, fun fuel hfuel _ referenced' hlookup' => ?_⟩
            rw [hlookup] at hlookup'
            cases hlookup'
            rw [hzero]
            exact hall fuel hfuel
          · refine ⟨1, fun fuel hfuel _ referenced' hlookup' => ?_⟩
            have hslot := hslots item hmem href hpos referenced' hlookup'
            obtain ⟨fuel, rfl⟩ : ∃ n, fuel = n + 1 := ⟨fuel - 1, by omega⟩
            rw [LootTemplate.hasDrop, if_pos hpos]
            split
            · exact ⟨_, rfl⟩
            · rename_i hempty
              exact absurd hempty hslot
            · exact ⟨_, rfl⟩
        · exact ⟨0, fun fuel _ href referenced hlookup => absurd ⟨href, referenced, hlookup⟩ hcall⟩
      obtain ⟨enough, hall⟩ := exists_bound hcalls
      refine ⟨enough + 1, fun fuel hfuel => ?_⟩
      obtain ⟨fuel, rfl⟩ : ∃ n, fuel = n + 1 := ⟨fuel - 1, by omega⟩
      obtain ⟨b, hb⟩ := hasDropEntries_answers wants
        (LootTemplate.hasDrop wants nullGroup store fuel) fun item hmem href referenced hlookup =>
          hall item hmem fuel (by omega) href referenced hlookup
      rw [LootTemplate.hasDrop, if_neg (Nat.lt_irrefl 0), hb]
      cases b with
      | true => exact ⟨true, rfl⟩
      | false => exact ⟨_, rfl⟩

end Sunstrider.Looting
