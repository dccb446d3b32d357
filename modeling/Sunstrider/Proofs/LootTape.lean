import Sunstrider.Proofs.LootFills
import Sunstrider.Lib.Tape

/-!
# Runs on a tape

The random numbers of a run are a tape, `drawn` is how far it has been read. Every part
of `Process` reads what lies between where it began and where it ended, so what two
parts do on two tapes they do on one, one after the other. The loops are rows and
groups in order, which is the form in which they can be put together again.

Below a settled template there is fuel enough for every run, whatever is drawn.
-/

namespace Sunstrider.Looting

open Pools Lib

variable {P F : Type} [Chance F]
variable {store references : LootTemplateMap F} {template : LootTemplate F} {groupId : Nat}
variable {world : LootWorld P F} {rolls : Rolls F}

/-- What one random number may be: a percentage, or a pick from a range. -/
structure Draw (F : Type) [Chance F] where
  percent : F
  nonneg : 0 ≤ percent
  lt : percent < ((100 : Nat) : F)
  pick : Nat → Nat → Nat
  pick_mem : ∀ lo hi, lo ≤ hi → lo ≤ pick lo hi ∧ pick lo hi ≤ hi

def Rolls.ofTape (tape : Nat → Draw F) : Rolls F where
  randChance n := (tape n).percent
  randChance_nonneg n := (tape n).nonneg
  urand n := (tape n).pick

/-- Two tapes are alike where something is drawn. -/
def Alike (tape tape' : Nat → Draw F) (s s' : Filling P) : Prop :=
  ∀ n, s.drawn ≤ n → n < s'.drawn → tape' n = tape n

section Reads

variable {tape tape' : Nat → Draw F} {rate : Bool} {lootMode : Nat}

theorem randChance_alike {n : Nat} (h : tape' n = tape n) :
    (Rolls.ofTape tape').randChance n = (Rolls.ofTape tape).randChance n :=
  congrArg Draw.percent h

theorem urand_alike {n : Nat} (h : tape' n = tape n) :
    (Rolls.ofTape tape').urand n = (Rolls.ofTape tape).urand n :=
  congrArg Draw.pick h

theorem addItem_reads (world : LootWorld P F) (item : LootRow F) :
    Drawing.Reads (α := Draw F) Filling.drawn
      fun tape s => some (s.addItem world (Rolls.ofTape tape) item) where
  forward h := by
    cases h
    unfold Filling.addItem
    split
    · exact Nat.le_refl _
    · exact Nat.le_succ _
  agree := by
    intro tape tape' s s' h hagree
    cases h
    unfold Filling.addItem at hagree ⊢
    split
    · rfl
    · rename_i proto hproto
      rw [hproto] at hagree
      rw [urand_alike (hagree s.drawn (Nat.le_refl _) (Nat.lt_succ_self _))]

variable (world tape tape' rate) in
theorem roll_alike (item : LootRow F) (s : Filling P) :
    s.drawn ≤ (item.roll world (Rolls.ofTape tape) rate s).2.drawn ∧
      (Alike tape tape' s (item.roll world (Rolls.ofTape tape) rate s).2 →
        item.roll world (Rolls.ofTape tape') rate s =
          item.roll world (Rolls.ofTape tape) rate s) := by
  unfold LootRow.roll
  split
  · exact ⟨Nat.le_refl _, fun _ => rfl⟩
  · refine ⟨Nat.le_succ _, fun halike => ?_⟩
    rw [randChance_alike (halike s.drawn (Nat.le_refl _) (Nat.lt_succ_self _))]

variable (tape tape' lootMode) in
theorem rollEqual_alike (group : LootTemplateGroup F) (s : Filling P) :
    s.drawn ≤ (rollEqual (Rolls.ofTape tape) lootMode group s).2.drawn ∧
      (Alike tape tape' s (rollEqual (Rolls.ofTape tape) lootMode group s).2 →
        rollEqual (Rolls.ofTape tape') lootMode group s =
          rollEqual (Rolls.ofTape tape) lootMode group s) := by
  unfold rollEqual
  dsimp only
  split
  · exact ⟨Nat.le_refl _, fun _ => rfl⟩
  · refine ⟨Nat.le_succ _, fun halike => ?_⟩
    rw [urand_alike (halike s.drawn (Nat.le_refl _) (Nat.lt_succ_self _))]

variable (tape tape' lootMode) in
theorem roll_group_alike (group : LootTemplateGroup F) (s : Filling P) :
    s.drawn ≤ (group.roll (Rolls.ofTape tape) lootMode s).2.drawn ∧
      (Alike tape tape' s (group.roll (Rolls.ofTape tape) lootMode s).2 →
        group.roll (Rolls.ofTape tape') lootMode s =
          group.roll (Rolls.ofTape tape) lootMode s) := by
  rw [roll_eq, roll_eq]
  split
  · exact rollEqual_alike tape tape' lootMode group s
  · have hequal := rollEqual_alike tape tape' lootMode group
      { s with drawn := s.drawn + 1 }
    cases hfound : findExplicit ((Rolls.ofTape tape).randChance s.drawn)
        (possible lootMode s.loot group.explicitlyChanced) with
    | some item =>
        refine ⟨Nat.le_succ _, fun halike => ?_⟩
        rw [randChance_alike (halike s.drawn (Nat.le_refl _) (Nat.lt_succ_self _)), hfound]
    | none =>
        have hle : s.drawn + 1 ≤ _ := hequal.1
        refine ⟨Nat.le_trans (Nat.le_succ _) hle, fun halike => ?_⟩
        rw [randChance_alike (halike s.drawn (Nat.le_refl _) hle), hfound]
        exact hequal.2 fun n hn => halike n (Nat.le_trans (Nat.le_succ _) hn)

theorem process_group_reads (world : LootWorld P F) (lootMode : Nat)
    (group : LootTemplateGroup F) :
    Drawing.Reads (α := Draw F) Filling.drawn
      fun tape s => some (group.process world (Rolls.ofTape tape) lootMode s) := by
  have hadd := addItem_reads world
  constructor
  · intro tape s s' h
    cases h
    have hle := (roll_group_alike tape tape lootMode group s).1
    unfold LootTemplateGroup.process
    split
    · rename_i item t hroll
      rw [hroll] at hle
      exact Nat.le_trans hle ((hadd item).forward rfl)
    · rename_i t hroll
      rw [hroll] at hle
      exact hle
  · intro tape tape' s s' h hagree
    cases h
    obtain ⟨hle, halike⟩ := roll_group_alike tape tape' lootMode group s
    refine congrArg some ?_
    unfold LootTemplateGroup.process at hagree ⊢
    cases hroll : group.roll (Rolls.ofTape tape) lootMode s with
    | mk given t =>
        rw [hroll] at hle halike hagree
        cases given with
        | none => rw [halike hagree]
        | some item =>
            have hforward :=
              (hadd item).forward (Eq.refl (some (t.addItem world (Rolls.ofTape tape) item)))
            rw [halike fun n h₁ h₂ => hagree n h₁ (Nat.lt_of_lt_of_le h₂ hforward)]
            exact Option.some.inj ((hadd item).agree rfl fun n h₁ h₂ =>
              hagree n (Nat.le_trans hle h₁) h₂)

theorem processTimes_reads {X : Drawing (Draw F) (Filling P)}
    (hX : Drawing.Reads Filling.drawn X) (loops : Nat) :
    Drawing.Reads Filling.drawn fun tape s => processTimes (X tape) loops s := by
  induction loops with
  | zero => exact .some _
  | succ loops ih => exact hX.andThen ih

theorem entryStep_reads {process : (Nat → Draw F) → LootTemplate F → Nat → Filling P →
      Option (Filling P)}
    {item : LootRow F}
    (hcall : ∀ referenced, Drawing.Reads Filling.drawn fun tape s =>
      process tape referenced item.groupid s) :
    Drawing.Reads Filling.drawn fun tape s =>
      entryStep world (Rolls.ofTape tape) references rate lootMode (process tape) item s := by
  have hadd := addItem_reads world item
  constructor
  · intro tape s s' h
    have hle := (roll_alike world tape tape rate item s).1
    rw [entryStep] at h
    split at h
    · cases h
      exact Nat.le_refl _
    · split at h
      · rename_i hroll
        cases h
        rw [hroll] at hle
        exact hle
      · rename_i t hroll
        rw [hroll] at hle
        split at h
        · split at h
          · cases h
            exact hle
          · exact Nat.le_trans hle ((processTimes_reads (hcall _) _).forward h)
        · exact Nat.le_trans hle (hadd.forward h)
  · intro tape tape' s s' h hagree
    obtain ⟨hle, halike⟩ := roll_alike world tape tape' rate item s
    rw [entryStep] at h ⊢
    split at h
    · rename_i hmode
      rw [if_pos hmode]
      exact h
    · rename_i hmode
      rw [if_neg hmode]
      split at h
      · rename_i hroll
        cases h
        rw [hroll] at halike
        rw [halike hagree]
      · rename_i t hroll
        rw [hroll] at hle halike
        split at h
        · rename_i href
          cases hlookup : references.lookup item.reference with
          | none =>
              rw [hlookup] at h
              cases h
              rw [halike hagree]
              dsimp only
              rw [if_pos href]
          | some referenced =>
              rw [hlookup] at h
              have hreads := processTimes_reads (hcall referenced) item.maxcount
              have hforward := hreads.forward h
              rw [halike fun n h₁ h₂ => hagree n h₁ (Nat.lt_of_lt_of_le h₂ hforward)]
              dsimp only
              rw [if_pos href]
              exact hreads.agree h fun n h₁ h₂ => hagree n (Nat.le_trans hle h₁) h₂
        · rename_i href
          have hforward := hadd.forward h
          rw [halike fun n h₁ h₂ => hagree n h₁ (Nat.lt_of_lt_of_le h₂ hforward)]
          dsimp only
          rw [if_neg href]
          exact hadd.agree h fun n h₁ h₂ => hagree n (Nat.le_trans hle h₁) h₂

/-- One turn of the loop over `Groups`. -/
def groupStep (world : LootWorld P F) (lootMode : Nat) (group : Option (LootTemplateGroup F)) :
    Drawing (Draw F) (Filling P) := fun tape s =>
  match group with
  | some group => some (group.process world (Rolls.ofTape tape) lootMode s)
  | none => some s

theorem processGroups_eq (world : LootWorld P F) (lootMode : Nat)
    (groups : List (Option (LootTemplateGroup F))) (tape : Nat → Draw F) (s : Filling P) :
    Drawing.inOrder (groupStep world lootMode) groups tape s =
      some (processGroups world (Rolls.ofTape tape) lootMode groups s) := by
  induction groups generalizing s with
  | nil => rfl
  | cons group groups ih =>
      cases group with
      | none => exact ih s
      | some group => exact ih (group.process world (Rolls.ofTape tape) lootMode s)

theorem groupStep_reads (world : LootWorld P F) (lootMode : Nat)
    (group : Option (LootTemplateGroup F)) :
    Drawing.Reads Filling.drawn (groupStep world lootMode group) := by
  cases group with
  | none => exact .some _
  | some group => exact process_group_reads world lootMode group

/-- One turn of the loop over `Entries`, with `fuel` for what it calls. -/
def rowStep (world : LootWorld P F) (references : LootTemplateMap F) (rate : Bool)
    (lootMode fuel : Nat) (item : LootRow F) : Drawing (Draw F) (Filling P) := fun tape s =>
  entryStep world (Rolls.ofTape tape) references rate lootMode
    (LootTemplate.process world (Rolls.ofTape tape) references rate lootMode fuel) item s

theorem processEntries_eq (fuel : Nat) (entries : List (LootRow F)) (tape : Nat → Draw F)
    (s : Filling P) :
    Drawing.inOrder (rowStep world references rate lootMode fuel) entries tape s =
      processEntries world (Rolls.ofTape tape) references rate lootMode
        (LootTemplate.process world (Rolls.ofTape tape) references rate lootMode fuel)
        entries s := by
  induction entries generalizing s with
  | nil => rfl
  | cons item entries ih =>
      rw [processEntries_cons]
      show _ >>= _ = _
      exact congrArg _ (funext ih)

/-- A template is its entries and then its groups. -/
theorem process_eq (fuel : Nat) (template : LootTemplate F) (tape : Nat → Draw F)
    (s : Filling P) :
    template.process world (Rolls.ofTape tape) references rate lootMode (fuel + 1) 0 s =
      ((Drawing.inOrder (rowStep world references rate lootMode fuel) template.entries).andThen
        (Drawing.inOrder (groupStep world lootMode) template.groups)) tape s := by
  rw [LootTemplate.process, if_neg (Nat.lt_irrefl 0), ← processEntries_eq]
  show _ = _ >>= _
  exact congrArg _ (funext fun t => (processGroups_eq ..).symm)

theorem process_reads (fuel : Nat) (template : LootTemplate F) (groupId : Nat) :
    Drawing.Reads (α := Draw F) Filling.drawn fun tape s =>
      template.process world (Rolls.ofTape tape) references rate lootMode fuel groupId s := by
  induction fuel generalizing template groupId with
  | zero => exact ⟨fun h => (by cases h), fun h => (by cases h)⟩
  | succ fuel ih =>
      rcases Nat.eq_zero_or_pos groupId with rfl | hgroup
      · simp only [process_eq]
        exact (Drawing.Reads.inOrder fun item _ => entryStep_reads fun referenced =>
          ih referenced item.groupid).andThen (.inOrder fun group _ => groupStep_reads ..)
      · simp only [LootTemplate.process, if_pos hgroup]
        cases hslot : template.groups[groupId - 1]? with
        | none => exact .some _
        | some slot =>
            cases slot with
            | none => exact .some _
            | some group => exact process_group_reads world lootMode group

end Reads

/-! ## Every run comes back -/

section Total

variable {rate : Bool} {lootMode : Nat}

theorem entryStep_isSome {process : LootTemplate F → Nat → Filling P → Option (Filling P)}
    {item : LootRow F}
    (hcall : 0 < item.reference → ∀ referenced,
      references.lookup item.reference = some referenced →
        ∀ s, (process referenced item.groupid s).isSome) (s : Filling P) :
    (entryStep world rolls references rate lootMode process item s).isSome := by
  rw [entryStep]
  split
  · rfl
  · split
    · rfl
    · rename_i t _
      split
      · rename_i href
        split
        · rfl
        · rename_i referenced hlookup
          exact processTimes_isSome (fun _ => hcall href referenced hlookup) t
      · rfl

theorem process_isSome_of_rows {fuel : Nat}
    (hrows : ∀ item ∈ template.entries, ∀ (tape : Nat → Draw F) (s : Filling P),
      (rowStep world references rate lootMode fuel item tape s).isSome)
    (tape : Nat → Draw F) (s : Filling P) :
    (template.process world (Rolls.ofTape tape) references rate lootMode (fuel + 1) 0 s).isSome := by
  have hentries : Drawing.Always (fun _ => True)
      (Drawing.inOrder (rowStep world references rate lootMode fuel) template.entries)
      (fun _ => True) := by
    refine .inOrder fun item hmem tape s _ => ?_
    obtain ⟨s', hs'⟩ := Option.isSome_iff_exists.1 (hrows item hmem tape s)
    exact ⟨s', hs', trivial⟩
  obtain ⟨t, ht, -⟩ := hentries tape s trivial
  rw [process_eq, Drawing.andThen, ht]
  show (Drawing.inOrder (groupStep world lootMode) template.groups tape t).isSome
  rw [processGroups_eq]
  rfl

/-- Below a settled template there is fuel enough for every row, whatever is drawn. -/
theorem rows_isSome (world : LootWorld P F) (rate : Bool) (lootMode : Nat)
    (hsettled : Settled store references template) :
    ∃ enough, ∀ item ∈ template.entries, ∀ fuel, enough ≤ fuel →
      ∀ (tape : Nat → Draw F) (s : Filling P),
        (rowStep world references rate lootMode fuel item tape s).isSome := by
  induction hsettled with
  | @mk template hsame _ _ ih =>
      refine exists_bound fun item hmem => ?_
      by_cases hcall : 0 < item.reference ∧ ∃ referenced,
          references.lookup item.reference = some referenced
      · obtain ⟨href, referenced, hlookup⟩ := hcall
        have hunique : ∀ found, references.lookup item.reference = some found →
            found = referenced := by
          intro found hfound
          rw [hlookup] at hfound
          exact (Option.some.inj hfound).symm
        rcases Nat.eq_zero_or_pos item.groupid with hzero | hpos
        · have hown := (hsame item hmem href).trans hlookup
          obtain ⟨enough, hrows⟩ := ih item hmem href hzero referenced hown
          refine ⟨enough + 1, fun fuel hfuel tape s => ?_⟩
          obtain ⟨fuel, rfl⟩ : ∃ n, fuel = n + 1 := ⟨fuel - 1, by omega⟩
          refine entryStep_isSome (fun _ found hfound s => ?_) s
          rw [hunique found hfound, hzero]
          exact process_isSome_of_rows (fun item' hmem' => hrows item' hmem' fuel (by omega))
            tape s
        · refine ⟨1, fun fuel hfuel tape s => ?_⟩
          obtain ⟨fuel, rfl⟩ : ∃ n, fuel = n + 1 := ⟨fuel - 1, by omega⟩
          exact entryStep_isSome (fun _ found _ s => process_group_isSome hpos found s) s
      · refine ⟨0, fun fuel _ tape s => entryStep_isSome (fun href found hfound => ?_) s⟩
        exact absurd ⟨href, found, hfound⟩ hcall

theorem rowStep_fills {fuel : Nat} {item : LootRow F} (hmem : item ∈ template.entries)
    {tape : Nat → Draw F} {s s' : Filling P}
    (h : rowStep world references rate lootMode fuel item tape s = some s') :
    Fills (Gives references template 0) s s' :=
  entryStep_fills (fun href => .entry hmem href) (fun href _ hlookup _ _ hcall =>
    (process_fills hcall).mono fun _ hrow => .reference hmem href hlookup hrow) h

end Total
end Sunstrider.Looting
