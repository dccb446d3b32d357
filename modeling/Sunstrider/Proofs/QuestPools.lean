import Sunstrider.Proofs.PoolCircles
import Sunstrider.Proofs.PoolRolls

/-!
# Quest pools

What `SpawnObject` activates for quests is a list: the rows of the saved state, or
the quests drawn from those that may be new. The list is defined beside the function,
call by call, and the function is that list activated over what was left active.

Both loops count the limit down before they look at it, so with a limit of zero they
go on until they run out of quests. And the quests that are used again when there are
not enough new ones are drawn from all that are active, of whatever pool. Elsewhere
the pool ends with no more quests than the limit allows, and they are its own. Quests
of other pools are never taken away.
-/

set_option linter.unusedSectionVars false

namespace Sunstrider.Pools

open Inventory

/-! ## What is spawned -/

namespace ActivePoolData

variable (s : ActivePoolData)

@[simp] theorem mem_setInsert {x y : Nat} {l : List Nat} : y ∈ setInsert x l ↔ y = x ∨ y ∈ l := by
  unfold setInsert
  split <;> rename_i h
  · constructor
    · exact .inr
    · intro hy
      rcases hy with hy | hy
      · exact hy ▸ h
      · exact hy
  · exact List.mem_orderedInsert (· ≤ ·)

theorem isActive_mark (k k' : Kind) (g g' : Nat) :
    (s.mark k g).isActiveObject k' g' = (decide (k' = k ∧ g' = g) || s.isActiveObject k' g') := by
  by_cases he : k' = k ∧ g' = g
  · obtain ⟨rfl, rfl⟩ := he
    cases k' <;> simp [mark, isActiveObject]
  · rw [decide_eq_false he, Bool.false_or]
    cases k <;> cases k' <;>
      first | rfl | simp_all [mark, isActiveObject]

theorem isActive_unmark (k k' : Kind) (g g' : Nat) : (s.unmark k g).isActiveObject k' g' =
    (!decide (k' = k ∧ g' = g) && s.isActiveObject k' g') := by
  by_cases he : k' = k ∧ g' = g
  · obtain ⟨rfl, rfl⟩ := he
    cases k' <;> simp [unmark, isActiveObject]
  · rw [decide_eq_false he, Bool.not_false, Bool.true_and]
    cases k <;> cases k' <;>
      first | rfl | simp_all [unmark, isActiveObject]

theorem isActive_entry (P n : Nat) (k' : Kind) (g' : Nat) :
    ({ s with spawnedPools := Function.update s.spawnedPools P (some n) } :
      ActivePoolData).isActiveObject k' g' =
        (decide (k' = .pool ∧ g' = P) || s.isActiveObject k' g') := by
  by_cases he : k' = .pool ∧ g' = P
  · obtain ⟨rfl, rfl⟩ := he
    simp [isActiveObject]
  · rw [decide_eq_false he, Bool.false_or]
    cases k' <;> first | rfl | simp_all [isActiveObject]

/-- An object activated for `P`: the object, and the entry of `P`. -/
theorem isActive_activate (k k' : Kind) (g P g' : Nat) :
    (s.activateObject k g P).isActiveObject k' g' =
      (decide (k' = .pool ∧ g' = P) || (decide (k' = k ∧ g' = g) || s.isActiveObject k' g')) := by
  unfold activateObject countOne
  rw [isActive_entry, isActive_mark]

theorem isActive_remove (k k' : Kind) (g P g' : Nat) :
    (s.removeObject k g P).isActiveObject k' g' =
      (decide (k' = .pool ∧ g' = P) || (!decide (k' = k ∧ g' = g) && s.isActiveObject k' g')) := by
  unfold removeObject uncountOne
  rw [isActive_entry, isActive_unmark]

end ActivePoolData

/-! ## Quests -/

variable {F : Type} [Chance F]

/-- Quests activated for a pool, one after the other. -/
def activateAll (poolId : Nat) (quests : List Nat) (s : ActivePoolData) : ActivePoolData :=
  quests.foldl (fun s quest => s.activateObject .quest quest poolId) s

theorem isActive_activateAll (poolId : Nat) (quests : List Nat) (s : ActivePoolData) (q : Nat) :
    (activateAll poolId quests s).isActiveObject .quest q =
      (decide (q ∈ quests) || s.isActiveObject .quest q) := by
  induction quests generalizing s with
  | nil => simp [activateAll]
  | cons quest quests ih =>
      rw [activateAll, List.foldl_cons]
      rw [show quests.foldl (fun s quest => s.activateObject .quest quest poolId)
        (s.activateObject .quest quest poolId) = activateAll poolId quests
          (s.activateObject .quest quest poolId) from rfl, ih, s.isActive_activate]
      by_cases hq : q = quest <;> simp [hq]

namespace PoolGroup

variable {g : PoolGroup F} {out : Outside F} {poolId n limit clock : Nat} {s : ActivePoolData}
  {newQuests currentQuests : List Nat}

theorem decrement_of_pos (hpos : 0 < limit) (hlt : limit < 2 ^ 32) :
    decrement limit = limit - 1 := by
  rw [decrement, uint32_of_lt (by omega) (by omega)]
  omega

/-- The quests of the pool. -/
def quests (g : PoolGroup F) : List Nat := g.members.map (·.guid)

theorem select_mem (hne : newQuests ≠ []) :
    selectRandomContainerElement out newQuests clock ∈ newQuests := by
  have hpos := List.length_pos_iff.2 hne
  have hlt : out.urand clock 0 (newQuests.length - 1) < newQuests.length := by
    have := (out.urand_mem clock 0 (newQuests.length - 1) (Nat.zero_le _)).2
    omega
  rw [selectRandomContainerElement, List.getD_eq_getElem?_getD, List.getElem?_eq_getElem hlt]
  exact List.getElem_mem hlt

/-! ## The saved state -/

/-- The quests `activateSaved` activates. -/
def savedActivations : List Nat → Nat → List Nat
  | [], _ => []
  | quest :: rows, limit =>
      quest :: if decrement limit = 0 then [] else savedActivations rows (decrement limit)

theorem activateSaved_eq (rows : List Nat) (limit : Nat) (s : ActivePoolData) :
    activateSaved poolId rows limit s = activateAll poolId (savedActivations rows limit) s := by
  induction rows generalizing limit s with
  | nil => rfl
  | cons quest rows ih =>
      simp only [activateSaved, savedActivations]
      split
      · rfl
      · rw [ih]
        rfl

theorem savedActivations_eq (rows : List Nat) (hpos : 0 < limit) (hlt : limit < 2 ^ 32) :
    savedActivations rows limit = rows.take limit := by
  induction rows generalizing limit with
  | nil => rw [List.take_nil, savedActivations]
  | cons quest rows ih =>
      obtain ⟨limit, rfl⟩ : ∃ m, limit = m + 1 := ⟨limit - 1, by omega⟩
      rw [savedActivations, decrement_of_pos hpos hlt, Nat.add_sub_cancel, List.take_succ_cons]
      split
      · rename_i hzero
        rw [hzero, List.take_zero]
      · rename_i hzero
        rw [ih (Nat.pos_of_ne_zero hzero) (by omega)]

/-! ## New quests -/

/-- The quests `activateQuests` activates. -/
def activations (out : Outside F) : Nat → Nat → List Nat → Nat → List Nat
  | 0, _, _, _ => []
  | n + 1, limit, newQuests, clock =>
      let quest := selectRandomContainerElement out newQuests clock
      quest ::
        if decrement limit ≠ 0 ∧ newQuests.erase quest ≠ [] then
          activations out n (decrement limit) (newQuests.erase quest) (clock + 1)
        else []

theorem activateQuests_eq (t : Spawns) :
    (activateQuests out poolId n limit newQuests t).data =
      activateAll poolId (activations out n limit newQuests t.clock) t.data := by
  induction n generalizing limit newQuests t with
  | zero => rfl
  | succ n ih =>
      simp only [activateQuests, activations]
      split
      · rw [ih]
        rfl
      · rfl

/-- Only quests that were to choose from are activated. -/
theorem activations_subset (hne : newQuests ≠ []) {q : Nat}
    (hq : q ∈ activations out n limit newQuests clock) : q ∈ newQuests := by
  induction n generalizing limit newQuests clock with
  | zero => cases hq
  | succ n ih =>
      rw [activations] at hq
      rcases List.mem_cons.1 hq with heq | hq
      · rw [heq]
        exact select_mem hne
      · split at hq
        · rename_i hmore
          exact List.mem_of_mem_erase (ih hmore.2 hq)
        · cases hq

theorem activations_length (hpos : 0 < limit) (hlt : limit < 2 ^ 32) :
    (activations out n limit newQuests clock).length ≤ limit := by
  induction n generalizing limit newQuests clock with
  | zero => exact Nat.zero_le _
  | succ n ih =>
      rw [activations, decrement_of_pos hpos hlt, List.length_cons]
      split
      · rename_i hmore
        exact (Nat.add_le_add_right (ih (by omega) (by omega)) 1).trans (by omega)
      · exact hpos

/-- All of them are, if the limit allows it. -/
theorem mem_activations (hn : newQuests.length ≤ n) (hle : newQuests.length ≤ limit)
    (hlt : limit < 2 ^ 32) {q : Nat} (hq : q ∈ newQuests) :
    q ∈ activations out n limit newQuests clock := by
  induction n generalizing limit newQuests clock with
  | zero =>
      have := List.length_pos_of_mem hq
      omega
  | succ n ih =>
      have hpos := List.length_pos_of_mem hq
      have hselect : selectRandomContainerElement out newQuests clock ∈ newQuests :=
        select_mem (List.ne_nil_of_mem hq)
      have hlength := List.length_erase_of_mem hselect
      rw [activations, decrement_of_pos (by omega) hlt]
      by_cases heq : q = selectRandomContainerElement out newQuests clock
      · rw [heq]
        exact List.mem_cons_self
      · have hrest := (List.mem_erase_of_ne heq).2 hq
        have hrestpos := List.length_pos_of_mem hrest
        rw [if_pos ⟨by omega, List.ne_nil_of_mem hrest⟩]
        exact List.mem_cons_of_mem _ (ih (by omega) (by omega) (by omega) hrest)

/-! ### Quests used again -/

theorem setInsert_length_le (x : Nat) (l : List Nat) : (setInsert x l).length ≤ l.length + 1 := by
  unfold setInsert
  split
  · exact Nat.le_succ _
  · rw [List.orderedInsert_length]

theorem recycle_spec (out : Outside F) (n clock : Nat) (hlt : newQuests.length < limit)
    (hne : currentQuests ≠ []) :
    (recycle out limit n currentQuests newQuests clock).1.length ≤ limit ∧
      (∀ q ∈ newQuests, q ∈ (recycle out limit n currentQuests newQuests clock).1) ∧
      ∀ q ∈ (recycle out limit n currentQuests newQuests clock).1,
        q ∈ newQuests ∨ q ∈ currentQuests := by
  induction n generalizing currentQuests newQuests clock with
  | zero => exact ⟨Nat.le_of_lt hlt, fun q hq => hq, fun q hq => .inl hq⟩
  | succ n ih =>
      have hselect : selectRandomContainerElement out currentQuests clock ∈ currentQuests :=
        select_mem hne
      have hlength := setInsert_length_le (selectRandomContainerElement out currentQuests clock)
        newQuests
      rw [recycle]
      split
      · rename_i hmore
        obtain ⟨hle, hkeeps, hfrom⟩ := ih (clock + 1) hmore.1 hmore.2
        refine ⟨hle, fun q hq => hkeeps q ?_, fun q hq => ?_⟩
        · exact ActivePoolData.mem_setInsert.2 (.inr hq)
        · rcases hfrom q hq with hq | hq
          · rcases ActivePoolData.mem_setInsert.1 hq with heq | hq
            · exact .inr (heq ▸ hselect)
            · exact .inl hq
          · exact .inr (List.mem_of_mem_erase hq)
      · refine ⟨hlength.trans hlt, fun q hq => ?_, fun q hq => ?_⟩
        · exact ActivePoolData.mem_setInsert.2 (.inr hq)
        · rcases ActivePoolData.mem_setInsert.1 hq with heq | hq
          · exact .inr (heq ▸ hselect)
          · exact .inl hq

/-- What is drawn first is used again. -/
theorem first_mem_recycle (out : Outside F) (limit n clock : Nat)
    (currentQuests newQuests : List Nat) :
    selectRandomContainerElement out currentQuests clock ∈
      (recycle out limit (n + 1) currentQuests newQuests clock).1 := by
  have hinsert : selectRandomContainerElement out currentQuests clock ∈
      setInsert (selectRandomContainerElement out currentQuests clock) newQuests :=
    ActivePoolData.mem_setInsert.2 (.inl rfl)
  rw [recycle]
  split
  · rename_i hmore
    exact (recycle_spec out n (clock + 1) hmore.1 hmore.2).2.1 _ hinsert
  · exact hinsert

/-! ## The whole function -/

theorem mem_inactiveQuests {q : Nat} : q ∈ g.inactiveQuests s ↔
    (∃ o ∈ g.equalChanced, o.guid = q) ∧ s.isActiveObject .quest q = false := by
  have hfold : ∀ (l : List (PoolObject F)) (start : List Nat),
      q ∈ l.foldl (fun newQuests o =>
        if s.isActiveObject .quest o.guid then newQuests else setInsert o.guid newQuests) start ↔
      q ∈ start ∨ (∃ o ∈ l, o.guid = q) ∧ s.isActiveObject .quest q = false := by
    intro l
    induction l with
    | nil => simp
    | cons o l ih =>
        intro start
        rw [List.foldl_cons, ih]
        by_cases hactive : s.isActiveObject .quest o.guid = true
        · rw [if_pos hactive]
          constructor
          · rintro (h | ⟨⟨o', ho', heq⟩, h⟩)
            · exact .inl h
            · exact .inr ⟨⟨o', List.mem_cons_of_mem _ ho', heq⟩, h⟩
          · rintro (h | ⟨⟨o', ho', heq⟩, h⟩)
            · exact .inl h
            · rcases List.mem_cons.1 ho' with rfl | ho'
              · rw [heq, h] at hactive
                cases hactive
              · exact .inr ⟨⟨o', ho', heq⟩, h⟩
        · rw [if_neg hactive, ActivePoolData.mem_setInsert]
          rw [Bool.not_eq_true] at hactive
          constructor
          · rintro ((h | h) | ⟨⟨o', ho', heq⟩, h⟩)
            · exact .inr ⟨⟨o, List.mem_cons_self, h.symm⟩, h ▸ hactive⟩
            · exact .inl h
            · exact .inr ⟨⟨o', List.mem_cons_of_mem _ ho', heq⟩, h⟩
          · rintro (h | ⟨⟨o', ho', heq⟩, h⟩)
            · exact .inl (.inr h)
            · rcases List.mem_cons.1 ho' with rfl | ho'
              · exact .inl (.inl heq.symm)
              · exact .inr ⟨⟨o', ho', heq⟩, h⟩
  rw [inactiveQuests, hfold]
  simp

theorem inactiveQuests_subset {q : Nat} (hq : q ∈ g.inactiveQuests s) : q ∈ g.quests := by
  obtain ⟨⟨o, ho, heq⟩, -⟩ := mem_inactiveQuests.1 hq
  exact List.mem_map.2 ⟨o, List.mem_append_left _ ho, heq⟩

/-- Nothing but the quests of a list is removed, and all of those are. -/
theorem despawnList_quests (poolId : Nat) (l : List (PoolObject F)) (s : ActivePoolData) :
    ∃ s', despawnList .quest poolId 0 (fun s _ => some s) l s = some s' ∧
      ∀ q, s'.isActiveObject .quest q =
        (s.isActiveObject .quest q && decide (q ∉ l.map (·.guid))) := by
  induction l generalizing s with
  | nil => exact ⟨s, rfl, fun q => by simp⟩
  | cons o l ih =>
      rw [despawnList]
      by_cases hactive : s.isActiveObject .quest o.guid = true
      · rw [if_pos ⟨hactive, .inl rfl⟩]
        obtain ⟨s', hs', hq⟩ := ih (s.removeObject .quest o.guid poolId)
        refine ⟨s', hs', fun q => ?_⟩
        rw [hq, s.isActive_remove]
        by_cases heq : q = o.guid <;> simp [heq]
      · rw [if_neg fun h => hactive h.1]
        obtain ⟨s', hs', hq⟩ := ih s
        refine ⟨s', hs', fun q => ?_⟩
        rw [hq]
        by_cases heq : q = o.guid
        · rw [heq]
          simp [hactive]
        · simp [heq]

theorem despawnObject_quests (g : PoolGroup F) (s : ActivePoolData) :
    ∃ s', g.despawnObject .quest (fun s _ => some s) s 0 = some s' ∧
      ∀ q, s'.isActiveObject .quest q =
        (s.isActiveObject .quest q && decide (q ∉ g.quests)) := by
  obtain ⟨s₁, hs₁, h₁⟩ := despawnList_quests g.poolId g.equalChanced s
  obtain ⟨s₂, hs₂, h₂⟩ := despawnList_quests g.poolId g.explicitlyChanced s₁
  refine ⟨s₂, ?_, fun q => ?_⟩
  · rw [despawnObject, hs₁]
    exact hs₂
  · rw [h₂, h₁]
    simp [quests, members, Bool.and_assoc]

/-- The quests to choose from: the inactive ones, and as many of the active as are
missing. The clock comes with them. -/
def newQuestsOf (g : PoolGroup F) (out : Outside F) (limit : Nat) (s : ActivePoolData)
    (clock : Nat) : List Nat × Nat :=
  if (g.inactiveQuests s).length < limit ∧ s.activeQuests ≠ [] then
    recycle out limit s.activeQuests.length s.activeQuests (g.inactiveQuests s) clock
  else (g.inactiveQuests s, clock)

/-- The quests `SpawnObject` activates where the pool changes. -/
def changedQuests (g : PoolGroup F) (out : Outside F) (limit : Nat) (s : ActivePoolData)
    (clock : Nat) : List Nat :=
  let (newQuests, clock) := g.newQuestsOf out limit s clock
  activations out newQuests.length limit newQuests clock

theorem changeQuests_eq (g : PoolGroup F) (out : Outside F) (limit : Nat) (t : Spawns) :
    ∃ t' data, g.changeQuests out limit t = some t' ∧
      t'.data = activateAll g.poolId (g.changedQuests out limit t.data t.clock) data ∧
      ∀ q, data.isActiveObject .quest q =
        (t.data.isActiveObject .quest q && decide (q ∉ g.quests)) := by
  obtain ⟨data, hdata, hactive⟩ := despawnObject_quests g t.data
  let chosen := g.newQuestsOf out limit t.data t.clock
  refine ⟨activateQuests out g.poolId chosen.1.length limit chosen.1 ⟨data, chosen.2⟩, data, ?_, ?_,
    hactive⟩
  · rw [changeQuests, hdata]
    rfl
  · rw [activateQuests_eq]
    rfl

/-- The quests `SpawnObject` activates, in the order in which it does. -/
def chosenQuests (g : PoolGroup F) (out : Outside F) (limit : Nat) (limitPercent : F)
    (triggerFrom : Nat) (t : Spawns) : List Nat :=
  let limit := g.limitOf limit limitPercent
  if triggerFrom = 0 then
    let rows := out.savedQuests t.clock g.poolId
    if rows ≠ [] then savedActivations rows limit
    else g.changedQuests out limit t.data (t.clock + 1)
  else g.changedQuests out limit t.data t.clock

/-! ## What it should leave -/

/-- How many quests of the pool are active. -/
def activeQuestCount (g : PoolGroup F) (s : ActivePoolData) : Nat :=
  g.quests.dedup.countP fun q => s.isActiveObject .quest q

/-- The pool ends with no more of its quests than the limit, what it has activated is
its own, no other quest is taken away, and the limit was never counted down below zero:
each activation counts it down once. -/
structure QuestsRight (g : PoolGroup F) (limit : Nat) (chosen : List Nat)
    (s s' : ActivePoolData) : Prop where
  atMost : g.activeQuestCount s' ≤ limit
  own : ∀ q ∈ chosen, q ∈ g.quests
  others : ∀ q, q ∉ g.quests → s.isActiveObject .quest q = true →
    s'.isActiveObject .quest q = true
  counted : chosen.length ≤ limit

/-- A saved state fits if it names quests of the pool only, and with what is active
they are no more than the limit. A change fits if there is a limit where there is
something to activate, and if all that is active is of the pool where quests have to be
used again. -/
def QuestsFit (g : PoolGroup F) (rows : List Nat) (limit triggerFrom : Nat)
    (s : ActivePoolData) : Prop :=
  if triggerFrom = 0 ∧ rows ≠ [] then
    limit ≠ 0 ∧ (∀ q ∈ rows.take limit, q ∈ g.quests) ∧
      (g.quests.dedup.countP fun q =>
        decide (q ∈ rows.take limit) || s.isActiveObject .quest q) ≤ limit
  else
    (limit = 0 → g.inactiveQuests s = []) ∧
      ((g.inactiveQuests s).length < limit → ∀ q ∈ s.activeQuests, q ∈ g.quests)

theorem activeQuestCount_activateAll (chosen : List Nat) (s : ActivePoolData) :
    g.activeQuestCount (activateAll poolId chosen s) =
      g.quests.dedup.countP fun q => decide (q ∈ chosen) || s.isActiveObject .quest q := by
  unfold activeQuestCount
  refine List.countP_congr fun q _ => ?_
  rw [isActive_activateAll]

theorem saved_right_iff (rows : List Nat) (hrows : rows ≠ []) (hlt : limit < 2 ^ 32)
    (s : ActivePoolData) :
    g.QuestsRight limit (savedActivations rows limit) s
        (activateAll g.poolId (savedActivations rows limit) s) ↔
      limit ≠ 0 ∧ (∀ q ∈ rows.take limit, q ∈ g.quests) ∧
        (g.quests.dedup.countP fun q =>
          decide (q ∈ rows.take limit) || s.isActiveObject .quest q) ≤ limit := by
  rcases Nat.eq_zero_or_pos limit with rfl | hpos
  · refine iff_of_false (fun h => ?_) (fun h => h.1 rfl)
    cases rows with
    | nil => exact hrows rfl
    | cons quest rows => exact absurd h.counted (by simp [savedActivations])
  · rw [savedActivations_eq rows hpos hlt]
    constructor
    · intro h
      have hcount := h.atMost
      rw [activeQuestCount_activateAll] at hcount
      exact ⟨Nat.pos_iff_ne_zero.1 hpos, h.own, hcount⟩
    · rintro ⟨-, hown, hcount⟩
      rw [← activeQuestCount_activateAll] at hcount
      refine ⟨hcount, hown, fun q _ hactive => ?_, ?_⟩
      · rw [isActive_activateAll, hactive, Bool.or_true]
      · rw [List.length_take]
        exact Nat.min_le_left _ _

/-- A member that was removed is active only if it was chosen. -/
theorem activeQuestCount_le {chosen : List Nat} {data : ActivePoolData}
    (hdata : ∀ q, data.isActiveObject .quest q =
      (s.isActiveObject .quest q && decide (q ∉ g.quests))) :
    g.activeQuestCount (activateAll poolId chosen data) ≤ chosen.length := by
  rw [activeQuestCount_activateAll, List.countP_eq_length_filter]
  have hnodup : (g.quests.dedup.filter fun q =>
      decide (q ∈ chosen) || data.isActiveObject .quest q).Nodup :=
    (List.nodup_dedup _).filter _
  refine (List.subperm_of_subset hnodup fun q hq => ?_).length_le
  obtain ⟨hmem, hactive⟩ := List.mem_filter.1 hq
  rw [hdata q, decide_eq_false (not_not.2 (List.mem_dedup.1 hmem)), Bool.and_false,
    Bool.or_false] at hactive
  exact of_decide_eq_true hactive

theorem changed_right (hlimit : limit = 0 → g.inactiveQuests s = [])
    (hrecycle : (g.inactiveQuests s).length < limit → ∀ q ∈ s.activeQuests, q ∈ g.quests)
    (hlt : limit < 2 ^ 32) {data : ActivePoolData}
    (hdata : ∀ q, data.isActiveObject .quest q =
      (s.isActiveObject .quest q && decide (q ∉ g.quests))) :
    g.QuestsRight limit (g.changedQuests out limit s clock) s
      (activateAll g.poolId (g.changedQuests out limit s clock) data) := by
  have hnew : ∀ q ∈ (g.newQuestsOf out limit s clock).1, q ∈ g.quests := by
    intro q hq
    rw [newQuestsOf] at hq
    split at hq
    · rename_i hmore
      rcases (recycle_spec out s.activeQuests.length clock hmore.1 hmore.2).2.2 q hq with hq | hq
      · exact inactiveQuests_subset hq
      · exact hrecycle hmore.1 q hq
    · exact inactiveQuests_subset hq
  have hcounted : (g.changedQuests out limit s clock).length ≤ limit := by
    rcases Nat.eq_zero_or_pos limit with rfl | hpos
    · have hnone : (g.newQuestsOf out 0 s clock).1 = [] := by
        rw [newQuestsOf, if_neg fun h => Nat.not_lt_zero _ h.1]
        exact hlimit rfl
      simp only [changedQuests, hnone]
      exact Nat.le_refl 0
    · exact activations_length hpos hlt
  refine ⟨(activeQuestCount_le hdata).trans hcounted, fun q hq => ?_, fun q hq hactive => ?_,
    hcounted⟩
  · rcases List.eq_nil_or_concat (g.newQuestsOf out limit s clock).1 with hnil | ⟨_, _, hcons⟩
    · simp only [changedQuests, hnil] at hq
      cases hq
    · exact hnew q (activations_subset (by rw [hcons]; simp) hq)
  · rw [isActive_activateAll, hdata q, hactive, decide_eq_true hq, Bool.and_true, Bool.or_true]

/-- Draws that always take the same place, if there is one. -/
def fixedDraws (rows : List Nat) (place : Nat) : Outside F where
  randChance _ := 0
  urand _ lo hi := if lo ≤ place ∧ place ≤ hi then place else lo
  urand_mem _ lo hi hle := by split <;> omega
  savedQuests _ _ := rows

/-- Where the condition fails some draws show it. -/
theorem fit_of_changed_right (rows : List Nat) (clock : Nat) (hlt : limit < 2 ^ 32)
    (hright : ∀ place, ∃ s',
      g.QuestsRight limit (g.changedQuests (fixedDraws rows place) limit s clock) s s') :
    (limit = 0 → g.inactiveQuests s = []) ∧
      ((g.inactiveQuests s).length < limit → ∀ q ∈ s.activeQuests, q ∈ g.quests) := by
  constructor
  · rintro rfl
    obtain ⟨_, hzero⟩ := hright 0
    have hcounted := hzero.counted
    by_contra hne
    have hnew : g.newQuestsOf (fixedDraws rows 0) 0 s clock = (g.inactiveQuests s, clock) :=
      if_neg fun h => Nat.not_lt_zero _ h.1
    obtain ⟨n, hn⟩ : ∃ n, (g.inactiveQuests s).length = n + 1 :=
      Nat.exists_eq_succ_of_ne_zero (mt List.length_eq_zero_iff.1 hne)
    simp only [changedQuests, hnew, hn, activations] at hcounted
    exact absurd hcounted (by simp)
  · intro hfew q hq
    obtain ⟨place, hplace, hat⟩ := List.getElem_of_mem hq
    have hne : s.activeQuests ≠ [] := List.ne_nil_of_mem hq
    -- the first draw takes the quest
    have hdraw : selectRandomContainerElement (fixedDraws (F := F) rows place) s.activeQuests
        clock = q := by
      have hurand : (fixedDraws (F := F) rows place).urand clock 0 (s.activeQuests.length - 1) =
          place := if_pos ⟨Nat.zero_le _, by omega⟩
      rw [selectRandomContainerElement, hurand, List.getD_eq_getElem?_getD,
        List.getElem?_eq_getElem hplace, Option.getD_some, hat]
    obtain ⟨n, hn⟩ : ∃ n, s.activeQuests.length = n + 1 := ⟨s.activeQuests.length - 1, by omega⟩
    have hnew : g.newQuestsOf (fixedDraws rows place) limit s clock =
        recycle (fixedDraws (F := F) rows place) limit (n + 1) s.activeQuests
          (g.inactiveQuests s) clock := by
      rw [newQuestsOf, if_pos ⟨hfew, hne⟩, hn]
    have hmem := first_mem_recycle (fixedDraws (F := F) rows place) limit n clock s.activeQuests
      (g.inactiveQuests s)
    have hlen := (recycle_spec (fixedDraws (F := F) rows place) (n + 1) clock hfew hne).1
    rw [hdraw] at hmem
    obtain ⟨_, hplaced⟩ := hright place
    refine hplaced.own q ?_
    simp only [changedQuests, hnew]
    exact mem_activations (Nat.le_refl _) hlen hlt hmem

/-- For all draws, and whatever rows the query for the pool finds: the pool is left as
it should be if and only if the rows, the limit and the active quests fit. -/
theorem spawnQuests_right_iff (g : PoolGroup F) (rows : List Nat) (limit : Nat)
    (limitPercent : F) (triggerFrom : Nat) (t : Spawns)
    (hlimit : g.limitOf limit limitPercent < 2 ^ 32) :
    (∀ out : Outside F, (∀ clock, out.savedQuests clock g.poolId = rows) →
      ∃ t' data, g.spawnQuests out limit limitPercent triggerFrom t = some t' ∧
        t'.data = activateAll g.poolId
          (g.chosenQuests out limit limitPercent triggerFrom t) data ∧
        g.QuestsRight (g.limitOf limit limitPercent)
          (g.chosenQuests out limit limitPercent triggerFrom t) t.data t'.data) ↔
      g.QuestsFit rows (g.limitOf limit limitPercent) triggerFrom t.data := by
  -- the change of the pool, from either branch
  have hchange : ∀ clock, (∀ out : Outside F, (∀ clock, out.savedQuests clock g.poolId = rows) →
      ∃ t' data, g.changeQuests out (g.limitOf limit limitPercent) ⟨t.data, clock⟩ = some t' ∧
        t'.data = activateAll g.poolId
          (g.changedQuests out (g.limitOf limit limitPercent) t.data clock) data ∧
        g.QuestsRight (g.limitOf limit limitPercent)
          (g.changedQuests out (g.limitOf limit limitPercent) t.data clock) t.data t'.data) ↔
      (g.limitOf limit limitPercent = 0 → g.inactiveQuests t.data = []) ∧
        ((g.inactiveQuests t.data).length < g.limitOf limit limitPercent →
          ∀ q ∈ t.data.activeQuests, q ∈ g.quests) := by
    intro clock
    constructor
    · intro hall
      refine fit_of_changed_right rows clock hlimit fun place => ?_
      obtain ⟨t', _, _, _, hright⟩ := hall (fixedDraws rows place) fun _ => rfl
      exact ⟨t'.data, hright⟩
    · rintro ⟨hzero, hrecycle⟩ out -
      obtain ⟨t', data, hsome, hdata, hactive⟩ :=
        changeQuests_eq g out (g.limitOf limit limitPercent) ⟨t.data, clock⟩
      refine ⟨t', data, hsome, hdata, ?_⟩
      rw [hdata]
      exact changed_right hzero hrecycle hlimit hactive
  by_cases hstart : triggerFrom = 0
  · by_cases hrows : rows = []
    · rw [QuestsFit, if_neg fun h => h.2 hrows, ← hchange (t.clock + 1)]
      refine forall_congr' fun out => forall_congr' fun hsaved => ?_
      simp only [spawnQuests, chosenQuests, if_pos hstart]
      rw [hsaved, if_neg (not_not.2 hrows), if_neg (not_not.2 hrows)]
      rfl
    · rw [QuestsFit, if_pos ⟨hstart, hrows⟩, ← saved_right_iff rows hrows hlimit]
      constructor
      · intro hall
        obtain ⟨t', data, hsome, hdata, hright⟩ := hall (fixedDraws rows 0) fun _ => rfl
        simp only [spawnQuests, chosenQuests, if_pos hstart] at hsome hright
        rw [show (fixedDraws (F := F) rows 0).savedQuests t.clock g.poolId = rows from rfl,
          if_pos hrows] at hsome hright
        obtain rfl := Option.some.inj hsome
        rwa [activateSaved_eq] at hright
      · intro hright out hsaved
        simp only [spawnQuests, chosenQuests, if_pos hstart]
        rw [hsaved, if_pos hrows, if_pos hrows]
        refine ⟨_, t.data, rfl, activateSaved_eq _ _ _, ?_⟩
        simp only [activateSaved_eq]
        exact hright
  · rw [QuestsFit, if_neg fun h => hstart h.1, ← hchange t.clock]
    refine forall_congr' fun out => forall_congr' fun hsaved => ?_
    simp only [spawnQuests, chosenQuests, if_neg hstart]

/-! Pool 1 has quest 1; quest 2, of another pool, is active as well. -/

def onlyQuestOne : PoolGroup ℚ := ⟨1, [], [⟨1, 0⟩]⟩

def oneAndTwo : Spawns :=
  ⟨⟨[], [], [1, 2], fun pool => if pool = 1 ∨ pool = 2 then some 1 else none⟩, 0⟩

theorem spawnQuests_right_iff_one :
    (∀ out : Outside ℚ, (∀ clock, out.savedQuests clock 1 = []) →
      ∃ t' data, onlyQuestOne.spawnQuests out 1 0 1 oneAndTwo = some t' ∧
        t'.data = activateAll 1 (onlyQuestOne.chosenQuests out 1 0 1 oneAndTwo) data ∧
        onlyQuestOne.QuestsRight (onlyQuestOne.limitOf 1 0)
          (onlyQuestOne.chosenQuests out 1 0 1 oneAndTwo) oneAndTwo.data t'.data) ↔
      onlyQuestOne.QuestsFit [] (onlyQuestOne.limitOf 1 0) 1 oneAndTwo.data :=
  spawnQuests_right_iff onlyQuestOne [] 1 0 1 oneAndTwo (by decide +kernel)

/-- Quest 2 is drawn, and activated for pool 1. -/
theorem recycles_quest_of_other_pool :
    (onlyQuestOne.spawnQuests (fixedDraws [] 1) 1 0 1 oneAndTwo).map (·.data.activeQuests) =
        some [2] ∧
      onlyQuestOne.chosenQuests (fixedDraws [] 1) 1 0 1 oneAndTwo = [2] ∧
      2 ∉ onlyQuestOne.quests ∧
      ¬ onlyQuestOne.QuestsRight (onlyQuestOne.limitOf 1 0)
        (onlyQuestOne.chosenQuests (fixedDraws [] 1) 1 0 1 oneAndTwo) oneAndTwo.data
        ((onlyQuestOne.spawnQuests (fixedDraws [] 1) 1 0 1 oneAndTwo).getD oneAndTwo).data := by
  have hchosen : onlyQuestOne.chosenQuests (fixedDraws [] 1) 1 0 1 oneAndTwo = [2] := by
    decide +kernel
  have hother : 2 ∉ onlyQuestOne.quests := by decide
  refine ⟨by decide +kernel, hchosen, hother, fun hright => hother (hright.own 2 ?_)⟩
  rw [hchosen]
  exact List.mem_singleton.2 rfl

end PoolGroup

end Sunstrider.Pools
