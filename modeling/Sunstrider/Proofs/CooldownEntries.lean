import Sunstrider.Spells.SpellHistory

/-!
# What the operations do to entries and pointers

Every question about a history is one about two relations: `Entry`, that a spell
has a certain entry, and `Points`, that the pointer of a category leads to a
spell. This file says once for each operation what it does to the two. The loops
run over a map while they erase from it; since a key comes once, what is left to
visit is still there, so a loop erases exactly what its test says.
-/

namespace Sunstrider.Spells.SpellHistory

open List

variable {e : CooldownEntry} {c s' : Nat}

/-- The spell has this entry. -/
def Entry (h : SpellHistory) (s : Nat) (e : CooldownEntry) : Prop :=
  h.spellCooldowns.lookup s = some e

/-- The pointer of the category leads to the spell. -/
def Points (h : SpellHistory) (c s : Nat) : Prop := h.categoryCooldowns.lookup c = some s

variable {h : SpellHistory}

theorem Entry.unique {e' : CooldownEntry} (he : h.Entry s e) (he' : h.Entry s e') : e = e' := by
  rw [Entry] at he he'
  rw [he] at he'
  exact Option.some.inj he'

theorem entry_iff_mem :
    h.Entry s e ↔ (⟨s, e⟩ : (_ : Nat) × CooldownEntry) ∈ h.spellCooldowns.entries :=
  AList.mem_lookup_iff

theorem points_iff_mem : h.Points c s ↔ (⟨c, s⟩ : (_ : Nat) × Nat) ∈ h.categoryCooldowns.entries :=
  AList.mem_lookup_iff

theorem lookup_insert_iff {β : Type} {m : AList fun _ : Nat => β} {k' : Nat} {b b' : β} :
    (m.insert k b).lookup k' = some b' ↔ if k' = k then b = b' else m.lookup k' = some b' := by
  by_cases hk : k' = k
  · subst hk
    simp
  · rw [AList.lookup_insert_ne hk, if_neg hk]

theorem lookup_erase_iff {β : Type} {m : AList fun _ : Nat => β} {k' : Nat} {b' : β} :
    (m.erase k).lookup k' = some b' ↔ k' ≠ k ∧ m.lookup k' = some b' := by
  by_cases hk : k' = k
  · subst hk
    simp
  · rw [AList.lookup_erase_ne hk]
    simp [hk]

/-! ## Adding an entry -/

variable {s itemId k : Nat} {cooldownEnd categoryEnd : Int} {onHold : Bool}

theorem entry_addCooldown :
    (h.addCooldown s itemId cooldownEnd k categoryEnd onHold).Entry s' e ↔
      if s' = s then (⟨s, cooldownEnd, itemId, k, categoryEnd, onHold⟩ : CooldownEntry) = e
      else h.Entry s' e :=
  lookup_insert_iff

theorem points_addCooldown :
    (h.addCooldown s itemId cooldownEnd k categoryEnd onHold).Points c s' ↔
      if k ≠ 0 ∧ c = k then s = s' else h.Points c s' := by
  rw [Points, addCooldown]
  by_cases hk : k = 0
  · simp [hk, Points]
  · simp only [ne_eq, hk, not_false_eq_true, true_and]
    exact lookup_insert_iff

/-! ## Erasing entries -/

theorem entry_eraseCooldown {e' : CooldownEntry} :
    (h.eraseCooldown s e).Entry s' e' ↔ s' ≠ s ∧ h.Entry s' e' :=
  lookup_erase_iff

theorem points_eraseCooldown :
    (h.eraseCooldown s e).Points c s' ↔ c ≠ e.categoryId ∧ h.Points c s' :=
  lookup_erase_iff

/-- The loop over some of the entries. -/
theorem eraseWhere_list (p : Nat → CooldownEntry → Bool) {l : List ((_ : Nat) × CooldownEntry)} :
    ∀ {h : SpellHistory}, l.NodupKeys → (∀ x ∈ l, h.Entry x.1 x.2) →
      (∀ s e, (h.eraseWhere p l).Entry s e ↔
        h.Entry s e ∧ ¬ ((⟨s, e⟩ : (_ : Nat) × CooldownEntry) ∈ l ∧ p s e = true)) ∧
      ∀ c s, (h.eraseWhere p l).Points c s ↔
        h.Points c s ∧ ∀ x ∈ l, p x.1 x.2 = true → x.2.categoryId ≠ c := by
  induction l with
  | nil =>
      intro h _ _
      simp [eraseWhere]
  | cons x l ih =>
      intro h hnodup hentries
      obtain ⟨s, e⟩ := x
      obtain ⟨hnot, hnodup⟩ := List.nodupKeys_cons.1 hnodup
      have hx : h.Entry s e := hentries ⟨s, e⟩ (by simp)
      have hl : ∀ x ∈ l, h.Entry x.1 x.2 := fun x hx => hentries x (by simp [hx])
      have hkey : ∀ {s' e'}, (⟨s', e'⟩ : (_ : Nat) × CooldownEntry) ∈ l → s' ≠ s := by
        intro s' e' hmem heq
        have hmem' : s' ∈ l.keys := List.mem_keys_of_mem hmem
        exact hnot (heq ▸ hmem')
      by_cases hp : p s e = true
      · have hstep : h.eraseWhere p (⟨s, e⟩ :: l) = (h.eraseCooldown s e).eraseWhere p l := by
          simp only [eraseWhere, List.foldl_cons, if_pos hp]
        obtain ⟨hentry, hpoints⟩ := ih hnodup (h := h.eraseCooldown s e)
          (fun x hx => entry_eraseCooldown.2 ⟨hkey hx, hl x hx⟩)
        rw [hstep]
        refine ⟨?_, ?_⟩
        · intro s' e'
          rw [hentry, entry_eraseCooldown, List.mem_cons]
          constructor
          · intro hleft
            obtain ⟨⟨hne, he'⟩, hrest⟩ := hleft
            refine ⟨he', ?_⟩
            intro hboth
            rcases hboth.1 with heq | hmem
            · cases heq
              exact hne rfl
            · exact hrest ⟨hmem, hboth.2⟩
          · intro hright
            obtain ⟨he', hrest⟩ := hright
            refine ⟨⟨?_, he'⟩, fun hboth => hrest ⟨.inr hboth.1, hboth.2⟩⟩
            intro heq
            subst heq
            have heq := he'.unique hx
            subst heq
            exact hrest ⟨.inl rfl, hp⟩
        · intro c s'
          rw [hpoints, points_eraseCooldown]
          simp only [List.mem_cons, forall_eq_or_imp]
          constructor
          · intro hleft
            exact ⟨hleft.1.2, fun _ => Ne.symm hleft.1.1, hleft.2⟩
          · intro hright
            exact ⟨⟨Ne.symm (hright.2.1 hp), hright.1⟩, hright.2.2⟩
      · have hstep : h.eraseWhere p (⟨s, e⟩ :: l) = h.eraseWhere p l := by
          simp only [eraseWhere, List.foldl_cons, if_neg hp]
        obtain ⟨hentry, hpoints⟩ := ih hnodup hl
        rw [hstep]
        refine ⟨?_, ?_⟩
        · intro s' e'
          rw [hentry, List.mem_cons]
          constructor
          · intro hleft
            refine ⟨hleft.1, ?_⟩
            intro hboth
            rcases hboth.1 with heq | hmem
            · cases heq
              exact hp hboth.2
            · exact hleft.2 ⟨hmem, hboth.2⟩
          · intro hright
            exact ⟨hright.1, fun hboth => hright.2 ⟨.inr hboth.1, hboth.2⟩⟩
        · intro c s'
          rw [hpoints]
          simp only [List.mem_cons, forall_eq_or_imp]
          constructor
          · intro hleft
            exact ⟨hleft.1, fun hpos => absurd hpos hp, hleft.2⟩
          · intro hright
            exact ⟨hright.1, hright.2.2⟩

theorem entry_resetCooldowns {p : Nat → CooldownEntry → Bool} :
    (h.resetCooldowns p).Entry s e ↔ h.Entry s e ∧ p s e = false := by
  have hspec := (eraseWhere_list p h.spellCooldowns.nodupKeys
    (fun x hx => entry_iff_mem.2 hx)).1 s e
  rw [resetCooldowns, hspec, ← entry_iff_mem]
  constructor
  · intro hleft
    refine ⟨hleft.1, ?_⟩
    rw [← Bool.not_eq_true]
    exact fun hp => hleft.2 ⟨hleft.1, hp⟩
  · intro hright
    refine ⟨hright.1, ?_⟩
    intro hboth
    rw [hright.2] at hboth
    exact Bool.false_ne_true hboth.2

theorem points_resetCooldowns {p : Nat → CooldownEntry → Bool} :
    (h.resetCooldowns p).Points c s ↔
      h.Points c s ∧ ∀ s' e', h.Entry s' e' → p s' e' = true → e'.categoryId ≠ c := by
  have hspec := (eraseWhere_list p h.spellCooldowns.nodupKeys
    (fun x hx => entry_iff_mem.2 hx)).2 c s
  rw [resetCooldowns, hspec]
  constructor
  · intro hleft
    exact ⟨hleft.1, fun s' e' he' hp => hleft.2 ⟨s', e'⟩ (entry_iff_mem.1 he') hp⟩
  · intro hright
    exact ⟨hright.1, fun x hx hp => hright.2 x.1 x.2 (entry_iff_mem.2 hx) hp⟩

theorem entry_resetCooldown : (h.resetCooldown s).Entry s' e ↔ s' ≠ s ∧ h.Entry s' e := by
  rw [resetCooldown]
  split <;> rename_i hs
  · constructor
    · intro he
      refine ⟨?_, he⟩
      intro heq
      rw [heq, Entry, hs] at he
      cases he
    · exact And.right
  · exact entry_eraseCooldown

theorem points_resetCooldown :
    (h.resetCooldown s).Points c s' ↔
      h.Points c s' ∧ ∀ e, h.Entry s e → e.categoryId ≠ c := by
  rw [resetCooldown]
  split <;> rename_i hs
  · constructor
    · intro hp
      refine ⟨hp, ?_⟩
      intro e he
      rw [Entry, hs] at he
      cases he
    · exact And.left
  · rename_i e
    rw [points_eraseCooldown]
    constructor
    · intro hleft
      refine ⟨hleft.2, ?_⟩
      intro e' he'
      have heq := he'.unique hs
      rw [heq]
      exact Ne.symm hleft.1
    · intro hright
      exact ⟨Ne.symm (hright.2 e hs), hright.1⟩

/-! ## An update -/

/-- Every pointer leads to an entry. -/
def NoDangling (h : SpellHistory) : Prop := ∀ c s, h.Points c s → ∃ e, h.Entry s e

/-- The loop over some of the pointers, all of which lead to entries. -/
theorem expireCategories_spec (now : Int) {l : List ((_ : Nat) × Nat)} :
    ∀ {h : SpellHistory}, (∀ x ∈ l, ∃ e, h.Entry x.2 e) →
      ∃ h', expireCategories now l h = some h' ∧ h'.spellCooldowns = h.spellCooldowns ∧
        ∀ c s, h'.Points c s ↔ h.Points c s ∧
          ∀ x ∈ l, ∀ e, h.Entry x.2 e → e.categoryEnd < now → x.1 ≠ c := by
  induction l with
  | nil =>
      intro h _
      exact ⟨h, rfl, rfl, by simp⟩
  | cons x l ih =>
      intro h hentries
      obtain ⟨category, s⟩ := x
      obtain ⟨e, he⟩ := hentries ⟨category, s⟩ (by simp)
      have hl : ∀ x ∈ l, ∃ e, h.Entry x.2 e := fun x hx => hentries x (by simp [hx])
      have hone : ∀ {c}, (∀ e', h.Entry s e' → e'.categoryEnd < now → category ≠ c) ↔
          (e.categoryEnd < now → category ≠ c) := by
        intro c
        constructor
        · intro hall
          exact hall e he
        · intro hthis e' he'
          rw [he'.unique he]
          exact hthis
      have hlookup : h.spellCooldowns.lookup s = some e := he
      simp only [expireCategories, hlookup]
      by_cases hend : e.categoryEnd < now
      · obtain ⟨h', hrun, hsame, hpoints⟩ := ih
          (h := { h with categoryCooldowns := h.categoryCooldowns.erase category }) hl
        refine ⟨h', by rw [if_pos hend]; exact hrun, hsame, ?_⟩
        intro c s'
        simp only [List.mem_cons, forall_eq_or_imp]
        rw [hpoints, hone]
        have herase : SpellHistory.Points
            { h with categoryCooldowns := h.categoryCooldowns.erase category } c s' ↔
              c ≠ category ∧ h.Points c s' := lookup_erase_iff
        rw [herase]
        constructor
        · intro hleft
          exact ⟨hleft.1.2, fun _ => Ne.symm hleft.1.1, hleft.2⟩
        · intro hright
          exact ⟨⟨Ne.symm (hright.2.1 hend), hright.1⟩, hright.2.2⟩
      · obtain ⟨h', hrun, hsame, hpoints⟩ := ih hl
        refine ⟨h', by rw [if_neg hend]; exact hrun, hsame, ?_⟩
        intro c s'
        simp only [List.mem_cons, forall_eq_or_imp]
        rw [hpoints, hone]
        constructor
        · intro hleft
          exact ⟨hleft.1, fun hend' => absurd hend' hend, hleft.2⟩
        · intro hright
          exact ⟨hright.1, hright.2.2⟩

/-- An update keeps the entries that are not over, and the pointers to entries whose
category is not over, of categories with no entry that goes. -/
theorem update_spec (hd : h.NoDangling) (now : Int) :
    ∃ h', h.update now = some h' ∧
      (∀ s e, h'.Entry s e ↔ h.Entry s e ∧ now ≤ e.cooldownEnd) ∧
      ∀ c s, h'.Points c s ↔ h.Points c s ∧ (∀ e, h.Entry s e → now ≤ e.categoryEnd) ∧
        ∀ s' e', h.Entry s' e' → e'.cooldownEnd < now → e'.categoryId ≠ c := by
  have hl : ∀ x ∈ h.categoryCooldowns.entries, ∃ e, h.Entry x.2 e := by
    intro x hx
    exact hd x.1 x.2 (points_iff_mem.2 hx)
  obtain ⟨h1, hrun, hsame, hpoints1⟩ := expireCategories_spec now hl
  have hentry1 : ∀ s e, h1.Entry s e ↔ h.Entry s e := by
    intro s e
    rw [Entry, hsame]
    exact Iff.rfl
  refine ⟨h1.resetCooldowns fun _ e => e.cooldownEnd < now, ?_, ?_, ?_⟩
  · rw [update, hrun]
    rfl
  · intro s e
    rw [entry_resetCooldowns, hentry1, decide_eq_false_iff_not, Int.not_lt]
  · intro c s
    rw [points_resetCooldowns, hpoints1]
    simp only [hentry1, decide_eq_true_eq]
    constructor
    · intro hleft
      refine ⟨hleft.1.1, ?_, hleft.2⟩
      intro e he
      rw [← Int.not_lt]
      intro hend
      exact hleft.1.2 ⟨c, s⟩ (points_iff_mem.1 hleft.1.1) e he hend rfl
    · intro hright
      obtain ⟨hp, hends, hrest⟩ := hright
      refine ⟨⟨hp, ?_⟩, hrest⟩
      intro x hx e he hend heq
      have hsame' : x.2 = s := by
        have hx' : h.Points x.1 x.2 := points_iff_mem.2 hx
        rw [heq, Points] at hx'
        rw [Points, hx'] at hp
        exact Option.some.inj hp
      rw [hsame'] at he
      exact Int.not_lt.2 (hends e he) hend

end Sunstrider.Spells.SpellHistory
