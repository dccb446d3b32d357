import Sunstrider.Proofs.CooldownEntries

/-!
# When category pointers dangle

Erasing an entry removes the pointer of one category, the one that stands in the
entry. So a pointer is safe as long as its entry carries its category: `Matched`.
Adding an entry under another category than before, while the old category still
points at it, is what breaks this; a locked school does so for every spell with
a category, since it writes category 0, and so does what comes back after a duel.
From then on the entry and its pointer go different ways, and the pointer dangles
once the entry is erased before the next update has removed the pointer.

`safeRun_spec` says that a run without such a write is safe, and has the exact
condition beside it: no entry is erased under a pointer that the erasure leaves.
-/

namespace Sunstrider.Spells.SpellHistory

variable {o : Owner} {now : Int} {itemId : Nat}

variable {spellInfo : SpellInfo} {onHold : Bool} {s schoolMask lockoutTime : Nat} {l : List Nat}
  {rows : List CooldownRow} {ops : List SpellOp}

/-- Every pointer leads to an entry, so nothing that follows one fails. -/
structure Safe (st : SpellStores) (h : SpellHistory) : Prop where
  noDangling : h.NoDangling
  update : ∀ now, h.update now ≠ none
  remaining : ∀ spellInfo now, h.getRemainingCooldown spellInfo now ≠ none
  event : ∀ o now spellInfo itemId start,
    sendCooldownEvent st o now h spellInfo itemId start ≠ none

/-- The history is safe in every state of the run. -/
def SafeRun (st : SpellStores) : SpellHistory → List SpellOp → Prop
  | h, [] => h.Safe st
  | h, op :: ops => h.Safe st ∧ ∃ h', h.step st op = some h' ∧ SafeRun st h' ops

/-! ## Writes that keep the category of an entry -/

/-- No category but this one points at the entry of the spell. -/
def WriteOk (h : SpellHistory) (s k : Nat) : Prop := ∀ c, h.Points c s → c = k

/-- The cooldown that is started, if any, goes where no other category points. -/
def StartOk (st : SpellStores) (o : Owner) (now : Int) (h : SpellHistory)
    (spellInfo : SpellInfo) (itemId : Nat) (onHold : Bool) : Prop :=
  ∀ a, cooldownToStart st o now spellInfo itemId onHold = some a → h.WriteOk spellInfo.id a.2.1

/-- No spell that the lock puts on cooldown has a pointer to its entry. -/
def LockOk (st : SpellStores) (now : Int) (schoolMask lockoutTime : Nat) :
    List Nat → SpellHistory → Prop
  | [], _ => True
  | s :: l, h =>
      if lockable (st.spellInfo s) schoolMask then
        ∀ remaining, h.getRemainingCooldown (st.spellInfo s) now = some remaining →
          (remaining < lockoutTime → h.WriteOk s 0) ∧
            LockOk st now schoolMask lockoutTime l
              (if remaining < lockoutTime then
                h.addCooldown s 0 (now + lockoutTime * msTicks) 0 now false
              else h)
      else LockOk st now schoolMask lockoutTime l h

def RowsOk (st : SpellStores) : List CooldownRow → SpellHistory → Prop
  | [], _ => True
  | row :: rows, h =>
      (st.hasSpellInfo row.spellId = true → h.WriteOk row.spellId row.categoryId) ∧
        RowsOk st rows (loadRow st h row)

/-- No entry that comes back after the duel has another category than the one that
points at the entry it replaces. -/
def RestoreOk (st : SpellStores) (h : SpellHistory) : Prop :=
  ∀ s e, (keepProfessions st h.spellCooldowns.entries h.spellCooldownsBeforeDuel).lookup s =
    some e → e.onHold = false → h.WriteOk s e.categoryId

/-- The operation writes no entry under another category than the one that points at it. -/
def WritesOk (st : SpellStores) (h : SpellHistory) (op : SpellOp) : Prop :=
  match op with
  | .addCooldown s _ _ k _ _ => h.WriteOk s k
  | .startCooldown o now s itemId onHold => StartOk st o now h (st.spellInfo s) itemId onHold
  | .sendCooldownEvent o now s itemId start =>
      start = true →
        (o.hasPlayerOwner = true →
          ∀ other, otherOfCategory st h (st.spellInfo s) itemId = some (some other) →
            StartOk st o now h (st.spellInfo other) itemId false) ∧
        ∀ h', startOther st o now h (st.spellInfo s) itemId start = some h' →
          StartOk st o now h' (st.spellInfo s) itemId false
  | .lockSpellSchool o now schoolMask lockoutTime =>
      LockOk st now schoolMask lockoutTime o.knownSpells
        (h.lockSchools now schoolMask lockoutTime)
  | .loadFromDB rows => RowsOk st rows h
  | .restoreCooldownStateAfterDuel o => o.isPlayer = true → RestoreOk st h
  | _ => True

def WritesOkRun (st : SpellStores) : SpellHistory → List SpellOp → Prop
  | _, [] => True
  | h, op :: ops => h.WritesOk st op ∧ ∀ h', h.step st op = some h' → WritesOkRun st h' ops

/-- Every pointer leads to an entry of its category. -/
def Matched (h : SpellHistory) : Prop :=
  ∀ c s, h.Points c s → ∃ e, h.Entry s e ∧ e.categoryId = c

variable {st : SpellStores} {h : SpellHistory}

theorem Matched.noDangling (hm : h.Matched) : h.NoDangling := by
  intro c s hp
  obtain ⟨e, he, -⟩ := hm c s hp
  exact ⟨e, he⟩

theorem empty_matched : empty.Matched := by
  intro c s hp
  cases hp

/-! ## What follows a pointer does not fail -/

theorem NoDangling.remaining (hd : h.NoDangling) (spellInfo : SpellInfo) (now : Int) :
    ∃ r, h.getRemainingCooldown spellInfo now = some r := by
  rw [getRemainingCooldown]
  split
  · exact ⟨_, rfl⟩
  · split <;> rename_i hp
    · exact ⟨_, rfl⟩
    · obtain ⟨e, he⟩ := hd _ _ hp
      rw [Entry] at he
      rw [he]
      exact ⟨_, rfl⟩

theorem NoDangling.otherOfCategory (st : SpellStores) (hd : h.NoDangling) (spellInfo : SpellInfo)
    (itemId : Nat) :
    ∃ other, otherOfCategory st h spellInfo itemId = some other := by
  rw [SpellHistory.otherOfCategory]
  split <;> rename_i hp
  · exact ⟨_, rfl⟩
  · obtain ⟨e, he⟩ := hd _ _ hp
    rw [Entry] at he
    rw [he]
    exact ⟨_, rfl⟩

theorem NoDangling.startOther (st : SpellStores) (hd : h.NoDangling) (o : Owner) (now : Int)
    (spellInfo : SpellInfo) (itemId : Nat) (start : Bool) :
    ∃ h', startOther st o now h spellInfo itemId start = some h' := by
  rw [SpellHistory.startOther]
  split
  · obtain ⟨other, hother⟩ := hd.otherOfCategory st spellInfo itemId
    rw [hother]
    cases other with
    | none => exact ⟨_, rfl⟩
    | some other => exact ⟨_, rfl⟩
  · exact ⟨_, rfl⟩

theorem NoDangling.safe (hd : h.NoDangling) : h.Safe st := by
  refine ⟨hd, ?_, ?_, ?_⟩
  · intro now hnone
    obtain ⟨h', hrun, -⟩ := update_spec hd now
    rw [hrun] at hnone
    cases hnone
  · intro spellInfo now hnone
    obtain ⟨r, hr⟩ := hd.remaining spellInfo now
    rw [hr] at hnone
    cases hnone
  · intro o now spellInfo itemId start hnone
    obtain ⟨h', hrun⟩ := hd.startOther st o now spellInfo itemId start
    rw [sendCooldownEvent, hrun] at hnone
    cases hnone

/-! ## Adding entries -/

section Adding

variable {s itemId k : Nat} {cooldownEnd categoryEnd : Int} {onHold : Bool}

theorem Matched.addCooldown (hm : h.Matched) (hw : h.WriteOk s k) :
    (h.addCooldown s itemId cooldownEnd k categoryEnd onHold).Matched := by
  intro c s' hp
  rw [points_addCooldown] at hp
  simp only [entry_addCooldown]
  split at hp <;> rename_i hc
  · subst hp
    exact ⟨⟨s, cooldownEnd, itemId, k, categoryEnd, onHold⟩, by rw [if_pos rfl], hc.2.symm⟩
  · by_cases hs : s' = s
    · subst hs
      exact ⟨⟨s', cooldownEnd, itemId, k, categoryEnd, onHold⟩, by rw [if_pos rfl],
        (hw c hp).symm⟩
    · simp only [if_neg hs]
      exact hm c s' hp

/-- An added entry leaves no pointer dangling, whatever its category. -/
theorem NoDangling.addCooldown (hd : h.NoDangling) :
    (h.addCooldown s itemId cooldownEnd k categoryEnd onHold).NoDangling := by
  intro c s' hp
  rw [points_addCooldown] at hp
  simp only [entry_addCooldown]
  by_cases hs : s' = s
  · exact ⟨⟨s, cooldownEnd, itemId, k, categoryEnd, onHold⟩, by rw [if_pos hs]⟩
  · simp only [if_neg hs]
    split at hp <;> rename_i hc
    · exact absurd hp.symm hs
    · exact hd c s' hp

end Adding

theorem Matched.startCooldown (hm : h.Matched) (hok : StartOk st o now h spellInfo itemId onHold) :
    (startCooldown st o now h spellInfo itemId onHold).Matched := by
  rw [SpellHistory.startCooldown]
  split <;> rename_i ha
  · exact hm
  · exact hm.addCooldown (hok _ ha)

theorem NoDangling.startCooldown (hd : h.NoDangling) :
    (SpellHistory.startCooldown st o now h spellInfo itemId onHold).NoDangling := by
  rw [SpellHistory.startCooldown]
  split
  · exact hd
  · exact hd.addCooldown

theorem Matched.sendCooldownEvent {start : Bool} (hm : h.Matched)
    (hok : h.WritesOk st (.sendCooldownEvent o now s itemId start)) :
    ∃ h', sendCooldownEvent st o now h (st.spellInfo s) itemId start = some h' ∧ h'.Matched := by
  obtain ⟨h₁, hother⟩ := hm.noDangling.startOther st o now (st.spellInfo s) itemId start
  rw [SpellHistory.sendCooldownEvent, hother]
  refine ⟨_, rfl, ?_⟩
  have hm₁ : h₁.Matched := by
    rw [SpellHistory.startOther] at hother
    split at hother <;> rename_i howner
    · split at hother <;> rename_i hcat
      · cases hother
      · cases hother
        exact hm
      · cases hother
        split <;> rename_i hstart
        · exact hm.startCooldown ((hok hstart).1 howner _ hcat)
        · exact hm
    · cases hother
      exact hm
  split <;> rename_i hstart
  · exact hm₁.startCooldown ((hok hstart).2 h₁ hother)
  · exact hm₁

theorem NoDangling.sendCooldownEvent (hd : h.NoDangling) (o : Owner) (now : Int)
    (spellInfo : SpellInfo) (itemId : Nat) (start : Bool) :
    ∃ h', SpellHistory.sendCooldownEvent st o now h spellInfo itemId start = some h' ∧
      h'.NoDangling := by
  obtain ⟨h₁, hother⟩ := hd.startOther st o now spellInfo itemId start
  rw [SpellHistory.sendCooldownEvent, hother]
  refine ⟨_, rfl, ?_⟩
  have hd₁ : h₁.NoDangling := by
    rw [SpellHistory.startOther] at hother
    split at hother
    · split at hother
      · cases hother
      · cases hother
        exact hd
      · cases hother
        split
        · exact hd.startCooldown
        · exact hd
    · cases hother
      exact hd
  split
  · exact hd₁.startCooldown
  · exact hd₁

theorem Matched.lockSpells :
    ∀ {h : SpellHistory}, h.Matched → LockOk st now schoolMask lockoutTime l h →
      ∃ h', lockSpells st now schoolMask lockoutTime l h = some h' ∧ h'.Matched := by
  induction l with
  | nil =>
      intro h hm _
      exact ⟨h, rfl, hm⟩
  | cons s l ih =>
      intro h hm hok
      rw [LockOk] at hok
      rw [SpellHistory.lockSpells]
      split <;> rename_i hlock
      · rw [if_pos hlock] at hok
        obtain ⟨remaining, hrem⟩ := hm.noDangling.remaining (st.spellInfo s) now
        obtain ⟨hwrite, hrest⟩ := hok remaining hrem
        rw [hrem]
        refine ih ?_ hrest
        split <;> rename_i hlt
        · exact hm.addCooldown (hwrite hlt)
        · exact hm
      · rw [if_neg hlock] at hok
        exact ih hm hok

theorem NoDangling.lockSpells :
    ∀ {h : SpellHistory}, h.NoDangling →
      ∃ h', SpellHistory.lockSpells st now schoolMask lockoutTime l h = some h' ∧
        h'.NoDangling := by
  induction l with
  | nil =>
      intro h hd
      exact ⟨h, rfl, hd⟩
  | cons s l ih =>
      intro h hd
      rw [SpellHistory.lockSpells]
      split
      · obtain ⟨remaining, hrem⟩ := hd.remaining (st.spellInfo s) now
        rw [hrem]
        refine ih ?_
        split
        · exact hd.addCooldown
        · exact hd
      · exact ih hd

theorem Matched.loadFromDB :
    ∀ {h : SpellHistory}, h.Matched → RowsOk st rows h → (loadFromDB st h rows).Matched := by
  induction rows with
  | nil =>
      intro h hm _
      exact hm
  | cons row rows ih =>
      intro h hm hok
      refine ih (h := loadRow st h row) ?_ hok.2
      rw [loadRow]
      split <;> rename_i hrow
      · exact hm.addCooldown (hok.1 hrow)
      · exact hm

theorem NoDangling.loadFromDB :
    ∀ {h : SpellHistory}, h.NoDangling → (SpellHistory.loadFromDB st h rows).NoDangling := by
  induction rows with
  | nil =>
      intro h hd
      exact hd
  | cons row rows ih =>
      intro h hd
      refine ih (h := loadRow st h row) ?_
      rw [loadRow]
      split
      · exact hd.addCooldown
      · exact hd

/-- An entry after the restoring loop is one of before it, or one that came back. -/
theorem restoreEntries_lookup {l : List ((_ : Nat) × CooldownEntry)} :
    ∀ {m : CooldownStorage} {e : CooldownEntry}, m.lookup s = some e →
      ∃ e', (restoreEntries l m).lookup s = some e' ∧
        (e' = e ∨ (⟨s, e'⟩ : (_ : Nat) × CooldownEntry) ∈ l ∧ e'.onHold = false) := by
  induction l with
  | nil =>
      intro m e he
      exact ⟨e, he, .inl rfl⟩
  | cons x l ih =>
      intro m e he
      obtain ⟨s', x⟩ := x
      rw [restoreEntries]
      split <;> rename_i hback
      · obtain ⟨e₁, he₁, hcase₁⟩ : ∃ e₁, (m.insert s' x).lookup s = some e₁ ∧
            (e₁ = e ∨ s = s' ∧ e₁ = x) := by
          by_cases hs : s = s'
          · subst hs
            exact ⟨x, AList.lookup_insert m, .inr ⟨rfl, rfl⟩⟩
          · exact ⟨e, by rw [AList.lookup_insert_ne hs]; exact he, .inl rfl⟩
        obtain ⟨e₂, he₂, hcase₂⟩ := ih he₁
        refine ⟨e₂, he₂, ?_⟩
        rcases hcase₂ with heq | hmem
        · rcases hcase₁ with heq₁ | hx
          · exact .inl (heq.trans heq₁)
          · refine .inr ⟨?_, ?_⟩
            · rw [heq, hx.1, hx.2]
              exact List.mem_cons_self
            · simp only [Bool.and_eq_true, Bool.not_eq_true'] at hback
              rw [heq, hx.2]
              exact hback.1
        · exact .inr ⟨List.mem_cons_of_mem _ hmem.1, hmem.2⟩
      · obtain ⟨e₂, he₂, hcase₂⟩ := ih he
        refine ⟨e₂, he₂, ?_⟩
        rcases hcase₂ with heq | hmem
        · exact .inl heq
        · exact .inr ⟨List.mem_cons_of_mem _ hmem.1, hmem.2⟩

theorem Matched.restore (hm : h.Matched) (hok : h.WritesOk st (.restoreCooldownStateAfterDuel o)) :
    (restoreCooldownStateAfterDuel st o h).Matched := by
  rw [restoreCooldownStateAfterDuel]
  split <;> rename_i hplayer
  · intro c s hp
    obtain ⟨e, he, hc⟩ := hm c s hp
    obtain ⟨e', he', hcase⟩ := restoreEntries_lookup he
    refine ⟨e', he', ?_⟩
    rcases hcase with heq | hback
    · rw [heq]
      exact hc
    · exact (hok hplayer s e' (AList.mem_lookup_iff.2 hback.1) hback.2 c hp).symm
  · exact hm

theorem NoDangling.restore (hd : h.NoDangling) :
    (restoreCooldownStateAfterDuel st o h).NoDangling := by
  rw [restoreCooldownStateAfterDuel]
  split
  · intro c s hp
    obtain ⟨e, he⟩ := hd c s hp
    obtain ⟨e', he', -⟩ := restoreEntries_lookup he
    exact ⟨e', he'⟩
  · exact hd

/-! ## Erasing entries -/

theorem Matched.resetCooldowns (hm : h.Matched) (p : Nat → CooldownEntry → Bool) :
    (h.resetCooldowns p).Matched := by
  intro c s hp
  obtain ⟨hp, hleft⟩ := points_resetCooldowns.1 hp
  obtain ⟨e, he, hc⟩ := hm c s hp
  refine ⟨e, entry_resetCooldowns.2 ⟨he, ?_⟩, hc⟩
  rw [← Bool.not_eq_true]
  intro hgone
  exact hleft s e he hgone hc

theorem Matched.resetCooldown (hm : h.Matched) (s : Nat) : (h.resetCooldown s).Matched := by
  intro c s' hp
  obtain ⟨hp, hleft⟩ := points_resetCooldown.1 hp
  obtain ⟨e, he, hc⟩ := hm c s' hp
  refine ⟨e, entry_resetCooldown.2 ⟨?_, he⟩, hc⟩
  intro heq
  exact hleft e (heq ▸ he) hc

theorem Matched.update (hm : h.Matched) (now : Int) :
    ∃ h', h.update now = some h' ∧ h'.Matched := by
  obtain ⟨h', hrun, hentry, hpoints⟩ := update_spec hm.noDangling now
  refine ⟨h', hrun, ?_⟩
  intro c s hp
  obtain ⟨hp, -, hleft⟩ := (hpoints c s).1 hp
  obtain ⟨e, he, hc⟩ := hm c s hp
  refine ⟨e, (hentry s e).2 ⟨he, ?_⟩, hc⟩
  rw [← Int.not_lt]
  intro hgone
  exact hleft s e he hgone hc

/-! ## A run -/

theorem Matched.step (hm : h.Matched) {op : SpellOp} (hok : h.WritesOk st op) :
    ∃ h', h.step st op = some h' ∧ h'.Matched := by
  cases op with
  | addCooldown s itemId cooldownEnd k categoryEnd onHold => exact ⟨_, rfl, hm.addCooldown hok⟩
  | startCooldown o now s itemId onHold => exact ⟨_, rfl, hm.startCooldown hok⟩
  | sendCooldownEvent o now s itemId start => exact hm.sendCooldownEvent hok
  | lockSpellSchool o now schoolMask lockoutTime =>
      have hm' : (h.lockSchools now schoolMask lockoutTime).Matched := hm
      exact hm'.lockSpells hok
  | update now => exact hm.update now
  | resetCooldown s => exact ⟨_, rfl, hm.resetCooldown s⟩
  | resetCooldowns p => exact ⟨_, rfl, hm.resetCooldowns p⟩
  | resetAllCooldowns => exact ⟨_, rfl, empty_matched⟩
  | loadFromDB rows => exact ⟨_, rfl, hm.loadFromDB hok⟩
  | saveCooldownStateBeforeDuel => exact ⟨_, rfl, hm⟩
  | restoreCooldownStateAfterDuel o => exact ⟨_, rfl, hm.restore hok⟩

theorem Matched.safeRun :
    ∀ {h : SpellHistory}, h.Matched → h.WritesOkRun st ops → h.SafeRun st ops := by
  induction ops with
  | nil =>
      intro h hm _
      exact hm.noDangling.safe
  | cons op ops ih =>
      intro h hm hok
      obtain ⟨h', hrun, hm'⟩ := hm.step hok.1
      exact ⟨hm.noDangling.safe, h', hrun, ih hm' (hok.2 h' hrun)⟩

/-! ## The exact condition -/

/-- A pointer that leads to an entry to be erased goes with an entry of its category. -/
def ErasureOk (h : SpellHistory) (op : SpellOp) : Prop :=
  match op with
  | .update now => ∀ c s e, h.Points c s → h.Entry s e → now ≤ e.categoryEnd →
      e.cooldownEnd < now →
        ∃ s' e', h.Entry s' e' ∧ e'.cooldownEnd < now ∧ e'.categoryId = c
  | .resetCooldown s => ∀ c e, h.Points c s → h.Entry s e → e.categoryId = c
  | .resetCooldowns p => ∀ c s e, h.Points c s → h.Entry s e → p s e = true →
      ∃ s' e', h.Entry s' e' ∧ p s' e' = true ∧ e'.categoryId = c
  | _ => True

def ErasuresOkRun (st : SpellStores) : SpellHistory → List SpellOp → Prop
  | _, [] => True
  | h, op :: ops => h.ErasureOk op ∧ ∀ h', h.step st op = some h' → ErasuresOkRun st h' ops

theorem NoDangling.resetCooldowns_iff (hd : h.NoDangling) (p : Nat → CooldownEntry → Bool) :
    (h.resetCooldowns p).NoDangling ↔ h.ErasureOk (.resetCooldowns p) := by
  constructor
  · intro hd' c s e hp he hgone
    by_contra hnone
    have hleft : (h.resetCooldowns p).Points c s := by
      rw [points_resetCooldowns]
      refine ⟨hp, ?_⟩
      intro s' e' he' hgone' hc
      exact hnone ⟨s', e', he', hgone', hc⟩
    obtain ⟨e', he'⟩ := hd' c s hleft
    obtain ⟨he', hstays⟩ := entry_resetCooldowns.1 he'
    rw [he'.unique he, hgone] at hstays
    cases hstays
  · intro hok c s hp
    obtain ⟨hp, hleft⟩ := points_resetCooldowns.1 hp
    obtain ⟨e, he⟩ := hd c s hp
    refine ⟨e, entry_resetCooldowns.2 ⟨he, ?_⟩⟩
    rw [← Bool.not_eq_true]
    intro hgone
    obtain ⟨s', e', he', hgone', hc⟩ := hok c s e hp he hgone
    exact hleft s' e' he' hgone' hc

theorem NoDangling.resetCooldown_iff (hd : h.NoDangling) (s : Nat) :
    (h.resetCooldown s).NoDangling ↔ h.ErasureOk (.resetCooldown s) := by
  constructor
  · intro hd' c e hp he
    by_contra hc
    have hleft : (h.resetCooldown s).Points c s := by
      rw [points_resetCooldown]
      refine ⟨hp, ?_⟩
      intro e' he'
      rw [he'.unique he]
      exact hc
    obtain ⟨e', he'⟩ := hd' c s hleft
    exact (entry_resetCooldown.1 he').1 rfl
  · intro hok c s' hp
    obtain ⟨hp, hleft⟩ := points_resetCooldown.1 hp
    obtain ⟨e, he⟩ := hd c s' hp
    refine ⟨e, entry_resetCooldown.2 ⟨?_, he⟩⟩
    intro heq
    rw [heq] at hp he
    exact hleft e he (hok c e hp he)

theorem NoDangling.update_iff (hd : h.NoDangling) (now : Int) :
    ∃ h', h.update now = some h' ∧ (h'.NoDangling ↔ h.ErasureOk (.update now)) := by
  obtain ⟨h', hrun, hentry, hpoints⟩ := update_spec hd now
  refine ⟨h', hrun, ?_, ?_⟩
  · intro hd' c s e hp he hlasts hgone
    by_contra hnone
    have hleft : h'.Points c s := by
      rw [hpoints]
      refine ⟨hp, ?_, ?_⟩
      · intro e' he'
        rw [he'.unique he]
        exact hlasts
      · intro s' e' he' hgone' hc
        exact hnone ⟨s', e', he', hgone', hc⟩
    obtain ⟨e', he'⟩ := hd' c s hleft
    obtain ⟨he', hstays⟩ := (hentry s e').1 he'
    rw [he'.unique he] at hstays
    exact Int.not_lt.2 hstays hgone
  · intro hok c s hp
    obtain ⟨hp, hlasts, hleft⟩ := (hpoints c s).1 hp
    obtain ⟨e, he⟩ := hd c s hp
    refine ⟨e, (hentry s e).2 ⟨he, ?_⟩⟩
    rw [← Int.not_lt]
    intro hgone
    obtain ⟨s', e', he', hgone', hc⟩ := hok c s e hp he (hlasts e he) hgone
    exact hleft s' e' he' hgone' hc

/-- No operation fails while nothing dangles; what it leaves dangles only by an erasure. -/
theorem NoDangling.step_iff (st : SpellStores) (hd : h.NoDangling) (op : SpellOp) :
    ∃ h', h.step st op = some h' ∧ (h'.NoDangling ↔ h.ErasureOk op) := by
  cases op with
  | addCooldown s itemId cooldownEnd k categoryEnd onHold =>
      exact ⟨_, rfl, iff_of_true hd.addCooldown trivial⟩
  | startCooldown o now s itemId onHold =>
      exact ⟨_, rfl, iff_of_true hd.startCooldown trivial⟩
  | sendCooldownEvent o now s itemId start =>
      obtain ⟨h', hrun, hd'⟩ := hd.sendCooldownEvent o now (st.spellInfo s) itemId start
      exact ⟨h', hrun, iff_of_true hd' trivial⟩
  | lockSpellSchool o now schoolMask lockoutTime =>
      have hd' : (h.lockSchools now schoolMask lockoutTime).NoDangling := hd
      obtain ⟨h', hrun, hd''⟩ := hd'.lockSpells
      exact ⟨h', hrun, iff_of_true hd'' trivial⟩
  | update now => exact hd.update_iff now
  | resetCooldown s => exact ⟨_, rfl, hd.resetCooldown_iff s⟩
  | resetCooldowns p => exact ⟨_, rfl, hd.resetCooldowns_iff p⟩
  | resetAllCooldowns => exact ⟨_, rfl, iff_of_true empty_matched.noDangling trivial⟩
  | loadFromDB rows => exact ⟨_, rfl, iff_of_true hd.loadFromDB trivial⟩
  | saveCooldownStateBeforeDuel => exact ⟨_, rfl, iff_of_true hd trivial⟩
  | restoreCooldownStateAfterDuel o => exact ⟨_, rfl, iff_of_true hd.restore trivial⟩

theorem NoDangling.safeRun_iff :
    ∀ {h : SpellHistory}, h.NoDangling → (h.SafeRun st ops ↔ h.ErasuresOkRun st ops) := by
  induction ops with
  | nil =>
      intro h hd
      exact iff_of_true hd.safe trivial
  | cons op ops ih =>
      intro h hd
      obtain ⟨h', hrun, hiff⟩ := hd.step_iff st op
      constructor
      · intro hsafe
        obtain ⟨-, h₁, hrun₁, hsafe⟩ := hsafe
        rw [hrun] at hrun₁
        cases hrun₁
        have hd' : h'.NoDangling := by
          cases ops with
          | nil => exact hsafe.noDangling
          | cons op' ops => exact hsafe.1.noDangling
        refine ⟨hiff.1 hd', ?_⟩
        intro h₁ hrun₁
        rw [hrun] at hrun₁
        cases hrun₁
        exact (ih hd').1 hsafe
      · intro hok
        exact ⟨hd.safe, h', hrun, (ih (hiff.2 hok.1)).2 (hok.2 h' hrun)⟩

/-- A run that writes no entry under another category than the one that points at it
is safe; and a run is safe exactly when no entry is erased under a pointer that stays. -/
theorem safeRun_spec (st : SpellStores) (ops : List SpellOp) :
    (empty.WritesOkRun st ops → empty.SafeRun st ops) ∧
      (empty.SafeRun st ops ↔ empty.ErasuresOkRun st ops) :=
  ⟨empty_matched.safeRun, empty_matched.noDangling.safeRun_iff⟩

/-- Stores in which every spell is one without a cooldown of its own. -/
def plainStores : SpellStores :=
  ⟨fun id => ⟨id, 0, 0, 0, false, false, 0, false, false⟩, fun _ => true, fun _ => none⟩

theorem safeRun_spec_addAndReset :
    empty.SafeRun plainStores [.addCooldown 1 0 1000 9 1000 false, .resetCooldown 1] := by
  refine (safeRun_spec plainStores _).1 ⟨?_, ?_⟩
  · intro c hp
    cases hp
  · intro h' _
    exact ⟨trivial, fun _ _ => trivial⟩

/-- A spell of category 9 goes on cooldown, is written again without a category and
is reset: the pointer of category 9 is left behind. -/
theorem overwritten_dangles :
    ¬ empty.SafeRun plainStores [.addCooldown 1 0 1000 9 1000 false,
      .addCooldown 1 0 1000 0 0 false, .resetCooldown 1] := by
  intro hsafe
  obtain ⟨-, h₁, hrun₁, -, h₂, hrun₂, -, h₃, hrun₃, hlast⟩ := hsafe
  cases hrun₁
  cases hrun₂
  cases hrun₃
  obtain ⟨e, he⟩ := hlast.noDangling 9 1 rfl
  exact (entry_resetCooldown.1 he).1 rfl

end Sunstrider.Spells.SpellHistory
