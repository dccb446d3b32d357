import Sunstrider.Proofs.ReputationRuns

/-!
# What is loaded

The state of a faction after `LoadFromDB` is a function of its row, if it has one: the state
of a new faction, and then the standing of the row and its flags as far as the setters let
them through. Every operation changes the states of one place of the list at most, and how
it does is a function of the state, too.
-/

namespace Sunstrider.Reputation

/-! ## One state at a time -/

/-- The state of one place becomes what `g` makes of it. -/
def Acts (m m' : ReputationMgr) (k : Nat) (g : FactionState → FactionState) : Prop :=
  ∀ k', m'.factions.lookup k' =
    if k' = k then (m.factions.lookup k).map g else m.factions.lookup k'

variable {c : Config} {m m' m'' : ReputationMgr} {k : Nat} {g h : FactionState → FactionState}
  {e : FactionEntry} {f : FactionState} {row : SavedRow}

namespace Acts

theorem of_none (hnone : m.factions.lookup k = none) : Acts m m k g := by
  intro k'
  split
  · rename_i heq
    rw [heq, hnone]
    rfl
  · rfl

theorem updateState (m : ReputationMgr) (k : Nat) (g : FactionState → FactionState) :
    Acts m (m.updateState k g) k g := fun k' => lookup_updateState m k k' g

theorem lookup_self (hg : Acts m m' k g) (hf : m.factions.lookup k = some f) :
    m'.factions.lookup k = some (g f) := by
  rw [hg k, if_pos rfl, hf, Option.map_some]

theorem lookup_ne (hg : Acts m m' k g) {k' : Nat} (hne : k' ≠ k) :
    m'.factions.lookup k' = m.factions.lookup k' := by
  rw [hg k', if_neg hne]

end Acts

/-- What `SetVisible` does to a state. -/
def FactionState.setVisible (f : FactionState) : FactionState :=
  if f.has .invisibleForced ∨ f.has .hidden then f
  else if f.has .visible then f
  else { f.set .visible with needSave := true }

theorem acts_setVisibleState (m : ReputationMgr) (k : Nat) :
    Acts m (m.setVisibleState k) k FactionState.setVisible := by
  unfold ReputationMgr.setVisibleState
  cases hf : m.factions.lookup k with
  | none => exact .of_none hf
  | some f =>
      have hself (hsame : f.setVisible = f) : Acts m m k FactionState.setVisible := by
        intro k'
        split
        · rename_i heq
          rw [heq, hf, Option.map_some, hsame]
        · rfl
      dsimp only
      split
      · rename_i hveiled
        exact hself (if_pos hveiled)
      split
      · rename_i hveiled hvisible
        exact hself (by rw [FactionState.setVisible, if_neg hveiled, if_pos hvisible])
      · rename_i hveiled hvisible
        have hset : f.setVisible = { f.set .visible with needSave := true } := by
          rw [FactionState.setVisible, if_neg hveiled, if_neg hvisible]
        intro k'
        show (m.factions.insert k { f.set .visible with needSave := true }).lookup k' = _
        rw [← hset, hf, Option.map_some]
        split
        · rename_i heq
          rw [heq, AList.lookup_insert]
        · rename_i hne
          exact AList.lookup_insert_ne hne

/-! ## The flags -/

/-- A flag that is let through can be seen, and no setter touches another. -/
theorem has_setVisible_ne (f : FactionState) {flag : FactionFlag} (hflag : flag ≠ .visible) :
    f.setVisible.has flag = f.has flag := by
  have hne : decide (FactionFlag.visible = flag) = false := decide_eq_false (Ne.symm hflag)
  unfold FactionState.setVisible
  split
  · rfl
  split
  · rfl
  · rw [FactionState.has_needSave, FactionState.has_set, hne, Bool.or_false]

/-- The faction is hidden from the list for good. -/
def FactionState.Unseen (f : FactionState) : Prop := f.has .invisibleForced ∨ f.has .hidden

instance (f : FactionState) : Decidable f.Unseen := inferInstanceAs (Decidable (_ ∨ _))

theorem visible_setVisible (f : FactionState) :
    f.setVisible.has .visible = true ↔ f.has .visible = true ∨ ¬ f.Unseen := by
  unfold FactionState.setVisible
  split
  · rename_i hunseen
    exact (or_iff_left (not_not_intro hunseen)).symm
  · rename_i hseen
    refine iff_of_true ?_ (.inr hseen)
    split
    · rename_i hvisible
      exact hvisible
    · rw [FactionState.has_needSave, FactionState.has_set, decide_eq_true rfl, Bool.or_true]

theorem inactive_setInactive_true (f : FactionState) :
    (f.setInactive true).has .inactive = true ↔
      f.has .inactive = true ∨ ¬ f.Unseen ∧ f.has .visible = true := by
  unfold FactionState.setInactive
  split
  · rename_i hrefused
    refine (or_iff_left fun hseen => ?_).symm
    rcases hrefused.2 with hunseen | hnot
    · exact hseen.1 hunseen
    · exact hnot hseen.2
  · rename_i hallowed
    rw [not_and_or, not_or, not_not] at hallowed
    refine iff_of_true ?_ (.inr (hallowed.resolve_left (not_not_intro rfl)))
    split
    · rename_i hinactive
      exact hinactive
    · show ({ f.set .inactive with needSave := true } : FactionState).has .inactive = true
      rw [FactionState.has_needSave, FactionState.has_set, decide_eq_true rfl, Bool.or_true]

theorem inactive_setInactive_false (f : FactionState) :
    (f.setInactive false).has .inactive = false := by
  unfold FactionState.setInactive
  rw [if_neg fun h => Bool.false_ne_true h.1]
  split
  · rename_i hactive
    exact hactive
  · show ({ f.clear .inactive with needSave := true } : FactionState).has .inactive = false
    rw [FactionState.has_needSave, FactionState.has_clear, decide_eq_true rfl, Bool.not_true,
      Bool.and_false]

/-- Setters set flags and that there is something to save. -/
structure Sets (f f' : FactionState) : Prop where
  id : f'.id = f.id
  standing : f'.standing = f.standing
  needDelete : f'.needDelete = f.needDelete
  same_or_needSave : f' = f ∨ f'.needSave = true

theorem sets_setVisible (f : FactionState) : Sets f f.setVisible := by
  unfold FactionState.setVisible
  split
  · exact ⟨rfl, rfl, rfl, .inl rfl⟩
  split
  · exact ⟨rfl, rfl, rfl, .inl rfl⟩
  · exact ⟨rfl, rfl, rfl, .inr rfl⟩

theorem sets_setAtWar (f : FactionState) (on : Bool) : Sets f (f.setAtWar on) := by
  unfold FactionState.setAtWar
  split
  · exact ⟨rfl, rfl, rfl, .inl rfl⟩
  split
  · exact ⟨rfl, rfl, rfl, .inl rfl⟩
  · cases on with
    | false => exact ⟨rfl, rfl, rfl, .inr rfl⟩
    | true => exact ⟨rfl, rfl, rfl, .inr rfl⟩

theorem sets_setInactive (f : FactionState) (on : Bool) : Sets f (f.setInactive on) := by
  unfold FactionState.setInactive
  split
  · exact ⟨rfl, rfl, rfl, .inl rfl⟩
  split
  · exact ⟨rfl, rfl, rfl, .inl rfl⟩
  · cases on with
    | false => exact ⟨rfl, rfl, rfl, .inr rfl⟩
    | true => exact ⟨rfl, rfl, rfl, .inr rfl⟩

/-! ## Loading -/

/-- One state is put in its place. -/
structure Puts (m m' : ReputationMgr) (k : Nat) (f : FactionState) : Prop where
  self : m'.factions.lookup k = some f
  other : ∀ k', k' ≠ k → m'.factions.lookup k' = m.factions.lookup k'

theorem Acts.puts (hg : Acts m m' k g) (hf : m.factions.lookup k = some f) :
    Puts m m' k (g f) := ⟨hg.lookup_self hf, fun _ => hg.lookup_ne⟩

theorem Puts.refl (hf : m.factions.lookup k = some f) : Puts m m k f := ⟨hf, fun _ _ => rfl⟩

theorem Puts.trans {f' : FactionState} (hf : Puts m m' k f) (hf' : Puts m' m'' k f') :
    Puts m m'' k f' :=
  ⟨hf'.self, fun k' hne => (hf'.other k' hne).trans (hf.other k' hne)⟩

theorem Puts.of_insert (h : m'.factions = m.factions.insert k f) : Puts m m' k f := by
  refine ⟨?_, fun k' hne => ?_⟩
  · rw [h, AList.lookup_insert]
  · rw [h, AList.lookup_insert_ne hne]

/-- The flags of a row, but for war. -/
def FactionState.showFlags (f : FactionState) (flags : BitVec 16) : FactionState :=
  let f := if hasFlag flags .visible then f.setVisible else f
  if hasFlag flags .inactive then f.setInactive true else f

/-- War, from the row and for the standing. -/
def FactionState.warFlags (f : FactionState) (base : Int) (flags : BitVec 16) : FactionState :=
  let f :=
    if hasFlag flags .atWar then f.setAtWar true
    else if f.has .visible then f.setAtWar false
    else f
  if reputationToRank (base + f.standing) ≤ .hostile then f.setAtWar true else f

def FactionState.loadFlags (f : FactionState) (base : Int) (flags : BitVec 16) : FactionState :=
  (f.showFlags flags).warFlags base flags

/-- The state of a faction after its row. -/
def loadState (c : Config) (e : FactionEntry) (f : FactionState) (row : SavedRow) : FactionState :=
  let f := ({ f with standing := row.standing } : FactionState).loadFlags
    (c.getBaseReputation e) row.flags
  if f.flags.toNat = row.flags.toNat then { f with needSave := false } else f

theorem puts_loadFlags (hcan : e.canHaveReputation) (hf : m.factions.lookup e.repListID = some f)
    (flags : BitVec 16) :
    Puts m (m.loadFlags c e flags) e.repListID (f.loadFlags (c.getBaseReputation e) flags) := by
  unfold ReputationMgr.loadFlags FactionState.loadFlags FactionState.showFlags
    FactionState.warFlags
  dsimp only
  have hvisible : Puts m (if hasFlag flags .visible then m.setVisibleState e.repListID else m)
      e.repListID (if hasFlag flags .visible then f.setVisible else f) := by
    split
    · exact (acts_setVisibleState m _).puts hf
    · exact .refl hf
  generalize (if hasFlag flags .visible then m.setVisibleState e.repListID else m) = m₁
    at hvisible ⊢
  generalize (if hasFlag flags .visible then f.setVisible else f) = f₁ at hvisible ⊢
  have hinactive : Puts m₁
      (if hasFlag flags .inactive then m₁.updateState e.repListID (·.setInactive true) else m₁)
      e.repListID (if hasFlag flags .inactive then f₁.setInactive true else f₁) := by
    split
    · exact (Acts.updateState m₁ _ _).puts hvisible.self
    · exact .refl hvisible.self
  generalize (if hasFlag flags .inactive then m₁.updateState e.repListID (·.setInactive true)
    else m₁) = m₂ at hinactive ⊢
  generalize (if hasFlag flags .inactive then f₁.setInactive true else f₁) = f₂ at hinactive ⊢
  have hwar : Puts m₂
      (if hasFlag flags .atWar then m₂.updateState e.repListID (·.setAtWar true)
      else if (m₂.factions.lookup e.repListID).any (·.has .visible) then
        m₂.updateState e.repListID (·.setAtWar false)
      else m₂) e.repListID
      (if hasFlag flags .atWar then f₂.setAtWar true
      else if f₂.has .visible then f₂.setAtWar false
      else f₂) := by
    rw [hinactive.self, Option.any_some]
    split
    · exact (Acts.updateState m₂ _ _).puts hinactive.self
    split
    · exact (Acts.updateState m₂ _ _).puts hinactive.self
    · exact .refl hinactive.self
  generalize (if hasFlag flags .atWar then m₂.updateState e.repListID (·.setAtWar true)
    else if (m₂.factions.lookup e.repListID).any (·.has .visible) then
      m₂.updateState e.repListID (·.setAtWar false) else m₂) = m₃ at hwar ⊢
  generalize (if hasFlag flags .atWar then f₂.setAtWar true
    else if f₂.has .visible then f₂.setAtWar false else f₂) = f₃ at hwar ⊢
  have hrank : m₃.getRank c e = reputationToRank (c.getBaseReputation e + f₃.standing) := by
    refine getRank_of_getState ?_
    rw [ReputationMgr.getState, if_pos hcan, hwar.self]
  refine ((hvisible.trans hinactive).trans hwar).trans ?_
  rw [hrank]
  split
  · exact (Acts.updateState m₃ _ _).puts hwar.self
  · exact .refl hwar.self

theorem puts_loadRow (hcan : e.canHaveReputation) (hf : m.factions.lookup e.repListID = some f)
    (hentry : c.store.lookupEntry row.faction = some e) :
    Puts m (ReputationMgr.loadRow c m row) e.repListID (loadState c e f row) := by
  unfold ReputationMgr.loadRow
  rw [hentry]
  dsimp only
  rw [if_pos hcan, hf, Option.getD_some]
  generalize hstanding : ReputationMgr.updateRankCounters _ _ _ = m₁
  have hset : Puts m m₁ e.repListID { f with standing := row.standing } :=
    .of_insert (hstanding ▸ rfl)
  have hflags := puts_loadFlags (c := c) hcan hset.self row.flags
  exact (hset.trans hflags).trans ((Acts.updateState _ _ _).puts hflags.self)

/-- A row of another faction, or of none, is no matter. -/
theorem lookup_loadRow_ne (he : e ∈ c.store.entries) (hcan : e.canHaveReputation)
    (hf : ∀ e' ∈ c.store.entries, e'.canHaveReputation →
      ∃ f, m.factions.lookup e'.repListID = some f)
    (hne : row.faction ≠ e.id) :
    (ReputationMgr.loadRow c m row).factions.lookup e.repListID =
      m.factions.lookup e.repListID := by
  cases hentry : c.store.lookupEntry row.faction with
  | none =>
      unfold ReputationMgr.loadRow
      rw [hentry]
  | some e' =>
      obtain ⟨he', hid⟩ := mem_of_lookupEntry hentry
      by_cases hcan' : e'.canHaveReputation
      · obtain ⟨f, hf⟩ := hf e' he' hcan'
        refine (puts_loadRow hcan' hf hentry).other _ fun hkey => ?_
        rw [repListID_inj he he' hcan hkey] at hne
        exact hne hid.symm
      · unfold ReputationMgr.loadRow
        rw [hentry]
        dsimp only
        rw [if_neg hcan']

/-! ### Flags of a row -/

theorem Sets.trans {f' f'' : FactionState} (h : Sets f f') (h' : Sets f' f'') : Sets f f'' := by
  refine ⟨h'.id.trans h.id, h'.standing.trans h.standing, h'.needDelete.trans h.needDelete, ?_⟩
  rcases h'.same_or_needSave with heq | hsave
  · rw [heq]
    exact h.same_or_needSave
  · exact .inr hsave

theorem Sets.ite {f' : FactionState} {p : Prop} [Decidable p] (h : Sets f f') :
    Sets f (if p then f' else f) := by
  split
  · exact h
  · exact ⟨rfl, rfl, rfl, .inl rfl⟩

theorem sets_showFlags (f : FactionState) (flags : BitVec 16) : Sets f (f.showFlags flags) := by
  unfold FactionState.showFlags
  dsimp only
  exact (sets_setVisible f).ite.trans (sets_setInactive _ true).ite

theorem sets_warFlags (f : FactionState) (base : Int) (flags : BitVec 16) :
    Sets f (f.warFlags base flags) := by
  unfold FactionState.warFlags
  dsimp only
  have hflags : Sets f (if hasFlag flags .atWar then f.setAtWar true
      else if f.has .visible then f.setAtWar false else f) := by
    split
    · exact sets_setAtWar f true
    · exact (sets_setAtWar f false).ite
  exact hflags.trans (sets_setAtWar _ true).ite

theorem sets_loadFlags (f : FactionState) (base : Int) (flags : BitVec 16) :
    Sets f (f.loadFlags base flags) :=
  (sets_showFlags f flags).trans (sets_warFlags _ base flags)

section

variable {base : Int} {flags : BitVec 16} {flag : FactionFlag}

theorem has_ite_setAtWar {p : Prop} [Decidable p] (on : Bool) (hwar : flag ≠ .atWar) :
    (if p then f.setAtWar on else f).has flag = f.has flag := by
  split
  · exact f.has_setAtWar on hwar
  · rfl

theorem has_warFlags (hwar : flag ≠ .atWar) : (f.warFlags base flags).has flag = f.has flag := by
  refine (has_ite_setAtWar true hwar).trans ?_
  split
  · exact f.has_setAtWar true hwar
  · exact has_ite_setAtWar false hwar

theorem unseen_setVisible : f.setVisible.Unseen ↔ f.Unseen := by
  rw [FactionState.Unseen, has_setVisible_ne f (by decide), has_setVisible_ne f (by decide)]
  rfl

theorem visible_showFirst :
    (if hasFlag flags .visible then f.setVisible else f).has .visible = true ↔
      f.has .visible = true ∨ hasFlag flags .visible = true ∧ ¬ f.Unseen := by
  split
  · rename_i hflag
    rw [visible_setVisible, hflag, eq_self_iff_true, true_and]
  · rename_i hflag
    rw [or_iff_left fun h => hflag h.1]

theorem visible_loadFlags :
    (f.loadFlags base flags).has .visible = true ↔
      f.has .visible = true ∨ hasFlag flags .visible = true ∧ ¬ f.Unseen := by
  rw [FactionState.loadFlags, has_warFlags (by decide), FactionState.showFlags,
    ← visible_showFirst]
  split
  · rw [FactionState.has_setInactive _ true (by decide)]
  · exact Iff.rfl

theorem inactive_loadFlags :
    (f.loadFlags base flags).has .inactive = true ↔
      f.has .inactive = true ∨ hasFlag flags .inactive = true ∧ ¬ f.Unseen ∧
        (f.has .visible = true ∨ hasFlag flags .visible = true) := by
  rw [FactionState.loadFlags, has_warFlags (by decide), FactionState.showFlags]
  have hfirst : (if hasFlag flags .visible then f.setVisible else f).has .inactive =
      f.has .inactive := by
    split
    · exact has_setVisible_ne f (by decide)
    · rfl
  have hunseen : (if hasFlag flags .visible then f.setVisible else f).Unseen ↔ f.Unseen := by
    split
    · exact unseen_setVisible
    · exact Iff.rfl
  split
  · rename_i hflag
    rw [inactive_setInactive_true, hfirst, hunseen, visible_showFirst, hflag, eq_self_iff_true,
      true_and]
    tauto
  · rename_i hflag
    rw [hfirst, or_iff_left fun h => hflag h.1]

end

/-! ## What is true of every state -/

/-- The state of a faction differs from a new one in what the setters let through. -/
structure StateOf (c : Config) (e : FactionEntry) (f : FactionState) : Prop where
  id : f.id = e.id
  unseen : f.Unseen ↔ (newFaction c e).Unseen
  visible : (newFaction c e).has .visible = true → f.has .visible = true
  seen : f.has .visible = true → (newFaction c e).has .visible = true ∨ ¬ f.Unseen
  active : f.has .inactive = true →
    (newFaction c e).has .inactive = true ∨ ¬ f.Unseen ∧ f.has .visible = true

theorem stateOf_newFaction (c : Config) (e : FactionEntry) : StateOf c e (newFaction c e) :=
  ⟨rfl, Iff.rfl, id, .inl, .inl⟩

namespace StateOf

/-- Only the flags matter, and of these not war. -/
theorem congr {f' : FactionState} (hf : StateOf c e f) (hid : f'.id = f.id)
    (hflags : ∀ flag, flag ≠ .atWar → f'.has flag = f.has flag) : StateOf c e f' := by
  have hunseen : f'.Unseen ↔ f.Unseen := by
    rw [FactionState.Unseen, hflags _ (by decide), hflags _ (by decide)]
    rfl
  have hvisible := hflags .visible (by decide)
  have hinactive := hflags .inactive (by decide)
  refine ⟨hid.trans hf.id, hunseen.trans hf.unseen, ?_, ?_, ?_⟩
  · rw [hvisible]
    exact hf.visible
  · rw [hvisible, hunseen]
    exact hf.seen
  · rw [hvisible, hinactive, hunseen]
    exact hf.active

theorem setVisible (hf : StateOf c e f) : StateOf c e f.setVisible := by
  refine ⟨(sets_setVisible f).id.trans hf.id, unseen_setVisible.trans hf.unseen, ?_, ?_, ?_⟩
  · exact fun hnew => (visible_setVisible f).2 (.inl (hf.visible hnew))
  · rw [visible_setVisible, unseen_setVisible]
    exact fun h => h.elim hf.seen .inr
  · rw [visible_setVisible, unseen_setVisible, has_setVisible_ne f (by decide)]
    exact fun h => (hf.active h).imp_right fun hseen => ⟨hseen.1, .inr hseen.1⟩

theorem setInactive (hf : StateOf c e f) (on : Bool) : StateOf c e (f.setInactive on) := by
  have hunseen : (f.setInactive on).Unseen ↔ f.Unseen := by
    rw [FactionState.Unseen, f.has_setInactive on (by decide), f.has_setInactive on (by decide)]
    rfl
  have hvisible := f.has_setInactive on (show FactionFlag.visible ≠ .inactive by decide)
  refine ⟨(sets_setInactive f on).id.trans hf.id, hunseen.trans hf.unseen, ?_, ?_, ?_⟩
  · rw [hvisible]
    exact hf.visible
  · rw [hvisible, hunseen]
    exact hf.seen
  · rw [hvisible, hunseen]
    cases on with
    | false =>
        rw [inactive_setInactive_false]
        exact fun h => absurd h Bool.false_ne_true
    | true =>
        rw [inactive_setInactive_true]
        exact fun h => h.elim hf.active .inr

theorem loadFlags (hf : StateOf c e f) (base : Int) (flags : BitVec 16) :
    StateOf c e (f.loadFlags base flags) := by
  have hsame (flag : FactionFlag) (hwar : flag ≠ .atWar) :
      (f.loadFlags base flags).has flag = (f.showFlags flags).has flag := has_warFlags hwar
  have hshown : StateOf c e (f.showFlags flags) := by
    have hfirst : StateOf c e (if hasFlag flags .visible then f.setVisible else f) := by
      split
      · exact hf.setVisible
      · exact hf
    unfold FactionState.showFlags
    dsimp only
    split
    · exact hfirst.setInactive true
    · exact hfirst
  exact hshown.congr (sets_warFlags _ base flags).id hsame

theorem loadState (hf : StateOf c e f) (row : SavedRow) :
    StateOf c e (Reputation.loadState c e f row) := by
  have hstanding : StateOf c e { f with standing := row.standing } :=
    hf.congr rfl fun _ _ => rfl
  have hflags := hstanding.loadFlags (c.getBaseReputation e) row.flags
  unfold Reputation.loadState
  dsimp only
  split
  · exact hflags.congr rfl fun _ _ => rfl
  · exact hflags

end StateOf

/-- Each faction with a place in the list has a state, and there are no others. -/
structure Sound (c : Config) (m : ReputationMgr) : Prop where
  complete : ∀ e ∈ c.store.entries, e.canHaveReputation = true →
    ∃ f, m.factions.lookup e.repListID = some f
  states : ∀ k f, m.factions.lookup k = some f →
    ∃ e ∈ c.store.entries, e.canHaveReputation = true ∧ e.repListID = k ∧ StateOf c e f

namespace Sound

theorem stateOf (hm : Sound c m) (he : e ∈ c.store.entries)
    (hf : m.factions.lookup e.repListID = some f) : StateOf c e f := by
  obtain ⟨e', he', hcan, hkey, hstate⟩ := hm.states _ f hf
  rwa [repListID_inj he' he hcan hkey] at hstate

/-- What keeps all states keeps the manager. -/
theorem acts (hm : Sound c m) (hg : Acts m m' k g)
    (hstate : ∀ e f, StateOf c e f → StateOf c e (g f)) : Sound c m' := by
  refine ⟨fun e he hcan => ?_, fun k' f' hf' => ?_⟩
  · obtain ⟨f, hf⟩ := hm.complete e he hcan
    rw [hg]
    split
    · rename_i heq
      exact ⟨g f, by rw [← heq, hf, Option.map_some]⟩
    · exact ⟨f, hf⟩
  · rw [hg] at hf'
    split at hf'
    · rename_i heq
      obtain ⟨f, hf, rfl⟩ := Option.map_eq_some_iff.1 hf'
      obtain ⟨e, he, hcan, hkey, hfit⟩ := hm.states k f hf
      exact ⟨e, he, hcan, hkey.trans heq.symm, hstate e f hfit⟩
    · exact hm.states k' f' hf'

theorem puts (hm : Sound c m) (hf : Puts m m' e.repListID f) (he : e ∈ c.store.entries)
    (hcan : e.canHaveReputation = true) (hstate : StateOf c e f) : Sound c m' := by
  refine ⟨fun e' he' hcan' => ?_, fun k f' hf' => ?_⟩
  · by_cases hkey : e'.repListID = e.repListID
    · exact ⟨f, hkey ▸ hf.self⟩
    · rw [hf.other _ hkey]
      exact hm.complete e' he' hcan'
  · by_cases hkey : k = e.repListID
    · rw [hkey, hf.self] at hf'
      cases hf'
      exact ⟨e, he, hcan, hkey.symm, hstate⟩
    · rw [hf.other _ hkey] at hf'
      exact hm.states k f' hf'

theorem loadRow (hm : Sound c m) (row : SavedRow) : Sound c (ReputationMgr.loadRow c m row) := by
  cases hentry : c.store.lookupEntry row.faction with
  | none =>
      unfold ReputationMgr.loadRow
      rw [hentry]
      exact hm
  | some e =>
      obtain ⟨he, -⟩ := mem_of_lookupEntry hentry
      by_cases hcan : e.canHaveReputation = true
      · obtain ⟨f, hf⟩ := hm.complete e he hcan
        exact hm.puts (puts_loadRow hcan hf hentry) he hcan ((hm.stateOf he hf).loadState row)
      · unfold ReputationMgr.loadRow
        rw [hentry]
        dsimp only
        rw [if_neg hcan]
        exact hm

end Sound

/-! ## The whole list -/

theorem lookupEntry_self (he : e ∈ c.store.entries) : c.store.lookupEntry e.id = some e := by
  cases hentry : c.store.lookupEntry e.id with
  | none => exact absurd (List.find?_eq_none.1 hentry e he) (by simp)
  | some e' =>
      obtain ⟨he', hid⟩ := mem_of_lookupEntry hentry
      have hids : (c.store.entries.map FactionEntry.id).Nodup :=
        List.pairwise_map.2 (c.store.sorted.imp Nat.ne_of_lt)
      rw [List.inj_on_of_nodup_map hids he' he hid]

theorem puts_initializeFaction (hcan : e.canHaveReputation = true) :
    Puts m (ReputationMgr.initializeFaction c m e) e.repListID (newFaction c e) := by
  unfold ReputationMgr.initializeFaction
  rw [if_pos hcan]
  dsimp only
  split
  · exact .of_insert rfl
  · exact .of_insert rfl

/-- The loop of `Initialize`. -/
theorem lookup_initializeLoop (l : List FactionEntry) : ∀ m : ReputationMgr,
    (∀ e ∈ l, e ∈ c.store.entries) → ∀ e ∈ c.store.entries, e.canHaveReputation = true →
      e ∈ l ∨ m.factions.lookup e.repListID = some (newFaction c e) →
        (l.foldl (ReputationMgr.initializeFaction c) m).factions.lookup e.repListID =
          some (newFaction c e) := by
  induction l with
  | nil => exact fun m _ e _ _ h => h.resolve_left List.not_mem_nil
  | cons e' l ih =>
      intro m hl e he hcan h
      refine ih _ (fun x hx => hl x (List.mem_cons_of_mem _ hx)) e he hcan ?_
      by_cases heq : e = e'
      · subst heq
        exact .inr (puts_initializeFaction hcan).self
      · refine (h.imp_left fun hmem => (List.mem_cons.1 hmem).resolve_left heq).imp_right ?_
        intro hnew
        by_cases hcan' : e'.canHaveReputation = true
        · rw [(puts_initializeFaction hcan').other, hnew]
          exact fun hkey => heq (repListID_inj he (hl e' List.mem_cons_self) hcan hkey)
        · unfold ReputationMgr.initializeFaction
          rw [if_neg hcan', hnew]

theorem lookup_initializeFactions (he : e ∈ c.store.entries) (hcan : e.canHaveReputation = true) :
    (ReputationMgr.initializeFactions c).factions.lookup e.repListID = some (newFaction c e) :=
  lookup_initializeLoop c.store.entries .new (fun _ h => h) e he hcan (.inl he)

theorem sound_initializeFactions (c : Config) : Sound c (ReputationMgr.initializeFactions c) := by
  refine ⟨fun e he hcan => ⟨_, lookup_initializeFactions he hcan⟩, ?_⟩
  have hloop : ∀ (l : List FactionEntry) (m : ReputationMgr), (∀ e ∈ l, e ∈ c.store.entries) →
      (∀ k f, m.factions.lookup k = some f → ∃ e ∈ c.store.entries,
        e.canHaveReputation = true ∧ e.repListID = k ∧ StateOf c e f) →
      ∀ k f, (l.foldl (ReputationMgr.initializeFaction c) m).factions.lookup k = some f →
        ∃ e ∈ c.store.entries, e.canHaveReputation = true ∧ e.repListID = k ∧ StateOf c e f := by
    intro l
    induction l with
    | nil => exact fun m _ h => h
    | cons e l ih =>
        intro m hl h
        refine ih _ (fun x hx => hl x (List.mem_cons_of_mem _ hx)) fun k f hf => ?_
        by_cases hcan : e.canHaveReputation = true
        · have hputs := puts_initializeFaction (c := c) (m := m) hcan
          by_cases hkey : k = e.repListID
          · rw [hkey, hputs.self] at hf
            cases hf
            exact ⟨e, hl e List.mem_cons_self, hcan, hkey.symm, stateOf_newFaction c e⟩
          · rw [hputs.other _ hkey] at hf
            exact h k f hf
        · unfold ReputationMgr.initializeFaction at hf
          rw [if_neg hcan] at hf
          exact h k f hf
  exact hloop c.store.entries .new (fun _ h => h) fun k f hf => by cases hf

theorem sound_loadFromDB (c : Config) (rows : List SavedRow) :
    Sound c (ReputationMgr.loadFromDB c rows) := by
  have hloop : ∀ (rows : List SavedRow) m, Sound c m →
      Sound c (rows.foldl (ReputationMgr.loadRow c) m) := by
    intro rows
    induction rows with
    | nil => exact fun _ h => h
    | cons row rows ih => exact fun m h => ih _ (h.loadRow row)
  exact hloop rows _ (sound_initializeFactions c)

/-- No two rows of the character are of one faction. -/
def Keyed (rows : List SavedRow) : Prop := (rows.map SavedRow.faction).Nodup

/-- The state of a faction after `LoadFromDB`. -/
def loadedState (c : Config) (e : FactionEntry) (rows : List SavedRow) : FactionState :=
  match rows.find? fun row => row.faction = e.id with
  | none => newFaction c e
  | some row => loadState c e (newFaction c e) row

theorem lookup_loadFromDB {rows : List SavedRow} (hrows : Keyed rows) (he : e ∈ c.store.entries)
    (hcan : e.canHaveReputation = true) :
    (ReputationMgr.loadFromDB c rows).factions.lookup e.repListID =
      some (loadedState c e rows) := by
  -- once its row is loaded, no other row is of the faction
  have hrest : ∀ (rows : List SavedRow) m, Sound c m → (∀ row ∈ rows, row.faction ≠ e.id) →
      (rows.foldl (ReputationMgr.loadRow c) m).factions.lookup e.repListID =
        m.factions.lookup e.repListID := by
    intro rows
    induction rows with
    | nil => exact fun _ _ _ => rfl
    | cons row rows ih =>
        intro m hm hne
        rw [List.foldl_cons, ih _ (hm.loadRow row) fun x hx => hne x (List.mem_cons_of_mem _ hx)]
        exact lookup_loadRow_ne he hcan hm.complete (hne row List.mem_cons_self)
  have hloop : ∀ (rows : List SavedRow) m, Keyed rows → Sound c m →
      m.factions.lookup e.repListID = some (newFaction c e) →
      (rows.foldl (ReputationMgr.loadRow c) m).factions.lookup e.repListID =
        some (loadedState c e rows) := by
    intro rows
    induction rows with
    | nil => exact fun _ _ _ hf => hf
    | cons row rows ih =>
        intro m hrows hm hf
        obtain ⟨hrow, hkeyed⟩ := List.nodup_cons.1 hrows
        rw [List.foldl_cons, loadedState]
        by_cases hmine : row.faction = e.id
        · rw [List.find?_cons_of_pos (by simpa using hmine), hrest rows _ (hm.loadRow row)]
          · exact (puts_loadRow hcan hf (hmine ▸ lookupEntry_self he)).self
          · exact fun x hx heq => hrow (hmine ▸ heq ▸ List.mem_map_of_mem hx)
        · rw [List.find?_cons_of_neg (by simpa using hmine)]
          exact ih _ hkeyed (hm.loadRow row)
            ((lookup_loadRow_ne he hcan hm.complete hmine).trans hf)
  exact hloop rows _ hrows (sound_initializeFactions c) (lookup_initializeFactions he hcan)

end Sunstrider.Reputation
