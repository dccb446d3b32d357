import Sunstrider.Proofs.ReputationSaves

/-!
# Runs between saves

Every operation keeps what is recorded. Whether it also keeps that a save brings everything
back is a question of the one state it acts on, and of whether that is to be deleted.
-/

namespace Sunstrider.Reputation.Session

open Lib

variable {c : Config} {m m' : ReputationMgr} {e : FactionEntry} {f : FactionState}
  {rows : List SavedRow} {s : Session} {k : Nat} {g : FactionState → FactionState}

/-! ## What is recorded stays recorded -/

/-- What an operation does to a state keeps it one of its faction, and marks it if it
changes what shows. -/
structure Marks (c : Config) (g : FactionState → FactionState) : Prop where
  stateOf : ∀ e f, StateOf c e f → StateOf c e (g f)
  clean : ∀ f, ¬ Written (g f) → ¬ Written f ∧ (g f).shown = f.shown

theorem Recorded.acts (h : Recorded c s) (hg : Acts s.mgr m' k g) (hmarks : Marks c g) :
    Recorded c ⟨m', s.rows⟩ := by
  refine ⟨h.sound.acts hg hmarks.stateOf, h.keyed, fun e he f hf hclean row hrow hfaction => ?_⟩
  rw [hg] at hf
  split at hf
  · rename_i hkey
    obtain ⟨f₀, hf₀, rfl⟩ := Option.map_eq_some_iff.1 hf
    obtain ⟨hclean, hshown⟩ := hmarks.clean f₀ hclean
    exact (h.rows e he f₀ (hkey ▸ hf₀) hclean row hrow hfaction).of_shown hshown
  · exact h.rows e he f hf hclean row hrow hfaction

/-- A row that leaves nothing to be saved has the flags that it was loaded with. -/
theorem rowOf_loadState {row : SavedRow} (hf : f.needSave = true)
    (hclean : ¬ Written (loadState c e f row)) : RowOf row (loadState c e f row) := by
  have hstanding := (loadState_fields (c := c) (e := e) f row).1
  have hsets := sets_loadFlags { f with standing := row.standing } (c.getBaseReputation e)
    row.flags
  unfold loadState at hclean hstanding ⊢
  dsimp only at hclean hstanding ⊢
  split at hclean
  · rename_i hflags
    have hflag (flag : FactionFlag) : hasFlag row.flags flag =
        (FactionState.loadFlags { f with standing := row.standing } (c.getBaseReputation e)
          row.flags).has flag := by
      unfold FactionState.has hasFlag
      rw [← BitVec.testBit_toNat, ← BitVec.testBit_toNat, hflags]
    rw [if_pos hflags] at hstanding ⊢
    exact ⟨hstanding.symm, hflag _, hflag _⟩
  · refine absurd (.inr ?_) hclean
    rcases hsets.same_or_needSave with hsame | hsave
    · rw [hsame]
      exact hf
    · exact hsave

theorem recorded_load (c : Config) (hrows : Keyed rows) : Recorded c (load c rows) := by
  refine ⟨sound_loadFromDB c rows, hrows, fun e he f hf hclean row hrow hfaction => ?_⟩
  obtain ⟨e', he', hcan, hkey, -⟩ := (sound_loadFromDB c rows).states _ f hf
  cases repListID_inj he' he hcan hkey
  cases (lookup_loadFromDB hrows he hcan).symm.trans hf
  unfold loadedState at hclean ⊢
  split at hclean
  · exact absurd (.inr rfl) hclean
  · rename_i row' hfind
    have hfaction' : row'.faction = e.id := by simpa using List.find?_some hfind
    have hsame : row = row' := List.inj_on_of_nodup_map hrows hrow
      (List.mem_of_find?_eq_some hfind) (hfaction.trans hfaction'.symm)
    rw [hsame]
    exact rowOf_loadState rfl hclean

theorem saved_fields (f : FactionState) :
    (ReputationMgr.saved f).id = f.id ∧ (ReputationMgr.saved f).flags = f.flags ∧
      (ReputationMgr.saved f).shown = f.shown ∧ (ReputationMgr.saved f).needDelete = false ∧
      ((ReputationMgr.saved f).needSave = true ↔ f.needDelete = true ∧ f.needSave = true) := by
  unfold ReputationMgr.saved
  split
  · rename_i hdelete
    exact ⟨rfl, rfl, rfl, rfl, (and_iff_right hdelete).symm⟩
  · rename_i hkept
    exact ⟨rfl, rfl, rfl, Bool.eq_false_iff.2 hkept,
      iff_of_false Bool.false_ne_true fun h => hkept h.1⟩

section

variable (hids : ∀ e ∈ c.store.entries, e.id < 2 ^ 16)

include hids

theorem recorded_save (h : Recorded c s) : Recorded c s.save := by
  refine ⟨⟨fun e he hcan => ?_, fun k f hf => ?_⟩, keyed_save hids h,
    fun e he f hf hclean row hrow hfaction => ?_⟩
  · obtain ⟨f, hf⟩ := h.sound.complete e he hcan
    exact ⟨_, (lookup_saveToDB s.mgr _).trans (congrArg (Option.map ReputationMgr.saved) hf)⟩
  · obtain ⟨f₀, hf₀, rfl⟩ := Option.map_eq_some_iff.1 ((lookup_saveToDB s.mgr k).symm.trans hf)
    obtain ⟨e, he, hcan, hkey, hstate⟩ := h.sound.states k f₀ hf₀
    obtain ⟨hid, hflags, -⟩ := saved_fields f₀
    exact ⟨e, he, hcan, hkey, hstate.congr hid fun flag _ => congrArg (hasFlag · flag) hflags⟩
  · obtain ⟨f₀, hf₀, rfl⟩ := Option.map_eq_some_iff.1 ((lookup_saveToDB s.mgr _).symm.trans hf)
    exact (rowOf_of_mem_save hids h he hf₀ hfaction hrow).of_shown (saved_fields f₀).2.2.1

end

/-! ## What the operations do to a state -/

/-- The setters keep what is recorded. -/
theorem marks_of_sets (hstate : ∀ e f, StateOf c e f → StateOf c e (g f))
    (hsets : ∀ f, Sets f (g f)) : Marks c g := by
  refine ⟨hstate, fun f hclean => ?_⟩
  rcases (hsets f).same_or_needSave with hsame | hsave
  · rw [hsame] at hclean ⊢
    exact ⟨hclean, rfl⟩
  · exact absurd (.inr hsave) hclean

/-- What a drop makes of a state. -/
def dropped (f : FactionState) : FactionState := { f with needDelete := true, standing := 0 }

theorem marks_dropped : Marks c dropped :=
  ⟨fun _ _ hf => hf.congr rfl fun _ _ => rfl, fun _ hclean => absurd (.inl rfl) hclean⟩

/-- What `SetAtWar` makes of the state at a place of the list. -/
def warDeclared (on : Bool) (f : FactionState) : FactionState :=
  if f.has .invisibleForced ∨ f.has .hidden then f else f.setAtWar on

theorem sets_warDeclared (on : Bool) (f : FactionState) : Sets f (warDeclared on f) := by
  unfold warDeclared
  split
  · exact ⟨rfl, rfl, rfl, .inl rfl⟩
  · exact sets_setAtWar f on

theorem has_warDeclared (on : Bool) (f : FactionState) {flag : FactionFlag}
    (hwar : flag ≠ .atWar) : (warDeclared on f).has flag = f.has flag := by
  unfold warDeclared
  split
  · rfl
  · exact f.has_setAtWar on hwar

/-- The reputation that is set. -/
def clamped (c : Config) (e : FactionEntry) (f : FactionState) (standing : Int)
    (incremental : Bool) : Int :=
  let standing :=
    if incremental then c.gain standing + (f.standing + c.getBaseReputation e) else standing
  if reputationCap < standing then reputationCap
  else if standing < reputationBottom then reputationBottom
  else standing

/-- What `SetOneFactionReputation` makes of the state. -/
def standingSet (c : Config) (e : FactionEntry) (standing : Int) (incremental : Bool)
    (f : FactionState) : FactionState :=
  let reputation := clamped c e f standing incremental
  let f := { f with standing := reputation - c.getBaseReputation e, needSave := true }.setVisible
  if reputationToRank reputation ≤ .hostile then f.setAtWar true else f

theorem acts_of_puts (hf : m.factions.lookup k = some f) (hputs : Puts m m' k (g f)) :
    Acts m m' k g := by
  intro k'
  split
  · rename_i heq
    rw [heq, hf, Option.map_some, hputs.self]
  · rename_i hne
    exact hputs.other k' hne

theorem acts_setOneFactionReputation (hf : m.factions.lookup e.repListID = some f)
    (standing : Int) (incremental : Bool) :
    Acts m (m.setOneFactionReputation c e standing incremental).1 e.repListID
      (standingSet c e standing incremental) := by
  refine acts_of_puts hf ?_
  unfold ReputationMgr.setOneFactionReputation standingSet clamped
  dsimp only
  rw [hf]
  dsimp only
  generalize (if incremental = true then _ else standing) = total
  generalize (if reputationCap < total then _ else _) = reputation
  have hset : Puts m (m.updateState e.repListID fun state =>
      { state with standing := reputation - c.getBaseReputation e, needSave := true }) e.repListID
      { f with standing := reputation - c.getBaseReputation e, needSave := true } :=
    (Acts.updateState m _ _).puts hf
  have hvisible := hset.trans ((acts_setVisibleState _ e.repListID).puts hset.self)
  split
  · have hwar := hvisible.trans ((Acts.updateState _ _ (·.setAtWar true)).puts hvisible.self)
    exact ⟨hwar.self, hwar.other⟩
  · exact ⟨hvisible.self, hvisible.other⟩

theorem standingSet_fields (f : FactionState) (standing : Int) (incremental : Bool) :
    (standingSet c e standing incremental f).id = f.id ∧
      (standingSet c e standing incremental f).standing =
        clamped c e f standing incremental - c.getBaseReputation e ∧
      (standingSet c e standing incremental f).needDelete = f.needDelete ∧
      (standingSet c e standing incremental f).needSave = true := by
  unfold standingSet
  dsimp only
  generalize clamped c e f standing incremental = reputation
  generalize hset : ({ f with
    standing := reputation - c.getBaseReputation e, needSave := true } : FactionState) = f₁
  have hsets : Sets f₁ (if reputationToRank reputation ≤ .hostile then f₁.setVisible.setAtWar true
      else f₁.setVisible) := (sets_setVisible f₁).trans (sets_setAtWar _ true).ite
  subst hset
  refine ⟨hsets.id, hsets.standing, hsets.needDelete, ?_⟩
  rcases hsets.same_or_needSave with hsame | hsave
  · rw [hsame]
  · exact hsave

theorem has_standingSet (f : FactionState) (standing : Int) (incremental : Bool)
    {flag : FactionFlag} (hwar : flag ≠ .atWar) :
    (standingSet c e standing incremental f).has flag = f.setVisible.has flag := by
  have hsame (x : Int) : ({ f with standing := x, needSave := true } : FactionState).setVisible.has
      flag = f.setVisible.has flag := by
    by_cases hvisible : flag = .visible
    · subst hvisible
      rw [Bool.eq_iff_iff, visible_setVisible, visible_setVisible]
      rfl
    · rw [has_setVisible_ne _ hvisible, has_setVisible_ne _ hvisible]
      rfl
  unfold standingSet
  dsimp only
  exact (has_ite_setAtWar true hwar).trans (hsame _)

theorem stateOf_standingSet {e' : FactionEntry} (hf : StateOf c e' f) (standing : Int)
    (incremental : Bool) : StateOf c e' (standingSet c e standing incremental f) :=
  hf.setVisible.congr
    ((standingSet_fields f standing incremental).1.trans (sets_setVisible f).id.symm)
    fun _ hwar => has_standingSet f standing incremental hwar

theorem marks_standingSet (standing : Int) (incremental : Bool) :
    Marks c (standingSet c e standing incremental) :=
  ⟨fun _ _ hf => stateOf_standingSet hf standing incremental, fun f hclean =>
    absurd (.inr (standingSet_fields f standing incremental).2.2.2) hclean⟩

/-! ## What comes back -/

theorem not_willHaveRow (hdelete : f.needDelete = true) : ¬ WillHaveRow e f rows := fun h =>
  absurd (hdelete.symm.trans h.1) (by decide)

theorem willHaveRow (hdelete : f.needDelete = false) (hsave : f.needSave = true) :
    WillHaveRow e f rows := ⟨hdelete, .inl hsave⟩

/-- A state that is to be deleted comes back as a new one. -/
theorem comesBack_iff_of_needDelete (hdelete : f.needDelete = true) :
    ComesBack c e f rows ↔ f.shown = (newFaction c e).shown := by
  unfold ComesBack
  rw [and_iff_right fun h => absurd h (not_willHaveRow hdelete),
    forall_prop_of_true (not_willHaveRow hdelete)]

theorem comesBack_iff_of_needSave (hdelete : f.needDelete = false) (hsave : f.needSave = true) :
    ComesBack c e f rows ↔
      ((newFaction c e).has .inactive = true → f.has .inactive = true) := by
  unfold ComesBack
  rw [and_iff_left fun h => absurd (willHaveRow hdelete hsave) h,
    forall_prop_of_true (willHaveRow hdelete hsave)]

/-- A faction that comes back and is inactive from the start is so now. -/
theorem ComesBack.inactive (h : ComesBack c e f rows)
    (hnew : (newFaction c e).has .inactive = true) : f.has .inactive = true := by
  by_cases hrow : WillHaveRow e f rows
  · exact h.1 hrow hnew
  · rw [(shown_eq_iff.1 (h.2 hrow)).2.2]
    exact hnew

/-- An operation that marks a state to be saved: a state that is to be deleted must stay as
new, another one as inactive as new. -/
theorem comesBack_marked_iff {f' : FactionState} (hdelete : f'.needDelete = f.needDelete)
    (hsave : f'.needSave = true) :
    ComesBack c e f' rows ↔
      (f.needDelete = true → f'.shown = (newFaction c e).shown) ∧
        (f.needDelete = false → (newFaction c e).has .inactive = true →
          f'.has .inactive = true) := by
  cases hcase : f.needDelete with
  | true =>
      rw [comesBack_iff_of_needDelete (hdelete.trans hcase), forall_prop_of_true rfl,
        and_iff_left fun h => absurd h (by decide)]
  | false =>
      rw [comesBack_iff_of_needSave (hdelete.trans hcase) hsave, forall_prop_of_true rfl,
        and_iff_right fun h => absurd h (by decide)]

/-- A faction that is shown stays as it shows if it was shown or cannot be. -/
theorem visible_setVisible_eq_iff :
    f.setVisible.has .visible = f.has .visible ↔ f.has .visible = true ∨ f.Unseen := by
  rw [Bool.eq_iff_iff, visible_setVisible]
  by_cases hvisible : f.has .visible = true
  · exact iff_of_true ⟨fun _ => hvisible, .inl⟩ (.inl hvisible)
  · rw [or_iff_right hvisible, or_iff_right hvisible, iff_false_right hvisible, not_not]

theorem comesBack_standingSet_iff (h : ComesBack c e f rows) (standing : Int)
    (incremental : Bool) :
    ComesBack c e (standingSet c e standing incremental f) rows ↔
      (f.needDelete = true → clamped c e f standing incremental = c.getBaseReputation e ∧
        (f.has .visible = true ∨ f.Unseen)) := by
  obtain ⟨-, hstanding, hdelete, hsave⟩ := standingSet_fields (c := c) (e := e) f standing
    incremental
  have hvisible := has_standingSet (c := c) (e := e) f standing incremental
    (show FactionFlag.visible ≠ .atWar by decide)
  have hinactive := (has_standingSet (c := c) (e := e) f standing incremental
    (show FactionFlag.inactive ≠ .atWar by decide)).trans (has_setVisible_ne f (by decide))
  rw [comesBack_marked_iff hdelete hsave, and_iff_left]
  · refine forall_congr' fun hdeleted => ?_
    obtain ⟨hzero, hshows, hrests⟩ := shown_eq_iff.1 ((comesBack_iff_of_needDelete hdeleted).1 h)
    have hnew : (newFaction c e).standing = 0 := rfl
    rw [shown_eq_iff, hstanding, hvisible, hinactive, ← hshows, ← hrests, and_iff_left rfl, hnew,
      Int.sub_eq_zero, visible_setVisible_eq_iff]
  · intro _ hnew
    rw [hinactive]
    exact h.inactive hnew

theorem comesBack_setVisible_iff (h : ComesBack c e f rows) :
    ComesBack c e f.setVisible rows ↔
      (f.needDelete = true → f.has .visible = true ∨ f.Unseen) := by
  have hsets := sets_setVisible f
  rcases hsets.same_or_needSave with hsame | hsave
  · rw [hsame]
    exact iff_of_true h fun _ => visible_setVisible_eq_iff.1 (by rw [hsame])
  · have hinactive := has_setVisible_ne f (show FactionFlag.inactive ≠ .visible by decide)
    rw [comesBack_marked_iff hsets.needDelete hsave, and_iff_left]
    · refine forall_congr' fun hdeleted => ?_
      rw [← (comesBack_iff_of_needDelete hdeleted).1 h, shown_eq_iff, hsets.standing, hinactive,
        and_iff_right rfl, and_iff_left rfl, visible_setVisible_eq_iff]
    · intro _ hnew
      rw [hinactive]
      exact h.inactive hnew

/-- War does not show. -/
theorem comesBack_warDeclared (h : ComesBack c e f rows) (on : Bool) :
    ComesBack c e (warDeclared on f) rows := by
  have hsets := sets_warDeclared on f
  rcases hsets.same_or_needSave with hsame | hsave
  · rw [hsame]
    exact h
  · have hinactive := has_warDeclared on f (show FactionFlag.inactive ≠ .atWar by decide)
    have hvisible := has_warDeclared on f (show FactionFlag.visible ≠ .atWar by decide)
    refine (comesBack_marked_iff hsets.needDelete hsave).2 ⟨fun hdeleted => ?_, fun _ hnew => ?_⟩
    · rw [← (comesBack_iff_of_needDelete hdeleted).1 h]
      exact shown_eq_iff.2 ⟨hsets.standing, hvisible, hinactive⟩
    · rw [hinactive]
      exact h.inactive hnew

/-- The faction is as inactive as it shall be, or may not be. -/
def StaysActive (f : FactionState) (on : Bool) : Prop :=
  f.has .inactive = on ∨ on = true ∧ (f.Unseen ∨ f.has .visible = false)

theorem inactive_setInactive_eq_iff {on : Bool} :
    (f.setInactive on).has .inactive = f.has .inactive ↔ StaysActive f on := by
  unfold StaysActive
  cases on with
  | false =>
      rw [inactive_setInactive_false, or_iff_left fun h => absurd h.1 (by decide)]
      exact eq_comm
  | true =>
      rw [Bool.eq_iff_iff, inactive_setInactive_true]
      cases f.has .inactive with
      | true => simp
      | false =>
          cases f.has .visible with
          | true => simp
          | false => simp

theorem setInactive_of_stays {on : Bool} (h : StaysActive f on) : f.setInactive on = f := by
  unfold FactionState.setInactive
  split
  · rfl
  · rename_i hallowed
    rw [if_pos]
    rcases h with hsame | ⟨hon, hrefused⟩
    · exact hsame
    · refine absurd ⟨hon, hrefused.imp id fun hnot => ?_⟩ hallowed
      rw [hnot]
      exact Bool.false_ne_true

theorem inactive_setInactive {on : Bool} (h : ¬ StaysActive f on) :
    (f.setInactive on).has .inactive = on := by
  have hchanged := mt inactive_setInactive_eq_iff.1 h
  have hnot : f.has .inactive ≠ on := fun hsame => h (.inl hsame)
  exact (Bool.eq_not.2 hchanged).trans (Bool.eq_not.2 (Ne.symm hnot)).symm

theorem comesBack_setInactive_iff (h : ComesBack c e f rows) (on : Bool) :
    ComesBack c e (f.setInactive on) rows ↔
      StaysActive f on ∨ f.needDelete = false ∧
        ((newFaction c e).has .inactive = true → on = true) := by
  have hsets := sets_setInactive f on
  by_cases hstays : StaysActive f on
  · rw [setInactive_of_stays hstays]
    exact iff_of_true h (.inl hstays)
  · have hchanged := mt inactive_setInactive_eq_iff.1 hstays
    have hsave : (f.setInactive on).needSave = true := by
      rcases hsets.same_or_needSave with hsame | hsave
      · exact absurd (by rw [hsame]) hchanged
      · exact hsave
    rw [comesBack_marked_iff hsets.needDelete hsave, or_iff_right hstays,
      inactive_setInactive hstays]
    constructor
    · rintro ⟨hdeleted, hkept⟩
      have hdelete : f.needDelete = false := by
        refine Bool.eq_false_iff.2 fun hdelete => hchanged ?_
        have hnew := (comesBack_iff_of_needDelete hdelete).1 h
        exact (shown_eq_iff.1 ((hdeleted hdelete).trans hnew.symm)).2.2
      exact ⟨hdelete, hkept hdelete⟩
    · rintro ⟨hdelete, hkept⟩
      exact ⟨fun h => absurd (hdelete.symm.trans h) Bool.false_ne_true, fun _ => hkept⟩

theorem comesBack_dropped_iff :
    ComesBack c e (dropped f) rows ↔ f.has .visible = (newFaction c e).has .visible ∧
      f.has .inactive = (newFaction c e).has .inactive := by
  rw [comesBack_iff_of_needDelete rfl, shown_eq_iff]
  exact and_iff_right rfl

/-! ## One operation -/

/-- A faction is dropped only while it is shown and inactive as from the start, and nothing
of it is changed after that before it is saved. A faction that is inactive from the start
stays so. -/
def Meets (c : Config) (s : Session) : Op → Prop
  | .setReputation faction standing incremental spillOverOnly =>
      ∀ e, c.store.lookupEntry faction = some e → spillOverOnly = false →
        ∀ f, s.mgr.factions.lookup e.repListID = some f → f.needDelete = true →
          clamped c e f (c.onPlayerReputationChange e.id standing incremental) incremental =
              c.getBaseReputation e ∧ (f.has .visible = true ∨ f.Unseen)
  | .setVisible faction =>
      ∀ e, c.store.lookupEntry faction = some e → ¬ e.reputationListID < 0 →
        ∀ f, s.mgr.factions.lookup e.repListID = some f → f.needDelete = true →
          f.has .visible = true ∨ f.Unseen
  | .setInactive repListID on =>
      ∀ e ∈ c.store.entries, e.repListID = repListID →
        ∀ f, s.mgr.factions.lookup repListID = some f →
          StaysActive f on ∨ f.needDelete = false ∧
            ((newFaction c e).has .inactive = true → on = true)
  | .drop repListID =>
      ∀ e ∈ c.store.entries, e.repListID = repListID →
        ∀ f, s.mgr.factions.lookup repListID = some f →
          f.has .visible = (newFaction c e).has .visible ∧
            f.has .inactive = (newFaction c e).has .inactive
  | _ => True

section

variable (hids : ∀ e ∈ c.store.entries, e.id < 2 ^ 16)

include hids

/-- Where an operation acts on one state, that state has to come back. -/
theorem reloads_acts_iff (h : Recorded c s) (hr : Reloads c s) (hg : Acts s.mgr m' k g)
    (hmarks : Marks c g) :
    Reloads c ⟨m', s.rows⟩ ↔ ∀ e ∈ c.store.entries, e.repListID = k →
      ∀ f, s.mgr.factions.lookup k = some f → ComesBack c e (g f) s.rows := by
  have hafter := h.acts hg hmarks
  rw [reloads_iff hids hafter]
  have hbefore := (reloads_iff hids h).1 hr
  constructor
  · intro hall e he hkey f hf
    obtain ⟨e', he', hcan, hkey', -⟩ := h.sound.states k f hf
    cases repListID_inj he' he hcan (hkey'.trans hkey.symm)
    subst hkey
    exact hall e he hcan (g f) (hg.lookup_self hf)
  · intro hall e he hcan f hf
    by_cases hkey : e.repListID = k
    · obtain ⟨f₀, hf₀⟩ := h.sound.complete e he hcan
      rw [hkey] at hf hf₀
      rw [hg.lookup_self hf₀] at hf
      cases hf
      exact hall e he hkey f₀ hf₀
    · rw [hg.lookup_ne hkey] at hf
      exact hbefore e he hcan f hf

/-- An operation on one state is kept track of, and keeps what comes back under the condition
that it has on the state. -/
theorem acts_spec (h : Recorded c s) (hg : Acts s.mgr m' k g) (hmarks : Marks c g)
    {P : FactionEntry → FactionState → Prop}
    (hP : ∀ e ∈ c.store.entries, e.canHaveReputation = true → e.repListID = k →
      ∀ f, ComesBack c e f s.rows → (ComesBack c e (g f) s.rows ↔ P e f)) :
    Recorded c ⟨m', s.rows⟩ ∧ (Reloads c s → (Reloads c ⟨m', s.rows⟩ ↔
      ∀ e ∈ c.store.entries, e.repListID = k →
        ∀ f, s.mgr.factions.lookup k = some f → P e f)) := by
  refine ⟨h.acts hg hmarks, fun hr => ?_⟩
  rw [reloads_acts_iff hids h hr hg hmarks]
  refine forall₂_congr fun e he => forall_congr' fun hkey => forall₂_congr fun f hf => ?_
  obtain ⟨e', he', hcan, hkey', -⟩ := h.sound.states k f hf
  cases repListID_inj he' he hcan (hkey'.trans hkey.symm)
  exact hP e he hcan hkey f ((reloads_iff hids h).1 hr e he hcan f (hkey ▸ hf))

/-- What an operation keeps, and when it keeps what comes back. -/
def Spec (c : Config) (s : Session) (op : Op) : Prop :=
  Recorded c (s.step c op) ∧ (Reloads c s → (Reloads c (s.step c op) ↔ Meets c s op))

theorem spec_setReputation (h : Recorded c s) (faction : Nat) (standing : Int)
    (incremental spillOverOnly : Bool) :
    Spec c s (.setReputation faction standing incremental spillOverOnly) := by
  unfold Spec step Reputation.step Meets
  dsimp only
  cases hentry : c.store.lookupEntry faction with
  | none => exact ⟨h, fun hr => iff_of_true hr fun e he => by cases he⟩
  | some e =>
      obtain ⟨he, -⟩ := mem_of_lookupEntry hentry
      dsimp only
      unfold ReputationMgr.setReputation
      dsimp only
      cases hf : s.mgr.factions.lookup e.repListID with
      | none =>
          refine ⟨h, fun hr => iff_of_true hr ?_⟩
          intro e' he' _ f hf'
          cases he'
          cases hf.symm.trans hf'
      | some f =>
          dsimp only
          cases spillOverOnly with
          | true => exact ⟨h, fun hr => iff_of_true hr fun _ _ hspill => by cases hspill⟩
          | false =>
              rw [if_neg Bool.false_ne_true]
              obtain ⟨hrecorded, hreloads⟩ := acts_spec hids h
                (acts_setOneFactionReputation hf _ incremental) (marks_standingSet _ incremental)
                (P := fun _ f => f.needDelete = true →
                  clamped c e f (c.onPlayerReputationChange e.id standing incremental)
                    incremental = c.getBaseReputation e ∧ (f.has .visible = true ∨ f.Unseen))
                fun e' he' hcan hkey f hback => by
                  cases repListID_inj he' he hcan hkey
                  exact comesBack_standingSet_iff hback _ incremental
              refine ⟨hrecorded, fun hr => (hreloads hr).trans ⟨fun hall => ?_, fun hall => ?_⟩⟩
              · intro e' he' _ f' hf'
                cases he'
                exact hall e he rfl f' hf'
              · intro e' _ _ f' hf'
                exact hall e rfl rfl f' hf'

theorem spec_setVisible (h : Recorded c s) (faction : Nat) : Spec c s (.setVisible faction) := by
  unfold Spec step Reputation.step Meets
  dsimp only
  cases hentry : c.store.lookupEntry faction with
  | none => exact ⟨h, fun hr => iff_of_true hr fun e he => by cases he⟩
  | some e =>
      obtain ⟨he, -⟩ := mem_of_lookupEntry hentry
      dsimp only
      unfold ReputationMgr.setVisible
      by_cases hlist : e.reputationListID < 0
      · rw [if_pos hlist]
        refine ⟨h, fun hr => iff_of_true hr fun e' he' hnot => ?_⟩
        cases he'
        exact absurd hlist hnot
      · rw [if_neg hlist]
        obtain ⟨hrecorded, hreloads⟩ := acts_spec hids h (acts_setVisibleState s.mgr e.repListID)
          (marks_of_sets (fun _ _ hf => hf.setVisible) sets_setVisible)
          fun e' _ _ _ f hback => comesBack_setVisible_iff hback
        refine ⟨hrecorded, fun hr => (hreloads hr).trans ⟨fun hall => ?_, fun hall => ?_⟩⟩
        · intro e' he' _ f' hf'
          cases he'
          exact hall e he rfl f' hf'
        · intro e' _ _ f' hf'
          exact hall e rfl hlist f' hf'

theorem spec_setAtWar (h : Recorded c s) (repListID : Nat) (on : Bool) :
    Spec c s (.setAtWar repListID on) := by
  have hg : Acts s.mgr (s.mgr.setAtWar repListID on) repListID (warDeclared on) :=
    .updateState s.mgr repListID _
  have hmarks : Marks c (warDeclared on) := by
    refine marks_of_sets (fun e f hf => ?_) (sets_warDeclared on)
    exact hf.congr (sets_warDeclared on f).id fun _ hwar => has_warDeclared on f hwar
  obtain ⟨hrecorded, hreloads⟩ := acts_spec hids h hg hmarks
    (fun e _ _ _ f hback => iff_of_true (comesBack_warDeclared hback on) trivial)
  exact ⟨hrecorded, fun hr => (hreloads hr).trans (iff_of_true (fun _ _ _ _ _ => trivial) trivial)⟩

theorem spec_setInactive (h : Recorded c s) (repListID : Nat) (on : Bool) :
    Spec c s (.setInactive repListID on) :=
  acts_spec hids h (.updateState s.mgr repListID (·.setInactive on))
    (marks_of_sets (fun _ _ hf => hf.setInactive on) fun f => sets_setInactive f on)
    fun _ _ _ _ _ hback => comesBack_setInactive_iff hback on

theorem spec_drop (h : Recorded c s) (repListID : Nat) : Spec c s (.drop repListID) :=
  acts_spec hids h (.updateState s.mgr repListID dropped) marks_dropped
    fun _ _ _ _ _ _ => comesBack_dropped_iff

/-- What comes back at one save comes back at the next. -/
theorem spec_save (h : Recorded c s) : Spec c s .save := by
  have hsaved : Recorded c s.save := recorded_save hids h
  refine ⟨hsaved, fun hr => iff_of_true ((reloads_iff hids hsaved).2 ?_) trivial⟩
  intro e he hcan f hf
  obtain ⟨f₀, hf₀, rfl⟩ := Option.map_eq_some_iff.1 ((lookup_saveToDB s.mgr _).symm.trans hf)
  have hback := (reloads_iff hids h).1 hr e he hcan f₀ hf₀
  obtain ⟨-, hflags, hshown, hdelete, -⟩ := saved_fields f₀
  refine ⟨fun _ hnew => ?_, fun hnone => ?_⟩
  · exact (congrArg (hasFlag · .inactive) hflags).trans (hback.inactive hnew)
  · rw [hshown]
    refine hback.2 fun hrow => hnone ⟨hdelete, .inr ?_⟩
    exact (willHaveRow_iff hids h he hf₀).1 hrow

theorem reloads_load (hrows : Keyed rows) : Reloads c (load c rows) := by
  refine (reloads_iff hids (recorded_load c hrows)).2 fun e he hcan f hf => ?_
  cases (lookup_loadFromDB hrows he hcan).symm.trans hf
  unfold loadedState
  split
  · rename_i hnone
    exact (comesBack_iff_of_needSave rfl rfl).2 id
  · rename_i row hfind
    refine ⟨fun _ => inactive_loadState row, fun hnone => absurd ?_ hnone⟩
    refine ⟨(loadState_fields _ row).2, .inr ⟨row, List.mem_of_find?_eq_some hfind, ?_⟩⟩
    simpa using List.find?_some hfind

theorem spec_step (h : Recorded c s) (op : Op) : Spec c s op := by
  cases op with
  | setReputation faction standing incremental spillOverOnly =>
      exact spec_setReputation hids h faction standing incremental spillOverOnly
  | setVisible faction => exact spec_setVisible hids h faction
  | setAtWar repListID on => exact spec_setAtWar hids h repListID on
  | setInactive repListID on => exact spec_setInactive hids h repListID on
  | drop repListID => exact spec_drop hids h repListID
  | save => exact spec_save hids h
  | load =>
      exact ⟨recorded_load c h.keyed, fun _ => iff_of_true (reloads_load hids h.keyed) trivial⟩

/-! ## Runs -/

/-- After every operation of a run from a load, saving and loading brings every faction back,
if and only if all operations meet the condition. -/
theorem run_reloads_iff (hrows : Keyed rows) (ops : List Op) :
    (∀ ops', ops' <+: ops → Reloads c (ops'.foldl (step c) (load c rows))) ↔
      Along (step c) (Meets c) (load c rows) ops := by
  refine Along.holds_iff (I := fun s => Recorded c s ∧ Reloads c s) (fun _ h => h.2) ?_ ?_
    ⟨recorded_load c hrows, reloads_load hids hrows⟩
  · rintro s op ⟨h, hr⟩ hop
    obtain ⟨hrecorded, hreloads⟩ := spec_step hids h op
    exact ⟨hrecorded, (hreloads hr).2 hop⟩
  · rintro s op ⟨h, hr⟩ hafter
    exact ((spec_step hids h op).2 hr).1 hafter

end

/-- Put off the list, then raised further, with a save in between. -/
theorem inactive_faction_comes_back :
    Reloads oneFaction ([.setReputation 1 9000 false false, .setInactive 5 true, .save,
      .setReputation 1 500 true false].foldl (step oneFaction) (load oneFaction [])) := by
  refine (run_reloads_iff (by decide) (show Keyed [] from List.nodup_nil) _).2 ?_ _
    (List.prefix_refl _)
  refine ⟨?_, ?_, trivial, ?_, trivial⟩
  · intro e he _ f hf hdelete
    cases he
    cases hf
    cases hdelete
  · intro e he _ f hf
    cases List.mem_singleton.1 he
    cases hf
    exact .inr ⟨rfl, fun _ => rfl⟩
  · intro e he _ f hf hdelete
    cases he
    cases hf
    cases hdelete

/-- A faction is dropped and then raised: the save deletes its row. -/
theorem raised_after_drop_is_lost :
    ¬ Reloads oneFaction ([.drop 5, .setReputation 1 9000 false false].foldl (step oneFaction)
      (load oneFaction [])) := by
  intro h
  exact absurd (h steamwheedle (List.mem_singleton.2 rfl)) (by decide)

end Sunstrider.Reputation.Session
