import Sunstrider.Combat.World
import Sunstrider.Proofs.CombatRefs

/-!
# What a call can do

A call of the public interface runs loops over maps that the loop body
changes, and crosses from combat to threat and back. This file says once what
all of that amounts to. `ThreatMove` lists the writes the threat managers
make, and each function of `ThreatManager.cpp` is shown to be a sequence of
them. `Invariant` is the rule for whole worlds: a property that five things
keep (a threat move, a new threat reference, the end of one combat, and any
change of the combat half that only adds references) is kept by every call
and so by every run.

A `Limits` restricts the calls of a run where a result needs it: which
factors a single reference may be scaled by, and when the temporary modifiers
may be updated.
-/

set_option linter.unusedSectionVars false

namespace Sunstrider.Combat

open Lib MutableHeap

variable {U : Type} [DecidableEq U] {F : Type} [ThreatAmount F]
variable {H : Type} [MutableHeap H RefId]

/-- Restrictions on the calls of a run. -/
structure Limits (U F H : Type) [ThreatAmount F] where
  factor : ThreatState U F H → RefId → F → Prop
  temp : ThreatState U F H → U → Int → Prop
  factor_nonneg : ∀ t r {x : F}, 0 ≤ x → factor t r x

/-- Every call may be made. -/
def Limits.none : Limits U F H :=
  ⟨fun _ _ _ => True, fun _ _ _ => True, fun _ _ _ _ => trivial⟩

/-- A manager write that leaves the containers alone: the two pointers may
only be moved to references the manager got from its own containers. -/
structure Bookkeeping (t : ThreatState U F H) (m m' : ThreatManager U H) : Prop where
  sorted : m'.sortedThreatList = m.sortedThreatList
  entries : m'.myThreatListEntries = m.myThreatListEntries
  threatened : m'.threatenedByMe = m.threatenedByMe
  current : ∀ r, m'.currentVictimRef = some r → m.currentVictimRef = some r ∨
    m.fixateRef = some r ∨ top m.sortedThreatList = some r ∨
    r ∈ ordered t.less m.sortedThreatList
  fixate : ∀ r, m'.fixateRef = some r → m.fixateRef = some r ∨
    ∃ v, m.myThreatListEntries.lookup v = some r

/-- The writes of the threat managers. -/
inductive ThreatMove (lim : Limits U F H) :
    ThreatState U F H → ThreatState U F H → Prop
  | addThreat {t} (r : RefId) (amount : F) : ThreatMove lim t (t.refAddThreat r amount)
  | scaleThreat {t} (r : RefId) {factor : F} : lim.factor t r factor →
      ThreatMove lim t (t.refScaleThreat r factor)
  | offline {t} (view : ThreatView U F) (r : RefId) :
      ThreatMove lim t (t.updateOffline view r)
  | taunt {t} (view : ThreatView U F) (r : RefId) (state : Int) :
      ThreatMove lim t (t.updateTauntState view r state)
  | suppressed {t} (view : ThreatView U F) (canExpire : Bool) (r : RefId) :
      ThreatMove lim t (t.evaluateSuppressedRef view canExpire r)
  | wake {t : ThreatState U F H} {r : RefId} {ref : ThreatReference U F} :
      t.refs r = some ref → ref.isSuppressed = true →
      ThreatMove lim t (t.writeNotify r ref { ref with online := .online } .increased)
  | temp {t} (a : U) {mod : Int} : lim.temp t a mod →
      ThreatMove lim t (t.updateMyTempModifiers a mod)
  | manager {t : ThreatState U F H} (a : U) {m : ThreatManager U H} :
      Bookkeeping t (t.manager a) m → ThreatMove lim t (t.setManager a m)
  | unregister {t} (r : RefId) : ThreatMove lim t (t.unregisterAndFree r)

/-- Any number of moves. -/
abbrev ThreatMoves (lim : Limits U F H) :
    ThreatState U F H → ThreatState U F H → Prop :=
  Relation.ReflTransGen (ThreatMove lim)

namespace ThreatState

variable {lim : Limits U F H}

variable {view : ThreatView U F} {t : ThreatState U F H} {r : RefId} {w : VictimWeights F} {a : U}

/-! ## The threat functions as moves -/

theorem forEach_moves {f : ThreatState U F H → RefId → ThreatState U F H}
    (hf : ∀ t r, ThreatMoves lim t (f t r)) (l : List (Sigma fun _ : U => RefId)) :
    ∀ t, ThreatMoves lim t (t.forEach f l) := by
  induction l with
  | nil => intro t; exact Relation.ReflTransGen.refl
  | cons e rest ih => intro t; exact (hf t e.2).trans (ih (f t e.2))

theorem scanOrdered_mem {owner : U} {old : RefId} {oldRef : ThreatReference U F} {w110 : F}
    {l : List RefId} (h : t.scanOrdered view owner old oldRef w110 l = some r) :
    r = old ∨ r ∈ l := by
  induction l with
  | nil => cases h
  | cons next rest ih =>
      rw [scanOrdered] at h
      split at h <;> rename_i hn
      · exact Or.inl ((Option.some.inj h).symm.trans hn)
      · split at h
        · cases h
        · split at h
          · exact Or.inl (Option.some.inj h).symm
          · split at h
            · exact Or.inr (by rw [← Option.some.inj h]; exact List.mem_cons_self)
            · exact (ih h).imp id fun hm => List.mem_cons_of_mem _ hm

/-- The victim comes out of the fixate pointer, the heap or the old pointer. -/
theorem chooseVictim_source (h : t.chooseVictim view w a = some r) :
    (t.manager a).currentVictimRef = some r ∨ (t.manager a).fixateRef = some r ∨
      top (t.manager a).sortedThreatList = some r ∨
      r ∈ ordered t.less (t.manager a).sortedThreatList := by
  rw [chooseVictim] at h
  split at h <;> rename_i hfix
  · -- the fixated target
    refine Or.inr (Or.inl ?_)
    split at hfix <;> rename_i hf
    · cases hfix
    · split at hfix
      · cases hfix
      · split at hfix
        · rw [hf, ← h, hfix]
        · cases hfix
  · split at h <;> rename_i htop
    · cases h
    rename_i highest
    have hhigh : some highest = some r → top (t.manager a).sortedThreatList = some r :=
      fun e => htop.trans e
    split at h
    · cases h
    split at h
    · cases h
    split at h <;> rename_i hcur
    · exact Or.inr (Or.inr (Or.inl (hhigh h)))
    · split at h
      · exact Or.inr (Or.inr (Or.inl (hhigh h)))
      split at h
      · exact Or.inr (Or.inr (Or.inl (hhigh h)))
      split at h
      · exact Or.inl (hcur.trans h)
      split at h
      · exact Or.inr (Or.inr (Or.inl (hhigh h)))
      split at h
      · exact Or.inr (Or.inr (Or.inl (hhigh h)))
      rcases scanOrdered_mem h with rfl | hm
      · exact Or.inl hcur
      · exact Or.inr (Or.inr (Or.inr hm))

theorem updateVictim_moves (view : ThreatView U F) (w : VictimWeights F)
    (t : ThreatState U F H) (a : U) : ThreatMoves lim t (t.updateVictim view w a) := by
  rw [updateVictim]
  split
  · refine Relation.ReflTransGen.single (.manager a ?_)
    exact ⟨rfl, rfl, rfl, fun _ h => (nomatch h), fun _ h => Or.inl h⟩
  · have hoff : ThreatMoves lim t (t.forEach (updateOffline view)
        (t.manager a).myThreatListEntries.entries) :=
      forEach_moves (fun t r => .single (.offline view r)) _ t
    exact hoff.tail (.manager a
      ⟨rfl, rfl, rfl, fun _ h => chooseVictim_source h, fun _ h => Or.inl h⟩)

theorem clearThreatRef_moves (view : ThreatView U F) (w : VictimWeights F)
    (t : ThreatState U F H) (a : U) (r : RefId) :
    ThreatMoves lim t (t.clearThreatRef view w a r) := by
  rw [clearThreatRef]
  have hfree : ThreatMoves lim t (t.unregisterAndFree r) := .single (.unregister r)
  split
  · exact hfree.trans (updateVictim_moves view w _ a)
  · exact hfree

theorem clearThreat_moves (view : ThreatView U F) (w : VictimWeights F)
    (t : ThreatState U F H) (a target : U) :
    ThreatMoves lim t (t.clearThreat view w a target) := by
  rw [clearThreat]
  split
  · exact .refl
  · exact clearThreatRef_moves view w t a _

theorem clearAllLoop_moves (a : U) (n : Nat) :
    ∀ t : ThreatState U F H, ThreatMoves lim t (clearAllLoop a n t) := by
  induction n with
  | zero => intro t; exact .refl
  | succ n ih =>
      intro t
      rw [clearAllLoop]
      split
      · exact .refl
      · exact (Relation.ReflTransGen.single (.unregister _)).trans (ih _)

theorem clearAllThreat_moves (t : ThreatState U F H) (a : U) :
    ThreatMoves lim t (t.clearAllThreat a) :=
  (Relation.ReflTransGen.single (.manager a
    ⟨rfl, rfl, rfl, fun _ h => Or.inl h, fun _ h => Or.inl h⟩)).trans
    (clearAllLoop_moves a _ _)

theorem removeMeLoop_moves (view : ThreatView U F) (w : VictimWeights F) (a : U) (n : Nat) :
    ∀ t : ThreatState U F H, ThreatMoves lim t (removeMeLoop view w a n t) := by
  induction n with
  | zero => intro t; exact .refl
  | succ n ih =>
      intro t
      rw [removeMeLoop]
      split
      · exact .refl
      split
      · exact .refl
      · exact (clearThreat_moves view w t _ a).trans (ih _)

theorem removeMeFromThreatLists_moves (view : ThreatView U F) (w : VictimWeights F)
    (t : ThreatState U F H) (a : U) :
    ThreatMoves lim t (t.removeMeFromThreatLists view w a) :=
  removeMeLoop_moves view w a _ t

theorem evaluateSuppressed_moves (view : ThreatView U F) (t : ThreatState U F H) (a : U)
    (canExpire : Bool) : ThreatMoves lim t (t.evaluateSuppressed view a canExpire) :=
  forEach_moves (fun _ r => .single (.suppressed view canExpire r)) _ t

theorem tauntUpdate_moves (view : ThreatView U F) (t : ThreatState U F H) (a : U)
    (casters : List U) : ThreatMoves lim t (t.tauntUpdate view a casters) := by
  have hloop : ∀ (states : U → Int) (l : List (Sigma fun _ : U => RefId))
      (t : ThreatState U F H),
      ThreatMoves lim t (l.foldl (fun t e => t.updateTauntState view e.2 (states e.1)) t) := by
    intro states l
    induction l with
    | nil => intro t; exact .refl
    | cons e rest ih =>
        intro t
        rw [List.foldl_cons]
        exact (Relation.ReflTransGen.single (.taunt view e.2 (states e.1))).trans (ih _)
  have hlist := hloop (fun u => ((tauntStates casters).lookup u).getD tauntStateNone)
    (t.manager a).myThreatListEntries.entries t
  exact hlist.trans (evaluateSuppressed_moves view _ a true)

theorem scaleThreat_moves (t : ThreatState U F H) (a target : U) (factor : F) :
    ThreatMoves lim t (t.scaleThreat a target factor) := by
  rw [scaleThreat]
  split
  · exact .refl
  · exact .single (.scaleThreat _ (lim.factor_nonneg t _ (le_max_right _ _)))

theorem resetAllThreat_moves (t : ThreatState U F H) (a : U) :
    ThreatMoves lim t (t.resetAllThreat a) :=
  forEach_moves (fun t r => .single (.scaleThreat r (lim.factor_nonneg t r (le_refl 0)))) _ t

theorem fixateTarget_moves (t : ThreatState U F H) (a : U) (target : Option U) :
    ThreatMoves lim t (t.fixateTarget a target) := by
  refine .single (.manager a ⟨rfl, rfl, rfl, fun _ h => Or.inl h, fun r h => ?_⟩)
  obtain ⟨v, -, hv⟩ := Option.bind_eq_some_iff.1 h
  exact Or.inr ⟨v, hv⟩

/-- Adding threat to a reference that exists. -/
theorem applyThreat_known_moves {target : U} {amount : F}
    (h : (t.manager a).myThreatListEntries.lookup target = some r) :
    ThreatMoves lim t (t.applyThreat view w a target amount) := by
  rw [applyThreat, h]
  simp only []
  split <;> rename_i href
  · exact .refl
  rename_i ref
  generalize hwoken : (if ref.isSuppressed &&
      !shouldBeSuppressed view ref.owner ref.victim ref.isTaunting then
    t.writeNotify r ref { ref with online := .online } .increased else t) = woken
  have hmoves : ThreatMoves lim t woken := by
    subst hwoken
    split <;> rename_i hwake
    · rw [Bool.and_eq_true] at hwake
      exact .single (.wake href hwake.1)
    · exact .refl
  split
  · exact hmoves
  split
  · exact hmoves.tail (.addThreat r amount)
  · exact hmoves

/-- Adding threat to a reference that has to be made first. -/
theorem applyThreat_new_moves {target : U} {amount : F}
    (h : (t.manager a).myThreatListEntries.lookup target = none) :
    ThreatMoves lim (t.createThreatRef view a target)
      (t.applyThreat view w a target amount) := by
  rw [applyThreat, h]
  simp only []
  generalize t.createThreatRef view a target = made
  have hoff : ThreatMoves lim made (made.updateOffline view t.nextRef) :=
    .single (.offline view _)
  generalize made.updateOffline view t.nextRef = seen at hoff ⊢
  have hengage : ∀ added : ThreatState U F H, ThreatMoves lim made added →
      ThreatMoves lim made (if (added.manager a).ownerEngaged then added else
        (added.setManager a { added.manager a with ownerEngaged := true }).updateVictim
          view w a) := by
    intro added hadd
    split
    · exact hadd
    · refine (hadd.tail (.manager a ?_)).trans (updateVictim_moves view w _ a)
      exact ⟨rfl, rfl, rfl, fun _ h => Or.inl h, fun _ h => Or.inl h⟩
  refine hengage _ ?_
  split
  · exact hoff
  split
  · exact hoff.tail (.addThreat _ amount)
  · exact hoff

end ThreatState

/-! ## The rule -/

/-- A property of worlds that every call keeps. -/
structure Invariant (lim : Limits U F H) (P : World U F H → Prop) : Prop where
  consistent : ∀ {s}, P s → s.combat.Consistent
  combat : ∀ {s : World U F H} {c : CombatState U}, P s → c.Consistent →
    (∀ k a b, (s.combat.find k a b).isSome → (c.find k a b).isSome) →
    P { s with combat := c }
  endCombat : ∀ {s} (env : Env U F) (r : RefId), P s → P (s.endCombat env r)
  threat : ∀ {s : World U F H} {t : ThreatState U F H}, P s →
    ThreatMove lim s.threat t → P { s with threat := t }
  create : ∀ {s : World U F H} (view : ThreatView U F) {a target : U}, P s →
    s.isInCombatWith a target = true →
    (s.threat.manager a).myThreatListEntries.lookup target = none →
    P (s.mapThreat fun t => t.createThreatRef view a target)

/-- What a restricted run may call in a given state. -/
def Op.Ok (lim : Limits U F H) (hundredth : F) (s : World U F H) : Op U F → Prop
  | .refScaleThreat a victim factor =>
      ∀ r, (s.threat.manager a).myThreatListEntries.lookup victim = some r →
        lim.factor s.threat r factor
  | .refModifyThreatByPercent a victim percent =>
      percent ≠ 0 → ∀ r, (s.threat.manager a).myThreatListEntries.lookup victim = some r →
        lim.factor s.threat r (percentFactor hundredth percent)
  | .updateMyTempModifiers a mod => lim.temp s.threat a mod
  | _ => True

namespace World

variable {s : World U F H} {a : U} {k : Bool}

/-- Every call of the run is allowed in the state it is made in. -/
def RunOk (lim : Limits U F H) (hundredth : F) :
    World U F H → List (Env U F × Op U F) → Prop
  | _, [] => True
  | s, c :: rest =>
      c.2.Ok lim hundredth s ∧ RunOk lim hundredth (s.step hundredth c.1 c.2) rest

theorem runOk_none (hundredth : F) (calls : List (Env U F × Op U F)) :
    ∀ s : World U F H, RunOk Limits.none hundredth s calls := by
  induction calls with
  | nil => intro s; trivial
  | cons c rest ih =>
      intro s
      refine ⟨?_, ih _⟩
      cases c.2 <;> first | exact trivial | exact fun _ _ => trivial | exact fun _ _ _ => trivial

/-- What the loops over a copy of a map know about the entries they have not
come to yet: if such a reference is still live, it is the one the entry says. -/
def Pending (s : CombatState U) (a : U) (k : Bool)
    (l : List (Sigma fun _ : U => RefId)) : Prop :=
  ∀ e ∈ l, ∀ ref, s.refs e.2 = some ref → ref.isPvP = k ∧ ref.Joins a e.1

theorem pending_entries {s : CombatState U} (hl : s.Linked) (a : U) (k : Bool) :
    Pending s a k ((s.manager a).refs k).entries := by
  intro e he ref hr
  obtain ⟨ref', hr', hrest⟩ := hl.held ((s.mem_entries_iff k a e.1 e.2).1 he)
  obtain rfl : ref = ref' := Option.some.inj (hr.symm.trans hr')
  exact hrest

theorem Pending.endCombat {s : CombatState U} {l : List (Sigma fun _ : U => RefId)}
    (h : Pending s a k l) (r : RefId) : Pending (s.endCombat r) a k l :=
  fun e he ref hr => h e he ref (CombatState.refs_endCombat hr)

theorem Pending.setRef {s : CombatState U} {l : List (Sigma fun _ : U => RefId)}
    (h : Pending s a k l) {r : RefId} {ref ref' : CombatReference U} (hr : s.refs r = some ref)
    (h1 : ref'.first = ref.first) (h2 : ref'.second = ref.second) (hk : ref'.isPvP = ref.isPvP) :
    Pending (s.setRef r ref') a k l := by
  intro e he ref₀ hr₀
  rw [CombatState.refs_setRef] at hr₀
  split at hr₀ <;> rename_i heq
  · obtain rfl := Option.some.inj hr₀
    rw [hk, CombatReference.Joins, h1, h2]
    exact h e he ref (heq ▸ hr)
  · exact h e he ref₀ hr₀

theorem endCombat_combat (env : Env U F) (s : World U F H) (r : RefId) :
    (s.endCombat env r).combat = s.combat.endCombat r := by
  rw [endCombat]
  split <;> rename_i hr
  · rw [CombatState.endCombat, hr]
  · rfl

/-- The loops erase the owner's entry themselves before they end the combat. -/
theorem purge_endCombat (hl : s.combat.Linked) (env : Env U F) {r : RefId}
    {ref : CombatReference U} (hr : s.combat.refs r = some ref) {guid : U} (hk : ref.isPvP = k)
    (hj : ref.Joins a guid) :
    (s.mapCombat fun c => c.purgeReference a guid k).endCombat env r =
      s.endCombat env r := by
  subst hk
  have hcombat := CombatState.endCombat_purgeReference hl hr hj
  rw [endCombat, endCombat]
  simp only [mapCombat, mapThreat, CombatState.refs_purgeReference, hr, hcombat]

variable {lim : Limits U F H} {P : World U F H → Prop}

theorem combat_eq_invariant (hP : Invariant lim P) (h : P s) {c : CombatState U}
    (hc : c.Consistent) (hfind : ∀ k a b, c.find k a b = s.combat.find k a b) :
    P { s with combat := c } :=
  hP.combat h hc fun k a b hsome => by rw [hfind]; exact hsome

theorem setInCombatWith_invariant (hP : Invariant lim P) (h : P s) (env : Env U F) (a who : U) :
    P (s.setInCombatWith env a who) :=
  hP.combat h (CombatState.setInCombatWith_consistent (hP.consistent h) _ a who)
    fun _ _ _ hsome => CombatState.find_setInCombatWith_isSome hsome

theorem threatMoves_invariant (hP : Invariant lim P) (h : P s) {t : ThreatState U F H}
    (ht : ThreatMoves lim s.threat t) : P { s with threat := t } := by
  induction ht with
  | refl => exact h
  | @tail t₁ t₂ _ hmove ih =>
      have hnext := hP.threat (t := t₂) ih
      exact hnext hmove

theorem updateLoop_invariant (hP : Invariant lim P) (env : Env U F) (a : U) (tdiff : Nat)
    (l : List (Sigma fun _ : U => RefId)) :
    ∀ {s : World U F H}, P s → Pending s.combat a true l → P (updateLoop env a tdiff l s) := by
  induction l with
  | nil => intro s h _; exact h
  | cons e rest ih =>
      intro s h hpend
      have hcons := hP.consistent h
      have hrest : Pending s.combat a true rest := fun e' he' => hpend e' (by simp [he'])
      rw [updateLoop]
      cases hr : s.combat.refs e.2 with
      | none => exact ih h hrest
      | some ref =>
          obtain ⟨hk, hj⟩ := hpend e (by simp) ref hr
          cases hp : ref.pvp with
          | none => rw [CombatReference.isPvP, hp] at hk; cases hk
          | some p =>
              simp only [CombatReference.update, hp]
              split
              · split <;> rename_i hupd
                · split at hupd
                  · cases hupd
                  · obtain rfl := Option.some.inj hupd
                    refine ih (combat_eq_invariant hP h
                      (CombatState.setRef_timer_consistent hcons hr hp _)
                      fun _ _ _ => rfl) (hrest.setRef hr rfl rfl ?_)
                    rw [CombatReference.isPvP, CombatReference.isPvP, hp]; rfl
                · rw [purge_endCombat hcons.linked env hr hk hj]
                  refine ih (hP.endCombat env _ h) ?_
                  rw [endCombat_combat]
                  exact hrest.endCombat _
              · exact ih h hrest

theorem beyondRangeLoop_invariant (hP : Invariant lim P) (env : Env U F) (a : U) (k : Bool)
    (l : List (Sigma fun _ : U => RefId)) :
    ∀ {s : World U F H}, P s → Pending s.combat a k l → P (beyondRangeLoop env a k l s) := by
  induction l with
  | nil => intro s h _; exact h
  | cons e rest ih =>
      intro s h hpend
      have hrest : Pending s.combat a k rest := fun e' he' => hpend e' (by simp [he'])
      rw [beyondRangeLoop]
      cases hr : s.combat.refs e.2 with
      | none => exact ih h hrest
      | some ref =>
          obtain ⟨hk, hj⟩ := hpend e (by simp) ref hr
          simp only []
          split
          · rw [purge_endCombat (hP.consistent h).linked env hr hk hj]
            refine ih (hP.endCombat env _ h) ?_
            rw [endCombat_combat]
            exact hrest.endCombat _
          · exact ih h hrest

theorem endAllLoop_invariant (hP : Invariant lim P) (env : Env U F) (a : U) (k : Bool)
    (n : Nat) : ∀ {s : World U F H}, P s → P (endAllLoop env a k n s) := by
  induction n with
  | zero => intro s h; exact h
  | succ n ih =>
      intro s h
      rw [endAllLoop]
      split
      · exact h
      · exact ih (hP.endCombat env _ h)

theorem inheritLoop_invariant (hP : Invariant lim P) (env : Env U F) (a who : U)
    (l : List (Sigma fun _ : U => RefId)) :
    ∀ {s : World U F H}, P s → P (inheritLoop env a who l s) := by
  induction l with
  | nil => intro s h; exact h
  | cons e rest ih =>
      intro s h
      rw [inheritLoop]
      split
      · exact ih h
      split
      · exact ih h
      simp only []
      split
      · exact ih h
      · exact ih (setInCombatWith_invariant hP h env a _)

theorem redirectCombat_invariant (hP : Invariant lim P) (env : Env U F) (a : U)
    (l : List (U × Nat)) :
    ∀ {s : World U F H}, P s → P (redirectCombat env a l s) := by
  induction l with
  | nil => intro s h; exact h
  | cons e rest ih =>
      intro s h
      rw [redirectCombat]
      split
      · exact ih (setInCombatWith_invariant hP h env a _)
      · exact ih h

theorem addThreatNoList_invariant (hP : Invariant lim P) (h : P s) (env : Env U F) (a target : U) :
    P (s.addThreatNoList env a target) := by
  rw [addThreatNoList]
  have h' := setInCombatWith_invariant hP h env a target
  split
  · exact redirectCombat_invariant hP env a _ h'
  · exact h'

theorem addThreatInCombat_invariant (hP : Invariant lim P) (h : P s) (env : Env U F)
    (a target : U) (amount : F) : P (s.addThreatInCombat env a target amount) := by
  rw [addThreatInCombat]
  have h' := setInCombatWith_invariant hP h env a target
  generalize s.setInCombatWith env a target = s' at h' ⊢
  split <;> rename_i hcombat
  · cases he : (s'.threat.manager a).myThreatListEntries.lookup target with
    | some r => exact threatMoves_invariant hP h' (ThreatState.applyThreat_known_moves he)
    | none =>
        exact threatMoves_invariant hP (hP.create env.view h' hcombat he)
          (ThreatState.applyThreat_new_moves he)
  · exact h'

theorem redirectLoop_invariant (hP : Invariant lim P) (env : Env U F) (a : U)
    (origAmount : F) (spell : Option SpellThreatInfo) (l : List (U × Nat)) :
    ∀ {s : World U F H} (amount : F), P s →
      P (redirectLoop env a origAmount spell l s amount).1 := by
  induction l with
  | nil => intro s amount h; exact h
  | cons e rest ih =>
      intro s amount h
      rw [redirectLoop]
      split
      · refine ih _ ?_
        rw [addThreatRedirected]
        split
        · exact h
        split
        · exact addThreatNoList_invariant hP h env a _
        · exact addThreatInCombat_invariant hP h env a _ _
      · exact ih _ h

theorem addThreat_invariant (hP : Invariant lim P) (h : P s) (env : Env U F) (a target : U)
    (amount : F) (spell : Option SpellThreatInfo) (im ir : Bool) :
    P (s.addThreat env a target amount spell im ir) := by
  rw [addThreat]
  split
  · exact h
  split
  · exact addThreatNoList_invariant hP h env a target
  refine addThreatInCombat_invariant hP ?_ env a target _
  generalize (if im then amount else env.view.calculateModifiedThreat amount target) = orig
  split
  · exact redirectLoop_invariant hP env a _ spell _ _ h
  · exact h

theorem onThreatRef_invariant (hP : Invariant lim P) (h : P s) (a victim : U)
    {f : ThreatState U F H → RefId → ThreatState U F H}
    (hf : ∀ r, (s.threat.manager a).myThreatListEntries.lookup victim = some r →
      ThreatMove lim s.threat (f s.threat r)) :
    P (s.onThreatRef a victim f) := by
  rw [onThreatRef]
  split <;> rename_i he
  · exact h
  · exact hP.threat h (hf _ he)

theorem onCombatRef_invariant (h : P s) (k : Bool) (a b : U)
    {f : World U F H → RefId → World U F H} (hf : ∀ r, s.combat.find k a b = some r → P (f s r)) :
    P (s.onCombatRef k a b f) := by
  rw [onCombatRef]
  split <;> rename_i hfind
  · exact h
  · exact hf _ hfind

/-- One call. -/
theorem step_invariant (hP : Invariant lim P) (hundredth : F) (h : P s) (env : Env U F)
    (op : Op U F) (hok : op.Ok lim hundredth s) : P (s.step hundredth env op) := by
  have hcons := hP.consistent h
  have hthreat : ∀ {t : ThreatState U F H}, ThreatMoves lim s.threat t →
      P { s with threat := t } := fun hmoves => threatMoves_invariant hP h hmoves
  cases op with
  | setInCombatWith a who => exact setInCombatWith_invariant hP h env a who
  | endCombat k a b =>
      exact onCombatRef_invariant h k a b fun r _ => hP.endCombat env r h
  | refresh a b =>
      rw [step]
      refine onCombatRef_invariant h true a b fun r _ => ?_
      exact combat_eq_invariant hP h (CombatState.refresh_consistent hcons r)
        (CombatState.find_refresh _ r)
  | suppressFor a b who =>
      rw [step]
      refine onCombatRef_invariant h true a b fun r hfind => ?_
      split <;> rename_i hwho
      · refine combat_eq_invariant hP h ?_ (CombatState.find_suppressFor _ r who)
        refine CombatState.suppressFor_consistent hcons fun ref hr => ?_
        obtain ⟨ref', hr', -, hj⟩ := hcons.linked.held hfind
        obtain rfl : ref = ref' := Option.some.inj (hr.symm.trans hr')
        rcases hwho with rfl | rfl
        · exact hj.left
        · exact hj.symm.left
      · exact h
  | combatUpdate a tdiff =>
      exact updateLoop_invariant hP env a tdiff _ h (pending_entries hcons.linked a true)
  | suppressPvPCombat a =>
      exact combat_eq_invariant hP h (CombatState.suppressPvPCombat_consistent hcons a)
        (CombatState.find_suppressPvPCombat _ a)
  | endCombatBeyondRange a includingPvP =>
      have hpve := beyondRangeLoop_invariant hP env a false _ h
        (pending_entries hcons.linked a false)
      rw [step, endCombatBeyondRange]
      split
      · exact hpve
      · exact beyondRangeLoop_invariant hP env a true _ hpve
          (pending_entries (hP.consistent hpve).linked a true)
  | endAllPvECombat a =>
      refine endAllLoop_invariant hP env a false _ ?_
      exact threatMoves_invariant hP
        (hthreat (ThreatState.removeMeFromThreatLists_moves env.view env.weights s.threat a))
        (ThreatState.clearAllThreat_moves _ a)
  | endAllPvPCombat a => exact endAllLoop_invariant hP env a true _ h
  | inheritCombatStatesFrom a who =>
      exact inheritLoop_invariant hP env a who _ (inheritLoop_invariant hP env a who _ h)
  | addThreat a target amount spell im ir =>
      exact addThreat_invariant hP h env a target amount spell im ir
  | scaleThreat a target factor =>
      exact hthreat (ThreatState.scaleThreat_moves s.threat a target factor)
  | resetAllThreat a => exact hthreat (ThreatState.resetAllThreat_moves s.threat a)
  | clearThreat a target =>
      exact hthreat (ThreatState.clearThreat_moves env.view env.weights s.threat a target)
  | clearAllThreat a => exact hthreat (ThreatState.clearAllThreat_moves s.threat a)
  | removeMeFromThreatLists a =>
      exact hthreat (ThreatState.removeMeFromThreatLists_moves env.view env.weights s.threat a)
  | unregisterAndFree a victim =>
      exact onThreatRef_invariant hP h a victim fun r _ => .unregister r
  | fixateTarget a target =>
      exact hthreat (ThreatState.fixateTarget_moves s.threat a target)
  | updateVictim a =>
      exact hthreat (ThreatState.updateVictim_moves env.view env.weights s.threat a)
  | refAddThreat a victim amount =>
      exact onThreatRef_invariant hP h a victim fun r _ => .addThreat r amount
  | refScaleThreat a victim factor =>
      exact onThreatRef_invariant hP h a victim fun r he => .scaleThreat r (hok r he)
  | refModifyThreatByPercent a victim percent =>
      rw [step]
      split <;> rename_i hp
      · exact h
      · exact onThreatRef_invariant hP h a victim fun r he => .scaleThreat r (hok hp r he)
  | updateOffline a victim =>
      exact onThreatRef_invariant hP h a victim fun r _ => .offline env.view r
  | tauntUpdate a casters =>
      exact hthreat (ThreatState.tauntUpdate_moves env.view s.threat a casters)
  | evaluateSuppressed a canExpire =>
      exact hthreat (ThreatState.evaluateSuppressed_moves env.view s.threat a canExpire)
  | updateMyTempModifiers a mod => exact hthreat (.single (.temp a hok))
  | setRedirectInfo a info =>
      refine hthreat (.single (.manager a ?_))
      exact ⟨rfl, rfl, rfl, fun _ h => Or.inl h, fun _ h => Or.inl h⟩

/-- A whole run. -/
theorem run_invariant (hP : Invariant lim P) (hundredth : F)
    (calls : List (Env U F × Op U F)) :
    ∀ {s : World U F H}, P s → RunOk lim hundredth s calls → P (s.run hundredth calls) := by
  induction calls with
  | nil => intro s h _; exact h
  | cons c rest ih =>
      intro s h hok
      exact ih (step_invariant hP hundredth h c.1 c.2 hok.1) hok.2

/-! ## Combat references -/

theorem consistent_invariant :
    Invariant Limits.none fun s : World U F H => s.combat.Consistent where
  consistent h := h
  combat _ h _ := h
  endCombat env r h := by
    rw [endCombat_combat]
    exact CombatState.endCombat_consistent h r
  threat h _ := h
  create := by intro s view a target h _ _; exact h

/-- After any run of calls, in any order and over any units: combat is
mutual, never of both kinds, and the flag is on exactly when some reference
is not suppressed. -/
theorem run_combat_refs (hundredth : F) (canHaveThreatList : U → Bool)
    (calls : List (Env U F × Op U F)) :
    let c := (run hundredth (init canHaveThreatList : World U F H) calls).combat
    (∀ a b k r, c.find k a b = some r ↔ c.find k b a = some r) ∧
    (∀ a b, ¬((c.find false a b).isSome ∧ (c.find true a b).isSome)) ∧
    (∀ a, c.inCombat a = true ↔ ∃ k b r ref, c.find k a b = some r ∧
      c.refs r = some ref ∧ ref.isSuppressedFor a = false) := by
  intro c
  have h : c.Consistent :=
    run_invariant consistent_invariant hundredth calls CombatState.init_consistent
      (runOk_none hundredth calls _)
  refine ⟨fun a b k r => ⟨h.linked.find_symm, h.linked.find_symm⟩, ?_, fun a => ?_⟩
  · rintro a b ⟨hpve, hpvp⟩
    rw [h.linked.exclusive hpve] at hpvp
    cases hpvp
  · rw [h.flag a]
    exact CombatState.hasCombat_iff h.linked.held a

end World

end Sunstrider.Combat
