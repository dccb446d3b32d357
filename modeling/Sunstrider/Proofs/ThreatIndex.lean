import Sunstrider.Proofs.Calls

/-!
# Threat references are where they should be

One `ThreatReference` is named in five places: the owner's heap, the owner's
map, the victim's map and, some of the time, the owner's current victim and
fixate pointers. `Indexed` says that the first three agree and that none of
the five dangles.

Of all the moves of the threat managers only two touch the containers:
making a reference (`createThreatRef`) and freeing one (`unregisterAndFree`).
Everything else is a `SameIndex` step. `Supported` ties threat to combat,
and is the reason `EndCombat` clears threat in both directions first.
-/

set_option linter.unusedSectionVars false

namespace Sunstrider.Combat

open Lib MutableHeap

variable {U : Type} [DecidableEq U] {F : Type} [ThreatAmount F]
variable {H : Type} [MutableHeap H RefId]

namespace ThreatState

variable {t t' : ThreatState U F H} {o v a : U} {r : RefId} {m : ThreatManager U H}
  {old new : ThreatReference U F} {view : ThreatView U F} {w : VictimWeights F}

/-- The reference on `o`'s threat list for `v`. -/
def entry (t : ThreatState U F H) (o v : U) : Option RefId :=
  (t.manager o).myThreatListEntries.lookup v

/-- The reference through which `v` is threatened by `o`. -/
def threatened (t : ThreatState U F H) (v o : U) : Option RefId :=
  (t.manager v).threatenedByMe.lookup o

/-- The references in `o`'s heap. -/
def sorted (t : ThreatState U F H) (o : U) : List RefId :=
  elems (t.manager o).sortedThreatList

/-- Owner and victim of a live reference. -/
def sides (t : ThreatState U F H) (r : RefId) : Option (U × U) :=
  (t.refs r).map fun ref => (ref.owner, ref.victim)

/-! ## The invariant -/

structure Indexed (t : ThreatState U F H) : Prop where
  heap : ∀ {o r}, r ∈ t.sorted o ↔ ∃ v, t.entry o v = some r
  both : ∀ {o v r}, t.entry o v = some r ↔ t.threatened v o = some r
  held : ∀ {o v r}, t.entry o v = some r → t.sides r = some (o, v)
  live : ∀ {o v r}, t.sides r = some (o, v) → t.entry o v = some r
  current : ∀ {o r}, (t.manager o).currentVictimRef = some r → ∃ v, t.entry o v = some r
  fixate : ∀ {o r}, (t.manager o).fixateRef = some r → ∃ v, t.entry o v = some r
  fresh : ∀ {r}, t.nextRef ≤ r → t.refs r = none

/-- A reference sits on one list, under one key. -/
theorem Indexed.entry_inj (h : t.Indexed) {o' v' : U} (h1 : t.entry o v = some r)
    (h2 : t.entry o' v' = some r) : o = o' ∧ v = v' := by
  have := (h.held h1).symm.trans (h.held h2)
  simpa using this

theorem init_indexed [LawfulMutableHeap H] (canHaveThreatList : U → Bool) :
    (init canHaveThreatList : ThreatState U F H).Indexed where
  heap := by
    intro o r
    rw [sorted, init, LawfulMutableHeap.elems_empty]
    constructor
    · intro h
      cases h
    · rintro ⟨v, h⟩
      cases h
  both := by
    intro o v r
    exact ⟨fun h => (nomatch h), fun h => (nomatch h)⟩
  held h := by cases h
  live h := by cases h
  current h := by cases h
  fixate h := by cases h
  fresh _ := rfl

/-! ## Moves that leave the containers alone -/

structure SameIndex (t t' : ThreatState U F H) : Prop where
  entries : ∀ o, (t'.manager o).myThreatListEntries = (t.manager o).myThreatListEntries
  threatenedBy : ∀ v, (t'.manager v).threatenedByMe = (t.manager v).threatenedByMe
  sorted : ∀ o r, r ∈ t'.sorted o ↔ r ∈ t.sorted o
  current : ∀ o, (t'.manager o).currentVictimRef = (t.manager o).currentVictimRef
  fixate : ∀ o, (t'.manager o).fixateRef = (t.manager o).fixateRef
  sides : ∀ r, t'.sides r = t.sides r
  nextRef : t'.nextRef = t.nextRef

theorem SameIndex.refl (t : ThreatState U F H) : SameIndex t t :=
  ⟨fun _ => rfl, fun _ => rfl, fun _ _ => Iff.rfl, fun _ => rfl, fun _ => rfl,
    fun _ => rfl, rfl⟩

theorem SameIndex.trans {t'' : ThreatState U F H} (h : SameIndex t t') (h' : SameIndex t' t'') :
    SameIndex t t'' where
  entries o := (h'.entries o).trans (h.entries o)
  threatenedBy v := (h'.threatenedBy v).trans (h.threatenedBy v)
  sorted o r := (h'.sorted o r).trans (h.sorted o r)
  current o := (h'.current o).trans (h.current o)
  fixate o := (h'.fixate o).trans (h.fixate o)
  sides r := (h'.sides r).trans (h.sides r)
  nextRef := h'.nextRef.trans h.nextRef

theorem SameIndex.entry (h : SameIndex t t') (o v : U) : t'.entry o v = t.entry o v := by
  rw [ThreatState.entry, h.entries]; rfl

theorem SameIndex.threatened (h : SameIndex t t') (v o : U) :
    t'.threatened v o = t.threatened v o := by
  rw [ThreatState.threatened, h.threatenedBy]; rfl

theorem refs_eq_none_iff (t : ThreatState U F H) (r : RefId) :
    t.refs r = none ↔ t.sides r = none := by
  rw [sides, Option.map_eq_none_iff]

theorem Indexed.of_sameIndex (h : t.Indexed) (hs : SameIndex t t') : t'.Indexed where
  heap := by
    intro o r
    rw [hs.sorted, h.heap]
    simp only [hs.entry]
  both := by
    intro o v r
    rw [hs.entry, hs.threatened]
    exact h.both
  held := by
    intro o v r
    rw [hs.entry, hs.sides]
    exact h.held
  live := by
    intro o v r
    rw [hs.entry, hs.sides]
    exact h.live
  current := by
    intro o r
    rw [hs.current]
    simp only [hs.entry]
    exact h.current
  fixate := by
    intro o r
    rw [hs.fixate]
    simp only [hs.entry]
    exact h.fixate
  fresh := by
    intro r hle
    rw [refs_eq_none_iff, hs.sides, ← refs_eq_none_iff]
    exact h.fresh (hs.nextRef ▸ hle)

/-- A manager write that keeps maps and pointers, and the heap's members. -/
theorem setManager_sameIndex (he : m.myThreatListEntries = (t.manager a).myThreatListEntries)
    (ht : m.threatenedByMe = (t.manager a).threatenedByMe)
    (hs : ∀ r, r ∈ elems m.sortedThreatList ↔ r ∈ t.sorted a)
    (hc : m.currentVictimRef = (t.manager a).currentVictimRef)
    (hf : m.fixateRef = (t.manager a).fixateRef) : SameIndex t (t.setManager a m) := by
  have hmgr : ∀ c, (t.setManager a m).manager c = if c = a then m else t.manager c :=
    fun c => Function.update_apply _ _ _ _
  constructor
  case entries => intro o; rw [hmgr]; split <;> simp_all
  case threatenedBy => intro o; rw [hmgr]; split <;> simp_all
  case sorted => intro o r; rw [sorted, hmgr]; split <;> simp_all [sorted]
  case current => intro o; rw [hmgr]; split <;> simp_all
  case fixate => intro o; rw [hmgr]; split <;> simp_all
  case sides => intro r; rfl
  case nextRef => rfl

variable [LawfulMutableHeap H]

theorem writeRef_sameIndex (hr : t.refs r = some old) (ho : new.owner = old.owner)
    (hv : new.victim = old.victim) : SameIndex t (t.writeRef r old new) := by
  refine { SameIndex.refl t with sides := fun r' => ?_ }
  rw [sides, writeRef]
  simp only [Function.update_apply]
  split <;> rename_i hrr
  · rw [hrr, sides, hr, Option.map_some, Option.map_some, ho, hv]
  · rfl

theorem heapNotify_sameIndex (t : ThreatState U F H) (owner : U) (r : RefId)
    (dir : Direction) : SameIndex t (t.heapNotify owner r dir) := by
  have hheap : ∀ heap : H, (∀ r', r' ∈ elems heap ↔ r' ∈ t.sorted owner) →
      SameIndex t (t.setManager owner { t.manager owner with sortedThreatList := heap }) :=
    fun heap hmem => setManager_sameIndex rfl rfl hmem rfl rfl
  cases dir with
  | increased =>
      have h := hheap (increase t.less (t.manager owner).sortedThreatList r)
        fun r' => LawfulMutableHeap.mem_increase
      exact ⟨h.entries, h.threatenedBy, h.sorted, h.current, h.fixate, h.sides, h.nextRef⟩
  | decreased =>
      have h := hheap (decrease t.less (t.manager owner).sortedThreatList r)
        fun r' => LawfulMutableHeap.mem_decrease
      exact ⟨h.entries, h.threatenedBy, h.sorted, h.current, h.fixate, h.sides, h.nextRef⟩

theorem writeNotify_sameIndex (hr : t.refs r = some old) (ho : new.owner = old.owner)
    (hv : new.victim = old.victim) (dir : Direction) : SameIndex t (t.writeNotify r old new dir) :=
  (writeRef_sameIndex hr ho hv).trans (heapNotify_sameIndex _ _ _ _)

theorem setNeedClientUpdate_sameIndex (t : ThreatState U F H) (a : U) :
    SameIndex t (t.setNeedClientUpdate a) :=
  setManager_sameIndex rfl rfl (fun _ => Iff.rfl) rfl rfl

theorem writeNotify_client_sameIndex (hr : t.refs r = some old) (ho : new.owner = old.owner)
    (hv : new.victim = old.victim) (dir : Direction) (a : U) :
    SameIndex t ((t.writeNotify r old new dir).setNeedClientUpdate a) :=
  (writeNotify_sameIndex hr ho hv dir).trans (setNeedClientUpdate_sameIndex _ a)

theorem tempModifierRef_sameIndex (mod : Int) (dir : Direction) (t : ThreatState U F H)
    (r : RefId) : SameIndex t (t.tempModifierRef mod dir r) := by
  rw [tempModifierRef]
  split <;> rename_i hr
  · exact .refl t
  · exact writeNotify_sameIndex hr (by rfl) (by rfl) dir

theorem updateOffline_sameIndex (view : ThreatView U F) (t : ThreatState U F H)
    (r : RefId) : SameIndex t (t.updateOffline view r) := by
  rw [updateOffline]
  split <;> rename_i hr
  · exact .refl t
  simp only []
  split
  · exact .refl t
  split
  · exact writeNotify_sameIndex hr (by rfl) (by rfl) _
  · exact writeNotify_sameIndex hr (by rfl) (by rfl) _

theorem forEach_sameIndex {f : ThreatState U F H → RefId → ThreatState U F H}
    (hf : ∀ t r, SameIndex t (f t r)) (l : List (Sigma fun _ : U => RefId)) :
    ∀ t, SameIndex t (t.forEach f l) := by
  induction l with
  | nil => intro t; exact .refl t
  | cons e rest ih => intro t; exact (hf t e.2).trans (ih (f t e.2))

variable {lim : Limits U F H}

/-- What a move can do to the containers. -/
theorem threatMove_cases (h : ThreatMove lim t t') :
    SameIndex t t' ∨
    (∃ a m, Bookkeeping t (t.manager a) m ∧ t' = t.setManager a m) ∨
    ∃ r, t' = t.unregisterAndFree r := by
  cases h with
  | addThreat r amount =>
      refine Or.inl ?_
      rw [refAddThreat]
      split <;> rename_i hr
      · exact .refl t
      split
      · exact .refl t
      · exact writeNotify_client_sameIndex hr (by rfl) (by rfl) _ _
  | scaleThreat r _ =>
      refine Or.inl ?_
      rw [refScaleThreat]
      split <;> rename_i hr
      · exact .refl t
      split
      · exact .refl t
      · exact writeNotify_client_sameIndex hr (by rfl) (by rfl) _ _
  | offline view r => exact Or.inl (updateOffline_sameIndex view t r)
  | taunt view r state =>
      refine Or.inl ?_
      rw [updateTauntState]
      split
      · exact .refl t
      rename_i ref hr
      simp only []
      generalize (if state < tauntStateTaunt ∧ view.hasDetauntFrom ref.victim ref.owner = true
        then tauntStateDetaunt else state) = state'
      split
      · exact .refl t
      · exact writeNotify_client_sameIndex hr (by rfl) (by rfl) _ _
  | suppressed view canExpire r =>
      refine Or.inl ?_
      rw [evaluateSuppressedRef]
      split <;> rename_i hr
      · exact .refl t
      simp only []
      split
      · exact writeNotify_sameIndex hr (by rfl) (by rfl) _
      split
      · exact writeNotify_sameIndex hr (by rfl) (by rfl) _
      · exact .refl t
  | wake hr _ => exact Or.inl (writeNotify_sameIndex hr (by rfl) (by rfl) _)
  | temp a _ => exact Or.inl (forEach_sameIndex (tempModifierRef_sameIndex _ _) _ t)
  | manager a hm => exact Or.inr (Or.inl ⟨a, _, hm, rfl⟩)
  | unregister r => exact Or.inr (Or.inr ⟨r, rfl⟩)

/-! ## Freeing a reference -/

theorem manager_setManager (t : ThreatState U F H) (a c : U) (m : ThreatManager U H) :
    (t.setManager a m).manager c = if c = a then m else t.manager c :=
  Function.update_apply _ _ _ _

/-- What `unregisterAndFree` does to the containers. -/
structure Unregistered (t t' : ThreatState U F H) (r : RefId) (o v : U) : Prop where
  entry : ∀ o' v', t'.entry o' v' = if o' = o ∧ v' = v then none else t.entry o' v'
  threatened : ∀ v' o', t'.threatened v' o' =
    if o' = o ∧ v' = v then none else t.threatened v' o'
  sorted : ∀ o' r', r' ∈ t'.sorted o' ↔ r' ∈ t.sorted o' ∧ ¬(o' = o ∧ r' = r)
  current : ∀ o' r', (t'.manager o').currentVictimRef = some r' →
    (t.manager o').currentVictimRef = some r' ∧ ¬(o' = o ∧ r' = r)
  fixate : ∀ o' r', (t'.manager o').fixateRef = some r' →
    (t.manager o').fixateRef = some r' ∧ ¬(o' = o ∧ r' = r)
  sides : ∀ r', t'.sides r' = if r' = r then none else t.sides r'
  nextRef : t'.nextRef = t.nextRef

theorem purgeThreatListRef_eq (h : t.entry o v = some r) : t.purgeThreatListRef o v =
      let m := t.manager o
      t.setManager o
        { m with
          myThreatListEntries := m.myThreatListEntries.erase v
          sortedThreatList := erase t.less m.sortedThreatList r
          fixateRef := if m.fixateRef = some r then none else m.fixateRef
          currentVictimRef :=
            if m.currentVictimRef = some r then none else m.currentVictimRef } := by
  rw [purgeThreatListRef, show (t.manager o).myThreatListEntries.lookup v = some r from h]

theorem purgeThreatListRef_spec (h : t.entry o v = some r) :
    let t' := t.purgeThreatListRef o v
    (∀ o' v', t'.entry o' v' = if o' = o ∧ v' = v then none else t.entry o' v') ∧
    (∀ o' r', r' ∈ t'.sorted o' ↔ r' ∈ t.sorted o' ∧ ¬(o' = o ∧ r' = r)) ∧
    (∀ o' r', (t'.manager o').currentVictimRef = some r' →
      (t.manager o').currentVictimRef = some r' ∧ ¬(o' = o ∧ r' = r)) ∧
    (∀ o' r', (t'.manager o').fixateRef = some r' →
      (t.manager o').fixateRef = some r' ∧ ¬(o' = o ∧ r' = r)) ∧
    (∀ v' o', t'.threatened v' o' = t.threatened v' o') ∧ t'.refs = t.refs ∧
    t'.nextRef = t.nextRef := by
  intro t'
  have ht' : t' = _ := purgeThreatListRef_eq h
  have hpurge : ∀ (p : Option RefId) r', (if p = some r then none else p) = some r' →
      p = some r' ∧ r' ≠ r := by
    intro p r' hp
    split at hp <;> rename_i hpr
    · cases hp
    · refine ⟨hp, ?_⟩
      rintro rfl
      exact hpr hp
  refine ⟨fun o' v' => ?_, fun o' r' => ?_, fun o' r' => ?_, fun o' r' => ?_,
    fun v' o' => ?_, ?_, ?_⟩
  · rw [entry, ht', manager_setManager]
    by_cases ho : o' = o
    · by_cases hv : v' = v
      · subst ho hv; simp
      · simp [ho, hv, entry, AList.lookup_erase_ne hv]
    · simp [ho, entry]
  · rw [sorted, ht', manager_setManager]
    by_cases ho : o' = o
    · simp only [ho, if_true, LawfulMutableHeap.mem_erase, sorted, true_and, ne_eq]
    · simp [ho, sorted]
  · rw [ht', manager_setManager]
    by_cases ho : o' = o
    · subst ho
      simp only [if_true, true_and]
      exact hpurge _ r'
    · simp [ho]
  · rw [ht', manager_setManager]
    by_cases ho : o' = o
    · subst ho
      simp only [if_true, true_and]
      exact hpurge _ r'
    · simp [ho]
  · rw [threatened, ht', manager_setManager]
    by_cases ho : v' = o
    · simp [ho, threatened]
    · simp [ho, threatened]
  · rw [ht']; rfl
  · rw [ht']; rfl

theorem unregisterAndFree_spec (h : t.Indexed) (hr : t.sides r = some (o, v)) :
    Unregistered t (t.unregisterAndFree r) r o v := by
  obtain ⟨ref, href, hov⟩ := Option.map_eq_some_iff.1 hr
  obtain ⟨rfl, rfl⟩ : ref.owner = o ∧ ref.victim = v := by simpa using hov
  rw [unregisterAndFree, href]
  obtain ⟨hentry, hsorted, hcur, hfix, hthr, hrefs, hnext⟩ :=
    purgeThreatListRef_spec (h.live hr)
  simp only []
  generalize t.purgeThreatListRef ref.owner ref.victim = t₁ at *
  have hmgr : ∀ c, (t₁.purgeThreatenedByMeRef ref.victim ref.owner).manager c =
      if c = ref.victim then { t₁.manager ref.victim with
        threatenedByMe := (t₁.manager ref.victim).threatenedByMe.erase ref.owner }
      else t₁.manager c := fun c => manager_setManager _ _ _ _
  constructor
  case entry =>
    intro o' v'
    rw [← hentry, entry, hmgr]
    split <;> rename_i ho
    · rw [ho]; rfl
    · rfl
  case threatened =>
    intro v' o'
    rw [threatened, hmgr, ← hthr]
    by_cases hv : v' = ref.victim
    · by_cases ho : o' = ref.owner
      · subst hv ho; simp
      · simp [hv, ho, threatened, AList.lookup_erase_ne ho]
    · simp [hv, threatened]
  case sorted =>
    intro o' r'
    rw [← hsorted, sorted, hmgr]
    split <;> rename_i ho
    · rw [ho]; rfl
    · rfl
  case current =>
    intro o' r'
    rw [hmgr]
    split <;> rename_i ho
    · rw [ho]; exact hcur _ r'
    · exact hcur o' r'
  case fixate =>
    intro o' r'
    rw [hmgr]
    split <;> rename_i ho
    · rw [ho]; exact hfix _ r'
    · exact hfix o' r'
  case sides =>
    intro r'
    rw [sides]
    simp only [Function.update_apply]
    split
    · rfl
    · rw [show (t₁.purgeThreatenedByMeRef ref.victim ref.owner).refs = t.refs from hrefs]
      rfl
  case nextRef => exact hnext

theorem Unregistered.indexed (h : t.Indexed) (hr : t.sides r = some (o, v))
    (hu : Unregistered t t' r o v) : t'.Indexed := by
  have hentry : ∀ {o' v' r'}, t'.entry o' v' = some r' ↔ t.entry o' v' = some r' ∧ r' ≠ r := by
    intro o' v' r'
    rw [hu.entry]
    constructor
    · intro he
      split at he <;> rename_i hov
      · cases he
      · refine ⟨he, ?_⟩
        rintro rfl
        exact hov (h.entry_inj he (h.live hr))
    · rintro ⟨he, hne⟩
      rw [if_neg, he]
      rintro ⟨rfl, rfl⟩
      rw [h.live hr] at he
      exact hne (Option.some.inj he).symm
  have hpointer : ∀ {o' r'}, (∃ v', t.entry o' v' = some r') → ¬(o' = o ∧ r' = r) →
      ∃ v', t'.entry o' v' = some r' := by
    rintro o' r' ⟨v', he⟩ hne
    refine ⟨v', hentry.2 ⟨he, ?_⟩⟩
    rintro rfl
    exact hne ⟨(h.entry_inj he (h.live hr)).1, rfl⟩
  constructor
  case heap =>
    intro o' r'
    rw [hu.sorted, h.heap]
    constructor
    · rintro ⟨he, hne⟩
      exact hpointer he hne
    · rintro ⟨v', he⟩
      obtain ⟨he, hne⟩ := hentry.1 he
      exact ⟨⟨v', he⟩, fun hc => hne hc.2⟩
  case both =>
    intro o' v' r'
    rw [hu.entry, hu.threatened]
    split
    · exact Iff.rfl
    · exact h.both
  case held =>
    intro o' v' r' he
    obtain ⟨he, hne⟩ := hentry.1 he
    rw [hu.sides, if_neg hne]
    exact h.held he
  case live =>
    intro o' v' r' hs
    rw [hu.sides] at hs
    split at hs <;> rename_i hne
    · cases hs
    · exact hentry.2 ⟨h.live hs, hne⟩
  case current =>
    intro o' r' hc
    obtain ⟨hc, hne⟩ := hu.current o' r' hc
    exact hpointer (h.current hc) hne
  case fixate =>
    intro o' r' hc
    obtain ⟨hc, hne⟩ := hu.fixate o' r' hc
    exact hpointer (h.fixate hc) hne
  case fresh =>
    intro r' hle
    rw [refs_eq_none_iff, hu.sides]
    split
    · rfl
    · rw [← refs_eq_none_iff]
      exact h.fresh (hu.nextRef ▸ hle)

theorem bookkeeping_indexed (h : t.Indexed) (hm : Bookkeeping t (t.manager a) m) :
    (t.setManager a m).Indexed := by
  -- the write is a `SameIndex` step but for the two pointers
  have hsame : SameIndex t (t.setManager a { m with
      currentVictimRef := (t.manager a).currentVictimRef
      fixateRef := (t.manager a).fixateRef }) := by
    refine setManager_sameIndex hm.entries hm.threatened (fun r => ?_) rfl rfl
    rw [hm.sorted]; rfl
  have hkeep := h.of_sameIndex hsame
  have hentry : ∀ o v, (t.setManager a m).entry o v = t.entry o v := by
    intro o v
    rw [← hsame.entry, entry, entry, manager_setManager, manager_setManager]
    split <;> rfl
  have hsorted : ∀ o, (t.setManager a m).sorted o = t.sorted o := by
    intro o
    rw [sorted, manager_setManager]
    split <;> rename_i ho
    · rw [hm.sorted, ho]; rfl
    · rfl
  constructor
  case heap => intro o r; rw [hsorted]; simp only [hentry]; exact h.heap
  case both =>
    intro o v r
    rw [hentry, h.both, ← hsame.threatened, threatened, threatened, manager_setManager,
      manager_setManager]
    split <;> exact Iff.rfl
  case held => intro o v r; rw [hentry]; exact h.held
  case live => intro o v r; rw [hentry]; exact h.live
  case current =>
    intro o r
    rw [manager_setManager]
    simp only [hentry]
    split <;> rename_i ho
    · subst ho
      intro hc
      rcases hm.current r hc with hc | hc | hc | hc
      · exact h.current hc
      · exact h.fixate hc
      · exact h.heap.1 (LawfulMutableHeap.top_mem hc)
      · exact h.heap.1 (LawfulMutableHeap.mem_ordered.1 hc)
    · exact h.current
  case fixate =>
    intro o r
    rw [manager_setManager]
    simp only [hentry]
    split <;> rename_i ho
    · subst ho
      intro hc
      rcases hm.fixate r hc with hc | hc
      · exact h.fixate hc
      · exact hc
    · exact h.fixate
  case fresh => exact h.fresh

theorem unregisterAndFree_indexed (h : t.Indexed) (r : RefId) :
    (t.unregisterAndFree r).Indexed := by
  cases hr : t.sides r with
  | none =>
      rw [unregisterAndFree, (refs_eq_none_iff t r).2 hr]
      exact h
  | some s => exact (unregisterAndFree_spec h hr).indexed h hr

theorem threatMove_indexed (h : t.Indexed) (hmove : ThreatMove lim t t') : t'.Indexed := by
  rcases threatMove_cases hmove with hs | ⟨a, m, hm, rfl⟩ | ⟨r, rfl⟩
  · exact h.of_sameIndex hs
  · exact bookkeeping_indexed h hm
  · exact unregisterAndFree_indexed h r

/-- No move adds to a threat list. -/
theorem threatMove_entry (h : t.Indexed) (hmove : ThreatMove lim t t')
    (he : t'.entry o v = some r) : t.entry o v = some r := by
  rcases threatMove_cases hmove with hs | ⟨a, m, hm, rfl⟩ | ⟨r', rfl⟩
  · rwa [hs.entry] at he
  · rw [entry, manager_setManager] at he
    split at he <;> rename_i ho
    · rw [hm.entries, ← ho] at he
      exact he
    · exact he
  · cases hr : t.sides r' with
    | none =>
        rw [unregisterAndFree, (refs_eq_none_iff t r').2 hr] at he
        exact he
    | some s =>
        rw [(unregisterAndFree_spec h hr).entry] at he
        split at he
        · cases he
        · exact he

theorem threatMoves_indexed (h : t.Indexed) (hmoves : ThreatMoves lim t t') : t'.Indexed := by
  induction hmoves with
  | refl => exact h
  | tail _ hmove ih => exact threatMove_indexed ih hmove

theorem threatMoves_entry (h : t.Indexed) (hmoves : ThreatMoves lim t t') :
    t'.entry o v = some r → t.entry o v = some r := by
  induction hmoves with
  | refl => exact id
  | tail hpre hmove ih =>
      exact fun he => ih (threatMove_entry (threatMoves_indexed h hpre) hmove he)

/-! ## Making a reference -/

/-- What `createThreatRef` does to the containers. -/
structure Created (t t' : ThreatState U F H) (a target : U) : Prop where
  entry : ∀ o v, t'.entry o v = if o = a ∧ v = target then some t.nextRef else t.entry o v
  threatened : ∀ v o, t'.threatened v o =
    if o = a ∧ v = target then some t.nextRef else t.threatened v o
  sorted : ∀ o r, r ∈ t'.sorted o ↔ (o = a ∧ r = t.nextRef) ∨ r ∈ t.sorted o
  current : ∀ o, (t'.manager o).currentVictimRef = (t.manager o).currentVictimRef
  fixate : ∀ o, (t'.manager o).fixateRef = (t.manager o).fixateRef
  sides : ∀ r, t'.sides r = if r = t.nextRef then some (a, target) else t.sides r
  nextRef : t'.nextRef = t.nextRef + 1

/-- A manager write that keeps a field keeps it for everybody. -/
theorem manager_setManager_same {α : Type} (field : ThreatManager U H → α)
    (h : field m = field (t.manager a)) (c : U) :
    field ((t.setManager a m).manager c) = field (t.manager c) := by
  rw [manager_setManager]
  split <;> rename_i hc
  · rw [hc, h]
  · rfl

theorem createThreatRef_spec (view : ThreatView U F) (t : ThreatState U F H)
    (a target : U) : Created t (t.createThreatRef view a target) a target := by
  obtain ⟨ref, t₀, hcreate, hmgr₀, hside, hrefs₀, hnext₀⟩ :
      ∃ (ref : ThreatReference U F) (t₀ : ThreatState U F H),
        t.createThreatRef view a target =
          (t₀.putThreatListRef a target t.nextRef).putThreatenedByMeRef target a t.nextRef ∧
        t₀.manager = t.manager ∧ (ref.owner = a ∧ ref.victim = target) ∧
        t₀.refs = Function.update t.refs t.nextRef (some ref) ∧
        t₀.nextRef = t.nextRef + 1 :=
    ⟨_, _, rfl, rfl, ⟨rfl, rfl⟩, rfl, rfl⟩
  rw [hcreate]
  have hlast : ∀ {α : Type} (field : ThreatManager U H → α),
      (∀ m th, field { m with threatenedByMe := th } = field m) → ∀ c,
      field (((t₀.putThreatListRef a target t.nextRef).putThreatenedByMeRef target a
        t.nextRef).manager c) = field ((t₀.putThreatListRef a target t.nextRef).manager c) :=
    fun field hfield c => manager_setManager_same field (hfield _ _) c
  have hput : ∀ c, (t₀.putThreatListRef a target t.nextRef).manager c = _ :=
    fun c => manager_setManager _ _ _ _
  have hfirst : ∀ {α : Type} (field : ThreatManager U H → α),
      (∀ m b es h, field { m with
        needClientUpdate := b, myThreatListEntries := es, sortedThreatList := h } = field m) →
      ∀ c, field ((t₀.putThreatListRef a target t.nextRef).manager c) =
        field (t.manager c) := by
    intro α field hfield c
    rw [← hmgr₀]
    exact manager_setManager_same field (hfield _ _ _ _) c
  have hthr := hfirst (fun m => m.threatenedByMe) (fun _ _ _ _ => rfl)
  constructor
  case entry =>
    intro o v
    rw [entry, hlast (fun m => m.myThreatListEntries) (fun _ _ => rfl), hput, hmgr₀]
    by_cases ho : o = a
    · subst ho
      by_cases hv : v = target
      · subst hv; simp
      · simp [hv, entry, AList.lookup_insert_ne hv]
    · simp [ho, entry]
  case threatened =>
    intro v o
    rw [threatened, putThreatenedByMeRef, manager_setManager]
    by_cases hv : v = target
    · subst hv
      by_cases ho : o = a
      · subst ho; simp
      · simp [ho, threatened, hthr, AList.lookup_insert_ne ho]
    · simp [hv, hthr, threatened]
  case sorted =>
    intro o r
    rw [sorted, hlast (fun m => m.sortedThreatList) (fun _ _ => rfl), hput, hmgr₀]
    by_cases ho : o = a
    · subst ho
      simp only [if_true, LawfulMutableHeap.mem_push, true_and, sorted]
    · simp [ho, sorted]
  case current =>
    intro o
    rw [hlast (fun m => m.currentVictimRef) (fun _ _ => rfl)]
    exact hfirst (fun m => m.currentVictimRef) (fun _ _ _ _ => rfl) o
  case fixate =>
    intro o
    rw [hlast (fun m => m.fixateRef) (fun _ _ => rfl)]
    exact hfirst (fun m => m.fixateRef) (fun _ _ _ _ => rfl) o
  case sides =>
    intro r
    rw [sides, show ((t₀.putThreatListRef a target t.nextRef).putThreatenedByMeRef target a
      t.nextRef).refs = t₀.refs from rfl, hrefs₀, Function.update_apply]
    split
    · rw [Option.map_some, hside.1, hside.2]
    · rfl
  case nextRef => exact hnext₀

theorem createThreatRef_indexed (h : t.Indexed) (view : ThreatView U F) {target : U}
    (hno : t.entry a target = none) : (t.createThreatRef view a target).Indexed := by
  have hc := createThreatRef_spec view t a target
  have hold : ∀ {o v r}, t.entry o v = some r → r ≠ t.nextRef := by
    rintro o v r he rfl
    have hs := h.held he
    rw [(refs_eq_none_iff t _).1 (h.fresh (Nat.le_refl _))] at hs
    cases hs
  have hkeep : ∀ {o v r}, t.entry o v = some r →
      (t.createThreatRef view a target).entry o v = some r := by
    intro o v r he
    rw [hc.entry, if_neg, he]
    rintro ⟨rfl, rfl⟩
    rw [hno] at he
    cases he
  constructor
  case heap =>
    intro o r
    rw [hc.sorted, h.heap]
    constructor
    · rintro (⟨rfl, rfl⟩ | ⟨v, he⟩)
      · exact ⟨target, by rw [hc.entry, if_pos ⟨rfl, rfl⟩]⟩
      · exact ⟨v, hkeep he⟩
    · rintro ⟨v, he⟩
      rw [hc.entry] at he
      split at he <;> rename_i hov
      · exact Or.inl ⟨hov.1, (Option.some.inj he).symm⟩
      · exact Or.inr ⟨v, he⟩
  case both =>
    intro o v r
    rw [hc.entry, hc.threatened]
    split
    · exact Iff.rfl
    · exact h.both
  case held =>
    intro o v r he
    rw [hc.entry] at he
    rw [hc.sides]
    split at he <;> rename_i hov
    · rw [if_pos (Option.some.inj he).symm, hov.1, hov.2]
    · rw [if_neg (hold he)]
      exact h.held he
  case live =>
    intro o v r hs
    rw [hc.sides] at hs
    split at hs <;> rename_i hr
    · obtain ⟨rfl, rfl⟩ : a = o ∧ target = v := by simpa using hs
      rw [hc.entry, if_pos ⟨rfl, rfl⟩, hr]
    · exact hkeep (h.live hs)
  case current =>
    intro o r hcur
    rw [hc.current] at hcur
    obtain ⟨v, he⟩ := h.current hcur
    exact ⟨v, hkeep he⟩
  case fixate =>
    intro o r hfix
    rw [hc.fixate] at hfix
    obtain ⟨v, he⟩ := h.fixate hfix
    exact ⟨v, hkeep he⟩
  case fresh =>
    intro r hle
    rw [hc.nextRef] at hle
    rw [refs_eq_none_iff, hc.sides, if_neg (Nat.ne_of_gt hle), ← refs_eq_none_iff]
    exact h.fresh (Nat.le_of_succ_le hle)

/-! ## Clearing a list -/

theorem clearThreat_entry (h : t.Indexed) (a target : U) :
    (t.clearThreat view w a target).entry a target = none := by
  rw [clearThreat]
  split <;> rename_i he
  · exact he
  rename_i r
  have hs := h.held (show t.entry a target = some r from he)
  have hu := unregisterAndFree_spec h hs
  have hgone : (t.unregisterAndFree r).entry a target = none := by
    rw [hu.entry, if_pos ⟨rfl, rfl⟩]
  rw [clearThreatRef]
  split
  · cases hf : (updateVictim view w (t.unregisterAndFree r) a).entry a target with
    | none => rfl
    | some r' =>
        have hmoves : ThreatMoves Limits.none (t.unregisterAndFree r) _ :=
          updateVictim_moves view w _ a
        rw [threatMoves_entry (hu.indexed h hs) hmoves hf] at hgone
        cases hgone
  · exact hgone

/-- The maps a freed reference was in lose one key each. -/
theorem unregisterAndFree_maps (h : t.Indexed) (he : t.entry o v = some r) :
    ((t.unregisterAndFree r).manager o).myThreatListEntries =
      (t.manager o).myThreatListEntries.erase v ∧
    ((t.unregisterAndFree r).manager v).threatenedByMe =
      (t.manager v).threatenedByMe.erase o := by
  obtain ⟨ref, href, hov⟩ := Option.map_eq_some_iff.1 (h.held he)
  obtain ⟨rfl, rfl⟩ : ref.owner = o ∧ ref.victim = v := by simpa using hov
  rw [unregisterAndFree, href]
  simp only [purgeThreatListRef_eq he]
  constructor
  · refine (manager_setManager_same (fun m => m.myThreatListEntries) (by rfl) _).trans ?_
    rw [manager_setManager, if_pos rfl]
  · rw [purgeThreatenedByMeRef]
    simp only [if_true, manager_setManager]
    split <;> rename_i ho
    · rw [← ho]
    · rfl

theorem clearAllLoop_empty (a : U) (n : Nat) :
    ∀ {t : ThreatState U F H}, t.Indexed →
      (t.manager a).myThreatListEntries.entries.length ≤ n →
      ((clearAllLoop a n t).manager a).myThreatListEntries.entries = [] := by
  induction n with
  | zero =>
      intro t _ hlen
      exact List.eq_nil_of_length_eq_zero (Nat.le_zero.1 hlen)
  | succ n ih =>
      intro t h hlen
      rw [clearAllLoop]
      split <;> rename_i he
      · exact he
      · rename_i v r rest
        have hentry : t.entry a v = some r :=
          AList.mem_lookup_iff.2 (he ▸ List.mem_cons_self)
        refine ih (unregisterAndFree_indexed h r) ?_
        rw [(unregisterAndFree_maps h hentry).1, length_entries_erase he]
        rw [he] at hlen
        exact Nat.le_of_succ_le_succ hlen

/-- `ClearAllThreat` leaves an empty list. -/
theorem clearAllThreat_empty (h : t.Indexed) (a : U) :
    ((t.clearAllThreat a).manager a).myThreatListEntries.entries = [] := by
  refine clearAllLoop_empty a _ (bookkeeping_indexed h ?_) ?_
  · exact ⟨rfl, rfl, rfl, fun _ hc => Or.inl hc, fun _ hf => Or.inl hf⟩
  · exact Nat.le_refl _

theorem updateVictim_threatenedBy (view : ThreatView U F) (w : VictimWeights F)
    (t : ThreatState U F H) (a v : U) :
    ((t.updateVictim view w a).manager v).threatenedByMe =
      (t.manager v).threatenedByMe := by
  rw [updateVictim]
  split
  · exact manager_setManager_same (fun m => m.threatenedByMe) (by rfl) v
  · refine (manager_setManager_same (fun m => m.threatenedByMe) (by rfl) v).trans ?_
    exact (forEach_sameIndex (updateOffline_sameIndex view) _ t).threatenedBy v

theorem clearThreat_threatenedBy (h : t.Indexed) (he : t.entry o v = some r) :
    ((t.clearThreat view w o v).manager v).threatenedByMe =
      (t.manager v).threatenedByMe.erase o := by
  rw [clearThreat, show (t.manager o).myThreatListEntries.lookup v = some r from he]
  simp only [clearThreatRef]
  split
  · rw [updateVictim_threatenedBy]
    exact (unregisterAndFree_maps h he).2
  · exact (unregisterAndFree_maps h he).2

theorem removeMeLoop_empty (view : ThreatView U F) (w : VictimWeights F) (a : U) (n : Nat) :
    ∀ {t : ThreatState U F H}, t.Indexed →
      (t.manager a).threatenedByMe.entries.length ≤ n →
      ((removeMeLoop view w a n t).manager a).threatenedByMe.entries = [] := by
  induction n with
  | zero =>
      intro t _ hlen
      exact List.eq_nil_of_length_eq_zero (Nat.le_zero.1 hlen)
  | succ n ih =>
      intro t h hlen
      rw [removeMeLoop]
      split <;> rename_i he
      · exact he
      rename_i o r rest
      have hthr : t.threatened a o = some r :=
        AList.mem_lookup_iff.2 (he ▸ List.mem_cons_self)
      have hentry := h.both.2 hthr
      obtain ⟨ref, href, hov⟩ := Option.map_eq_some_iff.1 (h.held hentry)
      obtain ⟨rfl, rfl⟩ : ref.owner = o ∧ ref.victim = a := by simpa using hov
      simp only [href]
      have hmoves : ThreatMoves Limits.none t (t.clearThreat view w ref.owner ref.victim) :=
        clearThreat_moves view w t _ _
      refine ih (threatMoves_indexed h hmoves) ?_
      rw [clearThreat_threatenedBy h hentry, length_entries_erase he]
      rw [he] at hlen
      exact Nat.le_of_succ_le_succ hlen

/-- `RemoveMeFromThreatLists` leaves nobody threatening the unit. -/
theorem removeMeFromThreatLists_empty (h : t.Indexed) (a : U) :
    ((t.removeMeFromThreatLists view w a).manager a).threatenedByMe.entries = [] :=
  removeMeLoop_empty view w a _ h (Nat.le_refl _)

end ThreatState

/-! ## Threat needs combat -/

namespace World

/-- Whoever is on a threat list is in combat with its owner. -/
def Supported (s : World U F H) : Prop :=
  ∀ {o v r}, s.threat.entry o v = some r →
    (s.combat.find false o v).isSome ∨ (s.combat.find true o v).isSome

structure ThreatSound (s : World U F H) : Prop where
  consistent : s.combat.Consistent
  indexed : s.threat.Indexed
  supported : s.Supported

variable [LawfulMutableHeap H]

theorem endCombat_threatSound {s : World U F H} (h : s.ThreatSound) (env : Env U F)
    (r : RefId) : (s.endCombat env r).ThreatSound := by
  have hcombat : (s.endCombat env r).combat.Consistent := by
    rw [endCombat_combat]
    exact CombatState.endCombat_consistent h.consistent r
  cases hr : s.combat.refs r with
  | none =>
      rw [endCombat, hr]
      exact h
  | some ref =>
      let t₁ := s.threat.clearThreat env.view env.weights ref.first ref.second
      let t₂ := t₁.clearThreat env.view env.weights ref.second ref.first
      have hthreat : (s.endCombat env r).threat = t₂ := by rw [endCombat, hr]; rfl
      have hmoves₁ : ThreatMoves Limits.none s.threat t₁ :=
        ThreatState.clearThreat_moves _ _ _ _ _
      have hmoves₂ : ThreatMoves Limits.none t₁ t₂ :=
        ThreatState.clearThreat_moves _ _ _ _ _
      have hi₁ := ThreatState.threatMoves_indexed h.indexed hmoves₁
      refine ⟨hcombat, ?_, ?_⟩
      · rw [hthreat]
        exact ThreatState.threatMoves_indexed hi₁ hmoves₂
      · intro o v r' he
        rw [hthreat] at he
        have he₁ := ThreatState.threatMoves_entry hi₁ hmoves₂ he
        -- both directions have been cleared between the two sides
        have hnot : ¬ ref.Joins o v := by
          rintro (⟨rfl, rfl⟩ | ⟨rfl, rfl⟩)
          · rw [ThreatState.clearThreat_entry h.indexed] at he₁
            cases he₁
          · rw [ThreatState.clearThreat_entry hi₁] at he
            cases he
        rw [endCombat_combat, CombatState.find_endCombat hr, CombatState.find_endCombat hr,
          if_neg (fun hc => hnot hc.2), if_neg (fun hc => hnot hc.2)]
        exact h.supported (ThreatState.threatMoves_entry h.indexed hmoves₁ he₁)

theorem threatSound_invariant (lim : Limits U F H) :
    Invariant lim (ThreatSound (U := U) (F := F) (H := H)) where
  consistent h := h.consistent
  combat h hc hfind :=
    ⟨hc, h.indexed, fun he => (h.supported he).imp (hfind _ _ _) (hfind _ _ _)⟩
  endCombat env r h := endCombat_threatSound h env r
  threat h hmove :=
    ⟨h.consistent, ThreatState.threatMove_indexed h.indexed hmove,
      fun he => h.supported (ThreatState.threatMove_entry h.indexed hmove he)⟩
  create := by
    intro s view a target h hin hno
    refine ⟨h.consistent, ThreatState.createThreatRef_indexed h.indexed view hno, ?_⟩
    intro o v r he
    have hc := ThreatState.createThreatRef_spec view s.threat a target
    have he' : (s.threat.createThreatRef view a target).entry o v = some r := he
    rw [hc.entry] at he'
    split at he' <;> rename_i hov
    · rw [hov.1, hov.2]
      exact Bool.or_eq_true_iff.1 hin
    · exact h.supported he'

theorem init_threatSound (canHaveThreatList : U → Bool) :
    (init canHaveThreatList : World U F H).ThreatSound :=
  ⟨CombatState.init_consistent, ThreatState.init_indexed canHaveThreatList,
    fun he => nomatch he⟩

/-- After any run of calls, in any order and over any units: the three
containers of a threat reference agree, nothing in them and neither pointer
dangles, and whoever threatens is in combat with the threatened. -/
theorem run_threat_index (hundredth : F) (canHaveThreatList : U → Bool)
    (calls : List (Env U F × Op U F)) :
    let s := run hundredth (init canHaveThreatList : World U F H) calls
    (∀ r ref, s.threat.refs r = some ref →
      (r ∈ s.threat.sorted ref.owner ↔ s.threat.entry ref.owner ref.victim = some r) ∧
      (s.threat.entry ref.owner ref.victim = some r ↔
        s.threat.threatened ref.victim ref.owner = some r) ∧
      ((s.combat.find false ref.owner ref.victim).isSome ∨
        (s.combat.find true ref.owner ref.victim).isSome)) ∧
    (∀ o r, r ∈ s.threat.sorted o ↔ ∃ v, s.threat.entry o v = some r) ∧
    (∀ o v r, s.threat.entry o v = some r ↔ s.threat.threatened v o = some r) ∧
    (∀ o v r, s.threat.entry o v = some r → s.threat.sides r = some (o, v)) ∧
    (∀ o r, (s.threat.manager o).currentVictimRef = some r ∨
      (s.threat.manager o).fixateRef = some r → r ∈ s.threat.sorted o) := by
  intro s
  have h : s.ThreatSound :=
    run_invariant (threatSound_invariant Limits.none) hundredth calls
      (init_threatSound canHaveThreatList) (runOk_none hundredth calls _)
  have hi := h.indexed
  refine ⟨fun r ref hr => ?_, fun o r => hi.heap, fun o v r => hi.both,
    fun o v r => hi.held, fun o r hp => ?_⟩
  · have hentry : s.threat.entry ref.owner ref.victim = some r :=
      hi.live (by rw [ThreatState.sides, hr]; rfl)
    exact ⟨⟨fun _ => hentry, fun he => hi.heap.2 ⟨_, he⟩⟩, hi.both, h.supported hentry⟩
  · rcases hp with hp | hp
    · exact hi.heap.2 (hi.current hp)
    · exact hi.heap.2 (hi.fixate hp)

/-- Whatever has happened before, `ClearAllThreat` leaves the unit threatening nobody, and
`RemoveMeFromThreatLists` leaves it on no list. -/
theorem run_clears_lists (hundredth : F) (canHaveThreatList : U → Bool)
    (calls : List (Env U F × Op U F)) (env : Env U F) (a u : U) :
    let t := (run hundredth (init canHaveThreatList : World U F H) calls).threat
    (t.clearAllThreat a).entry a u = none ∧
      (t.removeMeFromThreatLists env.view env.weights a).entry u a = none := by
  intro t
  have h : t.Indexed := (run_invariant (threatSound_invariant Limits.none) hundredth calls
    (init_threatSound canHaveThreatList) (runOk_none hundredth calls _)).indexed
  have hmoves : ThreatMoves Limits.none t _ :=
    ThreatState.removeMeFromThreatLists_moves env.view env.weights t a
  constructor
  · rw [ThreatState.entry, AList.lookup, ThreatState.clearAllThreat_empty h]
    rfl
  · refine Option.eq_none_iff_forall_ne_some.2 fun r hr => ?_
    have hthreatened := (ThreatState.threatMoves_indexed h hmoves).both.1 hr
    rw [ThreatState.threatened, AList.lookup, ThreatState.removeMeFromThreatLists_empty h]
      at hthreatened
    cases hthreatened

/-! Creatures have odd numbers here, players even ones; everybody is alive, in
sight and hostile to everybody else. -/

def arena : Env Nat Int where
  view :=
    { isInWorld := fun _ => true
      isAlive := fun _ => true
      sameMap := fun _ _ => true
      inSamePhase := fun _ _ => true
      isEvading := fun _ => false
      isInFlight := fun _ => false
      isFriendlyTo := fun _ _ => false
      isGameMaster := fun _ => false
      isControlledByPlayer := fun u => u % 2 = 0
      isPlayerControlled := fun u => u % 2 = 0
      isImmuneToPC := fun _ => false
      isImmuneToNPC := fun _ => false
      isWithinDistInMap := fun _ _ => true
      canSeeOrDetect := fun _ _ => true
      isTargetAcceptable := fun _ _ => true
      canCreatureAttack := fun _ _ => true
      isTrigger := fun _ => false
      isImmunedToMelee := fun _ _ => false
      hasConfuse := fun _ => false
      hasBreakableStun := fun _ => false
      hasDetauntFrom := fun _ _ => false
      isWithinMeleeRange := fun _ _ => true
      canGetUnit := fun _ => true
      calculateModifiedThreat := fun amount _ => amount
      calculatePct := fun amount pct => amount * pct / 100
      uninitialisedTaunt := 0 }
  weights := ⟨1, 1⟩

/-- A world of creatures with odd numbers and players with even ones. -/
def arenaInit : World Nat Int (SortedQueue RefId) := init fun u => u % 2 = 1

/-- Two creatures fight one player, and one of them forgets about it. -/
def arenaCalls : List (Env Nat Int × Op Nat Int) :=
  [(arena, .addThreat 1 2 10 none false false), (arena, .addThreat 3 2 5 none false false),
    (arena, .clearThreat 1 2)]

theorem run_threat_index_arena :
    let s := run 0 arenaInit arenaCalls
    s.threat.entry 1 2 = none ∧ s.threat.entry 3 2 = some 1 ∧
    1 ∈ s.threat.sorted 3 ∧ s.threat.threatened 2 3 = some 1 := by
  intro s
  obtain ⟨-, hheap, hboth, -⟩ := run_threat_index 0 (fun u => decide (u % 2 = 1)) arenaCalls
    (H := SortedQueue RefId)
  have hentry : s.threat.entry 3 2 = some 1 := by decide
  exact ⟨by decide, hentry, (hheap 3 1).2 ⟨2, hentry⟩, (hboth 3 2 1).1 hentry⟩

theorem run_clears_lists_arena :
    ((run 0 arenaInit arenaCalls).threat.clearAllThreat 3).entry 3 2 = none :=
  (run_clears_lists 0 (fun u => decide (u % 2 = 1)) arenaCalls arena 3 2 (H := SortedQueue RefId)).1

end World

end Sunstrider.Combat
