import Sunstrider.Proofs.ThreatIndex

/-!
# The heap is told about every change

The comparator of the threat heap reads four fields that change while the
references sit in the heap. Every place that writes one of them has to notify
the heap, and has to know which way the reference moved. `LogSound` is that
duty, read off the ghost log; `Ordered` is what it buys: every heap stays
ordered, so `top` is the greatest reference by online state, then taunt
state, then threat.

Two places of the source guess instead of knowing. `UpdateMyTempModifiers`
takes the direction of the first reference for all of them, and a reference
made after the aura was applied starts with modifier 0 whatever its siblings
have. A single reference can also be scaled by a negative factor, after which
its base amount is negative and later directions no longer follow from the
sign of the amount. `attentive` leaves out exactly these two; under it every
run is sound.
-/

set_option linter.unusedSectionVars false

namespace Sunstrider.Combat

open Lib MutableHeap

variable {U : Type} [DecidableEq U] {F : Type} [ThreatAmount F]
variable {H : Type} [MutableHeap H RefId]

variable {a b : ThreatReference U F}

/-! ## The order the comparator computes -/

/-- Online state, then taunt state, then threat. -/
def ThreatReference.rank (ref : ThreatReference U F) : ℕ ×ₗ ℤ ×ₗ F :=
  toLex (ref.online.toNat, toLex (ref.taunted, ref.getThreat))

theorem OnlineState.toNat_inj {a b : OnlineState} : a.toNat = b.toNat ↔ a = b := by
  cases a <;> cases b <;> simp [OnlineState.toNat]

/-- Where a reference would be in the order with its threat weighted. -/
def ThreatReference.weighted (ref : ThreatReference U F) (w : F) : ℕ ×ₗ ℤ ×ₗ F :=
  toLex (ref.online.toNat, toLex (ref.taunted, ref.getThreat * w))

theorem compareReferencesLT_weighted (a b : ThreatReference U F) (w : F) :
    compareReferencesLT a b w = true ↔ a.weighted w < b.rank := by
  rw [ThreatReference.weighted, ThreatReference.rank, Prod.Lex.toLex_lt_toLex,
    Prod.Lex.toLex_lt_toLex, compareReferencesLT]
  by_cases hon : a.online = b.online
  · by_cases hta : a.taunted = b.taunted
    · simp [hon, hta]
    · simp [hon, hta]
  · have hne : a.online.toNat ≠ b.online.toNat := fun h => hon (OnlineState.toNat_inj.1 h)
    simp [hon, hne]

theorem compareReferencesLT_iff (a b : ThreatReference U F) :
    compareReferencesLT a b 1 = true ↔ a.rank < b.rank := by
  rw [compareReferencesLT_weighted, ThreatReference.weighted, ThreatAmount.mul_one',
    ← ThreatReference.rank]

namespace ThreatState

/-- The rank of what a handle points at. -/
def rank (t : ThreatState U F H) (r : RefId) : WithBot (ℕ ×ₗ ℤ ×ₗ F) :=
  match t.refs r with
  | none => ⊥
  | some ref => ref.rank

theorem less_byRank (t : ThreatState U F H) : ByRank t.rank t.less := by
  intro a b
  rw [less, rank, rank]
  cases ha : t.refs a with
  | none => cases hb : t.refs b <;> simp
  | some ref =>
      cases hb : t.refs b with
      | none => simp
      | some ref' => simp [compareReferencesLT_iff]

theorem rank_of_refs {t : ThreatState U F H} {r : RefId} {ref : ThreatReference U F}
    (h : t.refs r = some ref) : t.rank r = ref.rank := by
  rw [rank, h]

/-! ## Directions -/

end ThreatState

/-- The direction is the one the reference moved in; either will do for one
that stayed level. -/
def DirectionOk (old new : ThreatReference U F) : Direction → Prop
  | .increased => old.rank ≤ new.rank
  | .decreased => new.rank ≤ old.rank

/-- Every change is followed by a notification in the right direction. -/
inductive LogSound : List (HeapEvent U F) → Prop
  | nil : LogSound []
  | change {log : List (HeapEvent U F)} {r : RefId} {old new : ThreatReference U F}
      {dir : Direction} : LogSound log → DirectionOk old new dir →
      LogSound (log ++ [.changed r old new, .notified r dir])

theorem rank_le_of_threat (ho : a.online = b.online) (ht : a.taunted = b.taunted)
    (h : a.getThreat ≤ b.getThreat) : a.rank ≤ b.rank := by
  rw [ThreatReference.rank, ThreatReference.rank, ho, ht, Prod.Lex.toLex_le_toLex]
  exact Or.inr ⟨rfl, Prod.Lex.toLex_le_toLex.2 (Or.inr ⟨rfl, h⟩)⟩

theorem rank_le_of_taunted (ho : a.online = b.online) (ht : a.taunted < b.taunted) :
    a.rank ≤ b.rank := by
  rw [ThreatReference.rank, ThreatReference.rank, ho, Prod.Lex.toLex_le_toLex]
  exact Or.inr ⟨rfl, Prod.Lex.toLex_le_toLex.2 (Or.inl ht)⟩

theorem rank_le_of_online (ho : a.online.toNat < b.online.toNat) : a.rank ≤ b.rank := by
  rw [ThreatReference.rank, ThreatReference.rank, Prod.Lex.toLex_le_toLex]
  exact Or.inl ho

/-- A higher base amount is at least as much threat. -/
theorem getThreat_mono (hb : a.baseAmount ≤ b.baseAmount) (ht : a.tempModifier ≤ b.tempModifier) :
    a.getThreat ≤ b.getThreat :=
  max_le_max (ThreatAmount.add_mono hb (ThreatAmount.intCast_mono ht)) (le_refl 0)

/-! ## Restricted runs -/

/-- Giving every reference on `a` the modifier `mod` moves all of them in the
direction in which the first modifier moves. -/
def UniformTemp (t : ThreatState U F H) (a : U) (mod : Int) : Prop :=
  ∀ e₀ ref₀, (t.manager a).threatenedByMe.entries.head? = some e₀ →
    t.refs e₀.2 = some ref₀ →
    ∀ e ∈ (t.manager a).threatenedByMe.entries, ∀ ref, t.refs e.2 = some ref →
      if ref₀.tempModifier < mod then
        ref.getThreat ≤ { ref with tempModifier := mod }.getThreat
      else { ref with tempModifier := mod }.getThreat ≤ ref.getThreat

/-- No reference is scaled by a negative factor, unless its base amount is 0,
and no update of the temporary modifiers moves two references of a unit in
different directions. -/
def attentive : Limits U F H where
  factor t r x := 0 ≤ x ∨ ∀ ref, t.refs r = some ref → ref.baseAmount = 0
  temp := UniformTemp
  factor_nonneg _ _ _ hx := Or.inl hx

namespace ThreatState

variable {t t' : ThreatState U F H} {o : U} {r : RefId} {old new : ThreatReference U F}
  {dir : Direction}

/-! ## The invariant -/

structure Ordered (t : ThreatState U F H) : Prop where
  heap : ∀ o, HeapOrdered t.less (t.manager o).sortedThreatList
  nonneg : ∀ {r ref}, t.refs r = some ref → 0 ≤ ref.baseAmount
  log : LogSound t.log

variable [LawfulMutableHeap H]

theorem init_ordered (canHaveThreatList : U → Bool) :
    (init canHaveThreatList : ThreatState U F H).Ordered where
  heap _ := LawfulMutableHeap.ordered_empty
  nonneg h := nomatch h
  log := .nil

/-- A manager write that keeps the heap. -/
theorem Ordered.setManager (h : t.Ordered) {a : U} {m : ThreatManager U H}
    (hm : m.sortedThreatList = (t.manager a).sortedThreatList) :
    (t.setManager a m).Ordered where
  heap := by
    intro o
    rw [manager_setManager_same (fun m => m.sortedThreatList) hm]
    exact h.heap o
  nonneg := h.nonneg
  log := h.log

/-- A handle is in the heap of one owner only. -/
theorem Indexed.sorted_owner (h : t.Indexed) {ref : ThreatReference U F}
    (hr : t.refs r = some ref) : r ∈ t.sorted o ↔ o = ref.owner := by
  have hs : t.sides r = some (ref.owner, ref.victim) := by rw [sides, hr]; rfl
  rw [h.heap]
  constructor
  · rintro ⟨v, he⟩
    exact (h.entry_inj he (h.live hs)).1
  · rintro rfl
    exact ⟨_, h.live hs⟩

theorem less_writeRef_of_ne {a b : RefId} (ha : a ≠ r) (hb : b ≠ r) :
    (t.writeRef r old new).less a b = t.less a b := by
  rw [less, less, writeRef]
  simp only [Function.update_of_ne ha, Function.update_of_ne hb]

theorem writeNotify_heap (t : ThreatState U F H) (r : RefId) (old new : ThreatReference U F)
    (dir : Direction) (o : U) :
    ((t.writeNotify r old new dir).manager o).sortedThreatList =
      if o = old.owner then
        match dir with
        | .increased => increase (t.writeRef r old new).less
            (t.manager old.owner).sortedThreatList r
        | .decreased => decrease (t.writeRef r old new).less
            (t.manager old.owner).sortedThreatList r
      else (t.manager o).sortedThreatList := by
  show (((t.writeRef r old new).setManager _ _).manager o).sortedThreatList = _
  rw [manager_setManager]
  split <;> rfl

/-- The heart of the matter: a write to a reference, announced in the right
direction, leaves ordered heaps ordered. -/
theorem heapOrdered_writeNotify (hheap : HeapOrdered t.less (t.manager o).sortedThreatList)
    (hi : t.Indexed) (hr : t.refs r = some old) (hdir : DirectionOk old new dir) :
    HeapOrdered (t.writeNotify r old new dir).less
      ((t.writeNotify r old new dir).manager o).sortedThreatList := by
  have hmem : r ∈ t.sorted old.owner := (hi.sorted_owner hr).2 rfl
  have hrefs : ∀ r', (t.writeRef r old new).refs r' = if r' = r then some new else t.refs r' :=
    fun r' => Function.update_apply _ _ _ _
  have hoff : ∀ r', r' ≠ r → (t.writeRef r old new).rank r' = t.rank r' := by
    intro r' hne
    rw [rank, rank, hrefs, if_neg hne]
  have hold : t.rank r = old.rank := rank_of_refs hr
  have hnewr : (t.writeRef r old new).rank r = new.rank :=
    rank_of_refs (by rw [hrefs, if_pos rfl])
  have hw := (t.writeRef r old new).less_byRank.strictWeak
  show HeapOrdered (t.writeRef r old new).less _
  rw [t.writeNotify_heap]
  split <;> rename_i ho
  · subst ho
    cases dir with
    | increased =>
        refine LawfulMutableHeap.ordered_increase hw hmem ?_ hheap
        refine t.less_byRank.movedUp (less_byRank _) hoff ?_
        rw [hold, hnewr]
        exact WithBot.coe_le_coe.2 hdir
    | decreased =>
        refine LawfulMutableHeap.ordered_decrease hw hmem ?_ hheap
        refine t.less_byRank.movedDown (less_byRank _) hoff ?_
        rw [hold, hnewr]
        exact WithBot.coe_le_coe.2 hdir
  · -- `r` is in nobody else's heap
    have hother : ∀ x ∈ elems (t.manager o).sortedThreatList, x ≠ r := by
      rintro x hx rfl
      exact ho ((hi.sorted_owner hr).1 hx)
    exact LawfulMutableHeap.ordered_congr
      (fun a ha b hb => less_writeRef_of_ne (hother a ha) (hother b hb)) hheap

theorem Ordered.writeNotify (h : t.Ordered) (hi : t.Indexed) (hr : t.refs r = some old)
    (hdir : DirectionOk old new dir) (hnew : 0 ≤ new.baseAmount) :
    (t.writeNotify r old new dir).Ordered := by
  constructor
  case heap => exact fun o => heapOrdered_writeNotify (h.heap o) hi hr hdir
  case nonneg =>
    intro r' ref hr'
    have hrefs : (t.writeNotify r old new dir).refs r' = if r' = r then some new else t.refs r' :=
      Function.update_apply _ _ _ _
    rw [hrefs] at hr'
    split at hr'
    · obtain rfl := Option.some.inj hr'
      exact hnew
    · exact h.nonneg hr'
  case log =>
    have hlog : (t.writeNotify r old new dir).log =
        t.log ++ [.changed r old new, .notified r dir] :=
      List.append_assoc _ _ _
    rw [hlog]
    exact .change h.log hdir

/-- The same for the fields other than the base amount. -/
theorem Ordered.writeNotify_base (h : t.Ordered) (hi : t.Indexed) (hr : t.refs r = some old)
    (hdir : DirectionOk old new dir) (hb : new.baseAmount = old.baseAmount) :
    (t.writeNotify r old new dir).Ordered :=
  h.writeNotify hi hr hdir (hb ▸ h.nonneg hr)

/-! ## One lemma for each place that writes -/

theorem Ordered.refAddThreat (h : t.Ordered) (hi : t.Indexed) (r : RefId) (amount : F) :
    (t.refAddThreat r amount).Ordered := by
  rw [ThreatState.refAddThreat]
  split
  · exact h
  rename_i ref hr
  split
  · exact h
  refine (h.writeNotify hi hr ?_ (le_max_right _ _)).setManager rfl
  split <;> rename_i hpos
  · refine rank_le_of_threat rfl rfl (getThreat_mono ?_ (le_refl _))
    exact le_trans (ThreatAmount.le_add hpos.le) (le_max_left _ _)
  · refine rank_le_of_threat rfl rfl (getThreat_mono ?_ (le_refl _))
    exact max_le (ThreatAmount.add_le (not_lt.1 hpos)) (h.nonneg hr)

theorem Ordered.refScaleThreat (h : t.Ordered) (hi : t.Indexed) {factor : F}
    (hf : attentive.factor t r factor) : (t.refScaleThreat r factor).Ordered := by
  rw [ThreatState.refScaleThreat]
  split
  · exact h
  rename_i ref hr
  split
  · exact h
  have hbase := h.nonneg hr
  have hnew : 0 ≤ ref.baseAmount * factor := by
    rcases hf with hf | hf
    · exact ThreatAmount.mul_nonneg' hbase hf
    · rw [hf ref hr, ThreatAmount.zero_mul']
  refine (h.writeNotify hi hr ?_ hnew).setManager rfl
  split <;> rename_i hone
  · exact rank_le_of_threat rfl rfl (getThreat_mono (ThreatAmount.le_mul hbase hone.le) (le_refl _))
  · exact rank_le_of_threat rfl rfl
      (getThreat_mono (ThreatAmount.mul_le hbase (not_lt.1 hone)) (le_refl _))

/-- What `UpdateOffline` does, if anything, is a write announced in the right direction. -/
theorem updateOffline_cases (view : ThreatView U F) (t : ThreatState U F H) (r : RefId) :
    t.updateOffline view r = t ∨ ∃ ref new dir, t.refs r = some ref ∧
      DirectionOk ref new dir ∧ new.baseAmount = ref.baseAmount ∧
        t.updateOffline view r = t.writeNotify r ref new dir := by
  rw [ThreatState.updateOffline]
  split
  · exact .inl rfl
  rename_i ref hr
  simp only []
  split <;> rename_i hsame
  · exact .inl rfl
  split <;> rename_i hoff
  · refine .inr ⟨ref, { ref with online := .offline }, .decreased, hr, ?_, rfl, rfl⟩
    refine rank_le_of_online ?_
    have hon : ref.online ≠ .offline := by
      simpa [hoff, ThreatReference.isOffline] using hsame
    show 0 < ref.online.toNat
    cases hc : ref.online with
    | offline => exact absurd hc hon
    | suppressed => decide
    | online => decide
  · refine .inr ⟨ref, _, .increased, hr, rank_le_of_online ?_, ?_, rfl⟩
    · have hon : ref.online = .offline := by
        simpa [hoff, ThreatReference.isOffline] using hsame
      rw [hon]
      split <;> simp [OnlineState.toNat]
    · rfl

theorem Ordered.updateOffline (h : t.Ordered) (hi : t.Indexed) (view : ThreatView U F) (r : RefId) :
    (t.updateOffline view r).Ordered := by
  rcases t.updateOffline_cases view r with hnone | ⟨ref, new, dir, hr, hdir, hbase, hwrite⟩
  · rw [hnone]
    exact h
  · rw [hwrite]
    exact h.writeNotify_base hi hr hdir hbase

/-- Going through a list with `UpdateOffline` leaves an ordered heap ordered. -/
theorem heapOrdered_updateOfflines (view : ThreatView U F) (l : List (Sigma fun _ : U => RefId))
    (hi : t.Indexed) (hheap : HeapOrdered t.less (t.manager o).sortedThreatList) :
    HeapOrdered (t.forEach (ThreatState.updateOffline view) l).less
      ((t.forEach (ThreatState.updateOffline view) l).manager o).sortedThreatList := by
  induction l generalizing t with
  | nil => exact hheap
  | cons e rest ih =>
      refine ih (t := t.updateOffline view e.2)
        (hi.of_sameIndex (updateOffline_sameIndex view t e.2)) ?_
      rcases t.updateOffline_cases view e.2 with hnone | ⟨ref, new, dir, hr, hdir, -, hwrite⟩
      · rw [hnone]
        exact hheap
      · rw [hwrite]
        exact heapOrdered_writeNotify hheap hi hr hdir

theorem Ordered.updateTauntState (h : t.Ordered) (hi : t.Indexed) (view : ThreatView U F)
    (r : RefId) (state : Int) : (t.updateTauntState view r state).Ordered := by
  rw [ThreatState.updateTauntState]
  split
  · exact h
  rename_i ref hr
  simp only []
  generalize (if state < tauntStateTaunt ∧ view.hasDetauntFrom ref.victim ref.owner = true
    then tauntStateDetaunt else state) = state'
  split <;> rename_i hsame
  · exact h
  refine (h.writeNotify_base hi hr ?_ (by rfl)).setManager rfl
  split <;> rename_i hlt
  · exact rank_le_of_taunted rfl hlt
  · exact rank_le_of_taunted rfl (lt_of_le_of_ne (not_lt.1 hlt) (Ne.symm hsame))

theorem Ordered.evaluateSuppressedRef (h : t.Ordered) (hi : t.Indexed) (view : ThreatView U F)
    (canExpire : Bool) (r : RefId) : (t.evaluateSuppressedRef view canExpire r).Ordered := by
  rw [ThreatState.evaluateSuppressedRef]
  split
  · exact h
  rename_i ref hr
  simp only []
  split <;> rename_i hsup
  · refine h.writeNotify_base hi hr (rank_le_of_online ?_) (by rfl)
    have hon : ref.online = .online := by
      simpa [ThreatReference.isOnline] using (Bool.and_eq_true_iff.1 hsup).1
    simp [hon, OnlineState.toNat]
  split <;> rename_i hexp
  · refine h.writeNotify_base hi hr (rank_le_of_online ?_) (by rfl)
    have hon : ref.online = .suppressed := by
      have := (Bool.and_eq_true_iff.1 (Bool.and_eq_true_iff.1 hexp).1).2
      simpa [ThreatReference.isSuppressed] using this
    simp [hon, OnlineState.toNat]
  · exact h

theorem Ordered.wake (h : t.Ordered) (hi : t.Indexed) {ref : ThreatReference U F}
    (hr : t.refs r = some ref) (hsup : ref.isSuppressed = true) :
    (t.writeNotify r ref { ref with online := .online } .increased).Ordered := by
  refine h.writeNotify_base hi hr (rank_le_of_online ?_) (by rfl)
  have hon : ref.online = .suppressed := by simpa [ThreatReference.isSuppressed] using hsup
  simp [hon, OnlineState.toNat]

/-- The loop of `UpdateMyTempModifiers`, for a direction that suits every
reference still to be written. -/
theorem Ordered.tempModifiers (mod : Int) (dir : Direction)
    (l : List (Sigma fun _ : U => RefId)) :
    ∀ {t : ThreatState U F H}, t.Ordered → t.Indexed →
      (∀ e ∈ l, ∀ ref, t.refs e.2 = some ref →
        DirectionOk ref { ref with tempModifier := mod } dir) →
      (t.forEach (tempModifierRef mod dir) l).Ordered := by
  induction l with
  | nil => intro t h _ _; exact h
  | cons e rest ih =>
      intro t h hi hdir
      show ((t.tempModifierRef mod dir e.2).forEach (tempModifierRef mod dir) rest).Ordered
      have hi' := hi.of_sameIndex (tempModifierRef_sameIndex mod dir t e.2)
      rw [tempModifierRef] at hi' ⊢
      cases hr : t.refs e.2 with
      | none =>
          exact ih h hi fun e' he' => hdir e' (List.mem_cons_of_mem _ he')
      | some ref =>
          rw [hr] at hi'
          refine ih (h.writeNotify_base hi hr (hdir e List.mem_cons_self ref hr) (by rfl)) hi' ?_
          intro e' he' ref' hr'
          have hrefs : (t.writeNotify e.2 ref { ref with tempModifier := mod } dir).refs e'.2 =
              if e'.2 = e.2 then some { ref with tempModifier := mod } else t.refs e'.2 :=
            Function.update_apply _ _ _ _
          rw [hrefs] at hr'
          split at hr'
          · -- written already: nothing moves any more
            obtain rfl := Option.some.inj hr'
            cases dir <;> exact le_refl _
          · exact hdir e' (List.mem_cons_of_mem _ he') ref' hr'

theorem Ordered.updateMyTempModifiers (h : t.Ordered) (hi : t.Indexed) {a : U} {mod : Int}
    (hu : UniformTemp t a mod) : (t.updateMyTempModifiers a mod).Ordered := by
  rw [ThreatState.updateMyTempModifiers]
  refine Ordered.tempModifiers mod _ _ h hi fun e he ref hr => ?_
  rw [tempModifierGuess]
  cases hl : (t.manager a).threatenedByMe.entries with
  | nil => rw [hl] at he; cases he
  | cons e₀ rest =>
      have hthr : t.threatened a e₀.1 = some e₀.2 :=
        AList.mem_lookup_iff.2 (hl ▸ List.mem_cons_self)
      obtain ⟨ref₀, hr₀, -⟩ := Option.map_eq_some_iff.1 (hi.held (hi.both.2 hthr))
      have hmove := hu e₀ ref₀ (by rw [hl]; rfl) hr₀ e he ref hr
      simp only [hr₀]
      split at hmove <;> rename_i hlt
      · rw [if_pos hlt]
        exact rank_le_of_threat rfl rfl hmove
      · rw [if_neg hlt]
        exact rank_le_of_threat rfl rfl hmove

/-! ## Making and freeing -/

theorem less_congr {a b : RefId} (ha : t'.refs a = t.refs a) (hb : t'.refs b = t.refs b) :
    t'.less a b = t.less a b := by
  rw [less, less, ha, hb]

theorem Ordered.unregisterAndFree (h : t.Ordered) (hi : t.Indexed) (r : RefId) :
    (t.unregisterAndFree r).Ordered := by
  cases hr : t.refs r with
  | none =>
      rw [ThreatState.unregisterAndFree, hr]
      exact h
  | some ref =>
      have hs : t.sides r = some (ref.owner, ref.victim) := by rw [sides, hr]; rfl
      have hu := unregisterAndFree_spec hi hs
      have hheap : ∀ o, ((t.unregisterAndFree r).manager o).sortedThreatList =
          if o = ref.owner then erase t.less (t.manager ref.owner).sortedThreatList r
          else (t.manager o).sortedThreatList := by
        intro o
        rw [ThreatState.unregisterAndFree, hr]
        simp only [purgeThreatListRef_eq (hi.live hs)]
        refine (manager_setManager_same (fun m => m.sortedThreatList) (by rfl) o).trans ?_
        rw [manager_setManager]
        split <;> rfl
      have hrefs : ∀ r', (t.unregisterAndFree r).refs r' =
          if r' = r then none else t.refs r' := by
        intro r'
        rw [ThreatState.unregisterAndFree, hr]
        simp only [purgeThreatListRef_eq (hi.live hs)]
        exact Function.update_apply _ _ _ _
      constructor
      case heap =>
        intro o
        have hout : ∀ x ∈ (t.unregisterAndFree r).sorted o, x ≠ r := by
          rintro x hx rfl
          obtain ⟨hx, hne⟩ := (hu.sorted o x).1 hx
          exact hne ⟨(hi.sorted_owner hr).1 hx, rfl⟩
        have hold : HeapOrdered t.less ((t.unregisterAndFree r).manager o).sortedThreatList := by
          rw [hheap]
          split
          · exact LawfulMutableHeap.ordered_erase t.less_byRank.strictWeak (h.heap _)
          · exact h.heap o
        refine LawfulMutableHeap.ordered_congr (fun a ha b hb => ?_) hold
        exact less_congr (by rw [hrefs, if_neg (hout a ha)]) (by rw [hrefs, if_neg (hout b hb)])
      case nonneg =>
        intro r' ref' hr'
        rw [hrefs] at hr'
        split at hr'
        · cases hr'
        · exact h.nonneg hr'
      case log =>
        rw [ThreatState.unregisterAndFree, hr]
        simp only [purgeThreatListRef_eq (hi.live hs)]
        exact h.log

theorem Ordered.createThreatRef (h : t.Ordered) (hi : t.Indexed) (view : ThreatView U F)
    (a target : U) : (t.createThreatRef view a target).Ordered := by
  have hnew : t.refs t.nextRef = none := hi.fresh (Nat.le_refl _)
  have hold : ∀ {o r}, r ∈ t.sorted o → r ≠ t.nextRef := by
    rintro o r hr rfl
    obtain ⟨v, he⟩ := hi.heap.1 hr
    have hs := hi.held he
    rw [(refs_eq_none_iff t _).1 hnew] at hs
    cases hs
  obtain ⟨ref, t₀, hcreate, hmgr₀, hbase, hrefs₀, hlog₀⟩ :
      ∃ (ref : ThreatReference U F) (t₀ : ThreatState U F H),
        t.createThreatRef view a target =
          (t₀.putThreatListRef a target t.nextRef).putThreatenedByMeRef target a t.nextRef ∧
        t₀.manager = t.manager ∧ ref.baseAmount = 0 ∧
        t₀.refs = Function.update t.refs t.nextRef (some ref) ∧ t₀.log = t.log :=
    ⟨_, _, rfl, rfl, rfl, rfl, rfl⟩
  have h₀ : t₀.Ordered := by
    constructor
    case heap =>
      intro o
      rw [hmgr₀]
      refine LawfulMutableHeap.ordered_congr (fun x hx y hy => ?_) (h.heap o)
      refine less_congr ?_ ?_
      · rw [hrefs₀, Function.update_of_ne (hold hx)]
      · rw [hrefs₀, Function.update_of_ne (hold hy)]
    case nonneg =>
      intro r ref' hr
      rw [hrefs₀, Function.update_apply] at hr
      split at hr
      · obtain rfl := Option.some.inj hr
        exact hbase.ge
      · exact h.nonneg hr
    case log => rw [hlog₀]; exact h.log
  rw [hcreate]
  constructor
  case heap =>
    intro o
    have hkeep : ((t₀.putThreatListRef a target t.nextRef).putThreatenedByMeRef target a
        t.nextRef |>.manager o).sortedThreatList =
        ((t₀.putThreatListRef a target t.nextRef).manager o).sortedThreatList :=
      manager_setManager_same (fun m => m.sortedThreatList) (by rfl) o
    rw [hkeep, putThreatListRef, manager_setManager]
    show HeapOrdered t₀.less _
    split
    · refine LawfulMutableHeap.ordered_push t₀.less_byRank.strictWeak ?_ (h₀.heap a)
      intro hmem
      rw [hmgr₀] at hmem
      exact hold hmem rfl
    · exact h₀.heap o
  case nonneg => exact h₀.nonneg
  case log => exact h₀.log

theorem threatMove_ordered (h : t.Ordered) (hi : t.Indexed) (hmove : ThreatMove attentive t t') :
    t'.Ordered := by
  cases hmove with
  | addThreat r amount => exact h.refAddThreat hi r amount
  | scaleThreat r hf => exact h.refScaleThreat hi hf
  | offline view r => exact h.updateOffline hi view r
  | taunt view r state => exact h.updateTauntState hi view r state
  | suppressed view canExpire r => exact h.evaluateSuppressedRef hi view canExpire r
  | wake hr hsup => exact h.wake hi hr hsup
  | temp a hu => exact h.updateMyTempModifiers hi hu
  | manager a hm => exact h.setManager hm.sorted
  | unregister r => exact h.unregisterAndFree hi r

theorem threatMoves_ordered (h : t.Ordered) (hi : t.Indexed) (hmoves : ThreatMoves attentive t t') :
    t'.Ordered := by
  induction hmoves with
  | refl => exact h
  | tail hpre hmove ih => exact threatMove_ordered ih (threatMoves_indexed hi hpre) hmove

/-- What the log and the heaps have to do with each other, as a property of
one state. -/
structure HeapSound (t : ThreatState U F H) : Prop where
  log : LogSound t.log
  heap : ∀ o, HeapOrdered t.less (t.manager o).sortedThreatList
  top : ∀ {o r ref}, MutableHeap.top (t.manager o).sortedThreatList = some r →
    t.refs r = some ref → ∀ r' ∈ t.sorted o, ∀ ref', t.refs r' = some ref' →
    ref'.rank ≤ ref.rank

theorem Ordered.heapSound (h : t.Ordered) : t.HeapSound where
  log := h.log
  heap := h.heap
  top := by
    intro o r ref htop hr r' hmem ref' hr'
    have hle := LawfulMutableHeap.top_greatest t.less_byRank.strictWeak (h.heap o) htop hmem
    rw [t.less_byRank.eq_false_iff, rank_of_refs hr, rank_of_refs hr'] at hle
    exact WithBot.coe_le_coe.1 hle

end ThreatState

namespace World

variable [LawfulMutableHeap H]

theorem ordered_invariant :
    Invariant attentive fun s : World U F H => s.ThreatSound ∧ s.threat.Ordered where
  consistent h := h.1.consistent
  combat h hc hfind := ⟨(threatSound_invariant attentive).combat h.1 hc hfind, h.2⟩
  endCombat := by
    intro s env r h
    refine ⟨endCombat_threatSound h.1 env r, ?_⟩
    rw [endCombat]
    split
    · exact h.2
    · exact ThreatState.threatMoves_ordered h.2 h.1.indexed
        ((ThreatState.clearThreat_moves _ _ _ _ _).trans
          (ThreatState.clearThreat_moves _ _ _ _ _))
  threat h hmove :=
    ⟨(threatSound_invariant attentive).threat h.1 hmove,
      ThreatState.threatMove_ordered h.2 h.1.indexed hmove⟩
  create := by
    intro s view a target h hin hno
    exact ⟨(threatSound_invariant attentive).create view h.1 hin hno,
      h.2.createThreatRef h.1.indexed view a target⟩

/-- In every run that never scales a reference with threat by a negative
factor, and never updates temporary modifiers that move apart, each change is
announced in the direction it went, and every heap has its greatest reference
on top. -/
theorem run_heapSound (hundredth : F) (canHaveThreatList : U → Bool)
    (calls : List (Env U F × Op U F))
    (hok : RunOk attentive hundredth (init canHaveThreatList : World U F H) calls) :
    (run hundredth (init canHaveThreatList : World U F H) calls).threat.HeapSound :=
  (run_invariant ordered_invariant hundredth calls
    ⟨init_threatSound canHaveThreatList, ThreatState.init_ordered canHaveThreatList⟩
    hok).2.heapSound

/-- One creature, two players; the aura goes to the one it threatens less. -/
def auraCalls : List (Env Nat Int × Op Nat Int) :=
  [(arena, .addThreat 1 2 10 none false false), (arena, .addThreat 1 4 80 none false false),
    (arena, .updateMyTempModifiers 2 100)]

theorem run_heapSound_aura :
    (run 0 arenaInit auraCalls).threat.HeapSound ∧
    top ((run 0 arenaInit auraCalls).threat.manager 1).sortedThreatList = some 0 := by
  refine ⟨run_heapSound 0 _ auraCalls ⟨trivial, trivial, ?_, trivial⟩, by decide⟩
  -- a single reference cannot move apart
  rintro e₀ ref₀ h₀ hr₀ e he ref hr
  have hone : ((run 0 arenaInit (auraCalls.take 2)).threat.manager 2).threatenedByMe.entries =
      [⟨1, 0⟩] := by decide
  obtain rfl : ⟨1, 0⟩ = e₀ := Option.some.inj ((congrArg List.head? hone).symm.trans h₀)
  obtain rfl : e = ⟨1, 0⟩ := List.mem_singleton.1 (hone ▸ he)
  obtain rfl : ref₀ = ref := Option.some.inj (hr₀.symm.trans hr)
  split <;> rename_i hlt
  · exact getThreat_mono (le_refl _) (le_of_lt hlt)
  · exact getThreat_mono (le_refl _) (not_lt.1 hlt)

/-- The aura is on the player when a second creature joins, with a reference
whose modifier is still 0. A weaker aura then looks like an increase. -/
def lateCreatureCalls : List (Env Nat Int × Op Nat Int) :=
  auraCalls ++
    [(arena, .addThreat 3 2 10 none false false), (arena, .updateMyTempModifiers 2 50)]

/-- The first creature keeps a reference with threat 60 above one with 80. -/
theorem lateCreature_not_heapSound :
    ¬ (run 0 arenaInit lateCreatureCalls).threat.HeapSound := by
  intro h
  have htop : top ((run 0 arenaInit lateCreatureCalls).threat.manager 1).sortedThreatList =
      some 0 := by decide
  have hhigh : (run 0 arenaInit lateCreatureCalls).threat.refs 0 =
      some ⟨1, 2, .online, 10, 50, 0⟩ := by rfl
  have hlow : (run 0 arenaInit lateCreatureCalls).threat.refs 1 =
      some ⟨1, 4, .online, 80, 0, 0⟩ := by rfl
  exact absurd (h.top htop hhigh 1 (by decide) _ hlow) (by decide)

end World

end Sunstrider.Combat
