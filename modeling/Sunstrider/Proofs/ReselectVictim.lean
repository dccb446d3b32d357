import Sunstrider.Proofs.ThreatOrder

/-!
# Who is attacked next

`ReselectVictim` looks at the greatest reference first and goes down the heap only where it
must. What it looks for can be said in one line: the first reference in the order of the heap
that is the old victim, or has more than 130% of the old victim's threat, or has more than
110% and stands in melee range. The early exits are right because a weight only moves the old
victim up in the order by which the heap goes: what does not pass the weighted old victim is
passed by nothing below it, and the old victim itself is in the heap, so the search ends there
at the latest.
-/

set_option linter.unusedSectionVars false

namespace Sunstrider.Combat

open Lib MutableHeap

variable {U : Type} [DecidableEq U] {F : Type} [ThreatAmount F]
variable {H : Type} [MutableHeap H RefId]

/-! ## The comparator with a weight -/

theorem weighted_mono {ref : ThreatReference U F} {w w' : F}
    (h : ref.getThreat * w ≤ ref.getThreat * w') : ref.weighted w ≤ ref.weighted w' := by
  rw [ThreatReference.weighted, ThreatReference.weighted, Prod.Lex.toLex_le_toLex]
  exact Or.inr ⟨rfl, Prod.Lex.toLex_le_toLex.2 (Or.inr ⟨rfl, h⟩)⟩

/-- `1.1f` and `1.3f` are weights of at least one, and the second weighs more. -/
structure VictimWeights.Sound (w : VictimWeights F) : Prop where
  one_le : 1 ≤ w.w110
  mono : ∀ x : F, 0 ≤ x → x * w.w110 ≤ x * w.w130

theorem getThreat_nonneg (ref : ThreatReference U F) : 0 ≤ ref.getThreat := le_max_right _ _

theorem isAvailable_of_online {a b : ThreatReference U F} (ha : a.isAvailable = true)
    (hle : a.online.toNat ≤ b.online.toNat) : b.isAvailable = true := by
  unfold ThreatReference.isAvailable at ha ⊢
  cases ha' : a.online with
  | offline =>
      rw [ha'] at ha
      cases ha
  | suppressed =>
      cases hb : b.online with
      | offline =>
          rw [ha', hb] at hle
          exact absurd hle (by decide)
      | suppressed => rfl
      | online => rfl
  | online =>
      cases hb : b.online with
      | offline =>
          rw [ha', hb] at hle
          exact absurd hle (by decide)
      | suppressed => rfl
      | online => rfl

theorem fst_le_of_toLex_le {β : Type} [LinearOrder β] {m n : ℕ} {x y : β}
    (h : toLex (m, x) ≤ toLex (n, y)) : m ≤ n := by
  rcases Prod.Lex.toLex_le_toLex.1 h with hlt | ⟨heq, -⟩
  · exact Nat.le_of_lt hlt
  · exact Nat.le_of_eq heq

/-- Who ranks no lower than one that is available is available. -/
theorem isAvailable_of_rank {a b : ThreatReference U F} (ha : a.isAvailable = true)
    (hle : a.rank ≤ b.rank) : b.isAvailable = true :=
  isAvailable_of_online ha (fst_le_of_toLex_le hle)

theorem isAvailable_of_le {a b : ThreatReference U F} {w : F} (ha : a.isAvailable = true)
    (hle : a.weighted w ≤ b.rank) : b.isAvailable = true :=
  isAvailable_of_online ha (fst_le_of_toLex_le hle)

theorem isOffline_eq (ref : ThreatReference U F) : ref.isOffline = !ref.isAvailable := by
  unfold ThreatReference.isOffline ThreatReference.isAvailable
  cases ref.online <;> rfl

namespace ThreatState

/-! ## What is asked for -/

/-- The fixate target, if it is available. -/
def fixated (t : ThreatState U F H) (a : U) : Option RefId :=
  (t.manager a).fixateRef.filter fun r => (t.refs r).any ThreatReference.isAvailable

/-- The victim so far, unless it is offline. -/
def oldVictim (t : ThreatState U F H) (a : U) : Option (RefId × ThreatReference U F) :=
  match (t.manager a).currentVictimRef with
  | none => none
  | some old => ((t.refs old).filter fun ref => !ref.isOffline).map fun ref => (old, ref)

/-- A reference that may be the next victim. -/
def qualifies (view : ThreatView U F) (w : VictimWeights F) (t : ThreatState U F H) (a : U)
    (r : RefId) : Bool :=
  (t.refs r).any fun ref => ref.isAvailable &&
    match t.oldVictim a with
    | none => true
    | some (old, oldRef) =>
        decide (r = old) || compareReferencesLT oldRef ref w.w130 ||
          (compareReferencesLT oldRef ref w.w110 && view.isWithinMeleeRange a ref.victim)

/-- The fixate target; nobody, if nobody is available; else the first in the order of the
heap that qualifies. -/
def firstVictim (view : ThreatView U F) (w : VictimWeights F) (t : ThreatState U F H)
    (a : U) : Option RefId :=
  let list := ordered t.less (t.manager a).sortedThreatList
  match t.fixated a with
  | some r => some r
  | none =>
      if list.any fun r => (t.refs r).any ThreatReference.isAvailable then
        list.find? (qualifies view w t a)
      else none

/-- What `ReselectVictim` is to return, said without the heap: the fixate target; nobody, if
nobody is available; else one that qualifies and ranks no lower than any other that does. -/
def VictimByRule (view : ThreatView U F) (w : VictimWeights F) (t : ThreatState U F H)
    (a : U) (victim : Option RefId) : Prop :=
  match t.fixated a, victim with
  | some r, _ => victim = some r
  | none, none => ∀ r ∈ t.sorted a, (t.refs r).any ThreatReference.isAvailable = false
  | none, some r => r ∈ t.sorted a ∧ qualifies view w t a r = true ∧
      ∀ r' ∈ t.sorted a, qualifies view w t a r' = true → t.rank r' ≤ t.rank r

/-- `ThreatManager::ReselectVictim`, with the state it leaves. -/
def reselectVictim (view : ThreatView U F) (w : VictimWeights F) (t : ThreatState U F H)
    (a : U) : ThreatState U F H × Option RefId :=
  if (elems (t.manager a).sortedThreatList).isEmpty then (t, none)
  else
    let t := t.forEach (updateOffline view) (t.manager a).myThreatListEntries.entries
    (t, t.chooseVictim view w a)

/-! ## The search down the heap -/

theorem find?_only {p : RefId → Bool} {l : List RefId} {x : RefId} (hx : x ∈ l)
    (hp : p x = true) (honly : ∀ y ∈ l, p y = true → y = x) : l.find? p = some x := by
  cases hfind : l.find? p with
  | none => exact absurd hp (by simp [List.find?_eq_none.1 hfind x hx])
  | some y => rw [honly y (List.mem_of_find?_eq_some hfind) (List.find?_some hfind)]

/-- The search ends with a victim before the heap does, if the old victim is in it. -/
theorem isSome_scanOrdered {view : ThreatView U F} {t : ThreatState U F H} {a : U}
    {old : RefId} {oldRef : ThreatReference U F} {w110 : F} {l : List RefId} (hold : old ∈ l)
    (hlive : ∀ r ∈ l, (t.refs r).isSome) :
    (scanOrdered view t a old oldRef w110 l).isSome := by
  induction l with
  | nil => cases hold
  | cons next rest ih =>
      rw [scanOrdered]
      by_cases hnext : next = old
      · rw [if_pos hnext]
        rfl
      · rw [if_neg hnext]
        obtain ⟨ref, href⟩ := Option.isSome_iff_exists.1 (hlive next List.mem_cons_self)
        rw [href]
        dsimp only
        split
        · rfl
        · split
          · rfl
          · refine ih ?_ fun r hr => hlive r (List.mem_cons_of_mem next hr)
            rcases List.mem_cons.1 hold with h | h
            · exact absurd h.symm hnext
            · exact h

section Search

variable {view : ThreatView U F} {w : VictimWeights F} {t : ThreatState U F H} {a : U}
variable {old : RefId} {oldRef : ThreatReference U F}

variable (view w) in
theorem qualifies_old (hov : t.oldVictim a = some (old, oldRef)) {r : RefId}
    {ref : ThreatReference U F} (hr : t.refs r = some ref) :
    qualifies view w t a r = true ↔ ref.isAvailable = true ∧ (r = old ∨
      oldRef.weighted w.w130 < ref.rank ∨
        (oldRef.weighted w.w110 < ref.rank ∧ view.isWithinMeleeRange a ref.victim = true)) := by
  unfold qualifies
  rw [hr, hov]
  simp only [Option.any_some, Bool.and_eq_true, Bool.or_eq_true, decide_eq_true_eq,
    compareReferencesLT_weighted, or_assoc]

theorem oldVictim_some (hov : t.oldVictim a = some (old, oldRef)) :
    (t.manager a).currentVictimRef = some old ∧ t.refs old = some oldRef ∧
      oldRef.isAvailable = true := by
  unfold oldVictim at hov
  cases hcur : (t.manager a).currentVictimRef with
  | none =>
      rw [hcur] at hov
      cases hov
  | some r =>
      rw [hcur] at hov
      obtain ⟨ref, href, heq⟩ := Option.map_eq_some_iff.1 hov
      cases heq
      obtain ⟨href, hoff⟩ := Option.filter_eq_some_iff.1 href
      rw [isOffline_eq, Bool.not_not] at hoff
      exact ⟨rfl, href, hoff⟩

/-- Going down a list in order gives the first that qualifies, if none has more than 130%. -/
theorem scanOrdered_eq (hov : t.oldVictim a = some (old, oldRef)) {l : List RefId}
    (hold : old ∈ l) (hlive : ∀ r ∈ l, (t.refs r).isSome)
    (hdesc : l.Pairwise fun x y => t.rank y ≤ t.rank x)
    (h130 : ∀ r ∈ l, ∀ ref, t.refs r = some ref → ¬ oldRef.weighted w.w130 < ref.rank) :
    scanOrdered view t a old oldRef w.w110 l = l.find? (qualifies view w t a) := by
  obtain ⟨-, holdRef, havail⟩ := oldVictim_some hov
  induction l with
  | nil => cases hold
  | cons next rest ih =>
      obtain ⟨ref, href⟩ := Option.isSome_iff_exists.1 (hlive next List.mem_cons_self)
      obtain ⟨hbelow, hdesc⟩ := List.pairwise_cons.1 hdesc
      rw [scanOrdered, List.find?_cons]
      by_cases hnext : next = old
      · have hq : qualifies view w t a next = true := by
          subst hnext
          exact (qualifies_old view w hov holdRef).2 ⟨havail, .inl rfl⟩
        rw [if_pos hnext, hq]
      · rw [if_neg hnext, href]
        dsimp only
        have hrest : old ∈ rest := by
          rcases List.mem_cons.1 hold with h | h
          · exact absurd h.symm hnext
          · exact h
        by_cases h110 : oldRef.weighted w.w110 < ref.rank
        · have hlt := (compareReferencesLT_weighted oldRef ref w.w110).2 h110
          rw [hlt, if_neg (by decide)]
          have hnew : ref.isAvailable = true := isAvailable_of_le havail (le_of_lt h110)
          by_cases hmelee : view.isWithinMeleeRange a ref.victim = true
          · have hq := (qualifies_old view w hov href).2
              ⟨hnew, .inr (.inr ⟨h110, hmelee⟩)⟩
            rw [if_pos hmelee, hq]
          · have hq : qualifies view w t a next = false := by
              rw [← Bool.not_eq_true, qualifies_old view w hov href]
              rintro ⟨-, h | h | h⟩
              · exact hnext h
              · exact h130 next List.mem_cons_self ref href h
              · exact hmelee h.2
            rw [if_neg hmelee, hq]
            exact ih hrest (fun r hr => hlive r (List.mem_cons_of_mem next hr)) hdesc
              fun r hr => h130 r (List.mem_cons_of_mem next hr)
        · have hlt : compareReferencesLT oldRef ref w.w110 = false := by
            rw [← Bool.not_eq_true, compareReferencesLT_weighted]
            exact h110
          rw [hlt, if_pos (by decide)]
          -- nothing from here on has more than 110%, so only the old victim itself is left
          have honly : ∀ y ∈ next :: rest, qualifies view w t a y = true → y = old := by
            intro y hy hq
            obtain ⟨yref, hyref⟩ := Option.isSome_iff_exists.1 (hlive y hy)
            have hle : yref.rank ≤ ref.rank := by
              rcases List.mem_cons.1 hy with rfl | hy'
              · rw [href] at hyref
                cases hyref
                exact le_refl _
              · have h := hbelow y hy'
                rw [rank_of_refs href, rank_of_refs hyref] at h
                exact WithBot.coe_le_coe.1 h
            rcases ((qualifies_old view w hov hyref).1 hq).2 with h | h | h
            · exact h
            · exact absurd h (h130 y hy yref hyref)
            · exact absurd (lt_of_lt_of_le h.1 hle) h110
          have hfind := find?_only (List.mem_cons_of_mem next hrest)
            ((qualifies_old view w hov holdRef).2 ⟨havail, .inl rfl⟩) honly
          rw [List.find?_cons] at hfind
          exact hfind.symm

/-! ## The choice -/

theorem Indexed.isSome_refs (hi : t.Indexed) {r : RefId} (hr : r ∈ t.sorted a) :
    (t.refs r).isSome := by
  obtain ⟨v, hv⟩ := hi.heap.1 hr
  have hsides := hi.held hv
  rw [sides] at hsides
  obtain ⟨ref, href, -⟩ := Option.map_eq_some_iff.1 hsides
  rw [href]
  rfl

/-- With an old victim the early exits of `ReselectVictim` and its search give the first of
the list that qualifies. -/
theorem chooseVictim_old (hw : w.Sound) (hov : t.oldVictim a = some (old, oldRef))
    {highest : RefId} {high : ThreatReference U F} {rest : List RefId}
    (hold : old ∈ highest :: rest) (hlive : ∀ r ∈ highest :: rest, (t.refs r).isSome)
    (hdesc : (highest :: rest).Pairwise fun x y => t.rank y ≤ t.rank x)
    (hbelow : ∀ r ∈ highest :: rest, ∀ ref, t.refs r = some ref → ref.rank ≤ high.rank)
    (hhigh : t.refs highest = some high) :
    (if (oldRef.isOffline || decide (highest = old)) = true then some highest
      else if (!compareReferencesLT oldRef high w.w110) = true then some old
      else if compareReferencesLT oldRef high w.w130 = true then some highest
      else if view.isWithinMeleeRange a high.victim = true then some highest
      else scanOrdered view t a old oldRef w.w110 (highest :: rest)) =
        (highest :: rest).find? (qualifies view w t a) := by
  obtain ⟨-, holdRef, havail⟩ := oldVictim_some hov
  have hqOld := (qualifies_old view w hov holdRef).2 ⟨havail, .inl rfl⟩
  have hoff : oldRef.isOffline = false := by rw [isOffline_eq, havail]; rfl
  rw [hoff, Bool.false_or]
  by_cases htop : highest = old
  · rw [if_pos (decide_eq_true htop), List.find?_cons, htop, hqOld]
  rw [if_neg (by simpa using htop)]
  by_cases h110 : oldRef.weighted w.w110 < high.rank
  · have hlt := (compareReferencesLT_weighted oldRef high w.w110).2 h110
    have hnew : high.isAvailable = true := isAvailable_of_le havail (le_of_lt h110)
    rw [hlt, if_neg (by decide)]
    by_cases h130 : oldRef.weighted w.w130 < high.rank
    · rw [if_pos ((compareReferencesLT_weighted oldRef high w.w130).2 h130), List.find?_cons,
        (qualifies_old view w hov hhigh).2 ⟨hnew, .inr (.inl h130)⟩]
    rw [if_neg (by rw [compareReferencesLT_weighted]; exact h130)]
    by_cases hmelee : view.isWithinMeleeRange a high.victim = true
    · rw [if_pos hmelee, List.find?_cons,
        (qualifies_old view w hov hhigh).2 ⟨hnew, .inr (.inr ⟨h110, hmelee⟩)⟩]
    · rw [if_neg hmelee]
      exact scanOrdered_eq hov hold hlive hdesc fun r hr ref href h =>
        h130 (lt_of_lt_of_le h (hbelow r hr ref href))
  · rw [if_pos (by rw [Bool.not_eq_true', ← Bool.not_eq_true, compareReferencesLT_weighted]
                   exact h110)]
    refine (find?_only hold hqOld fun r hr hq => ?_).symm
    obtain ⟨ref, href⟩ := Option.isSome_iff_exists.1 (hlive r hr)
    have hle := hbelow r hr ref href
    rcases ((qualifies_old view w hov href).1 hq).2 with h | h | h
    · exact h
    · -- 130% of a threat is no less than 110% of it
      exact absurd (lt_of_le_of_lt (weighted_mono (hw.mono _ (getThreat_nonneg oldRef)))
        (lt_of_lt_of_le h hle)) h110
    · exact absurd (lt_of_lt_of_le h.1 hle) h110

variable [LawfulMutableHeap H] [OrderedIteration H]

/-- An empty threat list gives no victim. -/
theorem chooseVictim_empty (hi : t.Indexed) (hempty : elems (t.manager a).sortedThreatList = []) :
    t.chooseVictim view w a = none := by
  have hnone : ∀ {r : RefId}, ¬ ∃ v, t.entry a v = some r := by
    intro r hr
    have hmem := hi.heap.2 hr
    rw [sorted, hempty] at hmem
    cases hmem
  have hfix : (t.manager a).fixateRef = none := by
    cases hf : (t.manager a).fixateRef with
    | none => rfl
    | some r => exact absurd (hi.fixate hf) hnone
  have htop : top (t.manager a).sortedThreatList = none := by
    cases ht : top (t.manager a).sortedThreatList with
    | none => rfl
    | some r =>
        have hmem := LawfulMutableHeap.top_mem ht
        rw [hempty] at hmem
        cases hmem
  unfold chooseVictim
  dsimp only
  rw [hfix, htop]

/-- The choice is the one by the rule, when the heap is in order. -/
theorem chooseVictim_eq (hw : w.Sound) (hi : t.Indexed)
    (hheap : HeapOrdered t.less (t.manager a).sortedThreatList) :
    t.chooseVictim view w a = t.firstVictim view w a := by
  have hlive : ∀ r ∈ ordered t.less (t.manager a).sortedThreatList, (t.refs r).isSome :=
    fun r hr => hi.isSome_refs (LawfulMutableHeap.mem_ordered.1 hr)
  have hdesc : (ordered t.less (t.manager a).sortedThreatList).Pairwise
      fun x y => t.rank y ≤ t.rank x := by
    refine (OrderedIteration.ordered_descending t.less_byRank.strictWeak hheap).imp ?_
    intro x y hxy
    exact (t.less_byRank.eq_false_iff x y).1 hxy
  have hhead : (ordered t.less (t.manager a).sortedThreatList).head? =
      top (t.manager a).sortedThreatList := OrderedIteration.ordered_head
  have hcurrent : ∀ r, (t.manager a).currentVictimRef = some r →
      r ∈ ordered t.less (t.manager a).sortedThreatList := fun r hr =>
    LawfulMutableHeap.mem_ordered.2 (hi.heap.2 (hi.current hr))
  unfold chooseVictim firstVictim
  dsimp only
  generalize ordered t.less (t.manager a).sortedThreatList = list at *
  split <;> rename_i hfixed <;> replace hfixed := Eq.trans (a := t.fixated a) (by
    unfold fixated
    cases (t.manager a).fixateRef with
    | none => rfl
    | some r =>
        cases hr : t.refs r with
        | none => simp [Option.filter, hr]
        | some ref => simp [Option.filter, hr]) hfixed
  · rw [hfixed]
  · rw [hfixed]
    · dsimp only
      rw [← hhead]
      cases list with
      | nil => rfl
      | cons highest rest =>
          obtain ⟨high, hhigh⟩ := Option.isSome_iff_exists.1 (hlive highest List.mem_cons_self)
          -- nothing in the heap ranks above its top
          have hbelow : ∀ r ∈ highest :: rest, ∀ ref, t.refs r = some ref →
              ref.rank ≤ high.rank := by
            intro r hr ref href
            rcases List.mem_cons.1 hr with rfl | hr
            · rw [hhigh] at href
              cases href
              exact le_refl _
            · have h := (List.pairwise_cons.1 hdesc).1 r hr
              rw [rank_of_refs hhigh, rank_of_refs href] at h
              exact WithBot.coe_le_coe.1 h
          have hqualifies : ∀ r ref, t.refs r = some ref → t.oldVictim a = none →
              (qualifies view w t a r = true ↔ ref.isAvailable = true) := by
            intro r ref href hov
            unfold qualifies
            rw [href, hov]
            simp
          rw [List.head?_cons]
          dsimp only
          rw [hhigh]
          dsimp only
          by_cases havail : high.isAvailable = true
          · have hany : (highest :: rest).any
                (fun r => (t.refs r).any ThreatReference.isAvailable) = true := by
              rw [List.any_cons, hhigh, Option.any_some, havail, Bool.true_or]
            rw [havail, Bool.not_true, if_neg Bool.false_ne_true, if_pos hany]
            have hnoOld : t.oldVictim a = none →
                some highest = (highest :: rest).find? (qualifies view w t a) := by
              intro hov
              rw [List.find?_cons, (hqualifies highest high hhigh hov).2 havail]
            cases hcur : (t.manager a).currentVictimRef with
            | none => exact hnoOld (by rw [oldVictim, hcur])
            | some old =>
                dsimp only
                cases hold : t.refs old with
                | none => exact hnoOld (by rw [oldVictim, hcur]; simp [hold])
                | some oldRef =>
                    dsimp only
                    by_cases hoff : oldRef.isOffline = true
                    · rw [hoff, Bool.true_or, if_pos rfl]
                      refine hnoOld ?_
                      rw [oldVictim, hcur]
                      simp [hold, hoff, Option.filter]
                    · have hov : t.oldVictim a = some (old, oldRef) := by
                        rw [oldVictim, hcur]
                        simp [hold, hoff, Option.filter]
                      exact chooseVictim_old hw hov (hcurrent old hcur) hlive hdesc
                        hbelow hhigh
          · rw [Bool.not_eq_true] at havail
            have hnone : ¬ (highest :: rest).any
                (fun r => (t.refs r).any ThreatReference.isAvailable) = true := by
              rw [List.any_eq_true]
              rintro ⟨r, hr, hra⟩
              obtain ⟨ref, href, hra⟩ := (Option.any_eq_true _ _).1 hra
              have hhere := isAvailable_of_rank hra (hbelow r hr ref href)
              rw [havail] at hhere
              cases hhere
            rw [havail, Bool.not_false, if_pos rfl, if_neg hnone]

variable (view w) in
/-- Whoever is available has somebody to attack. -/
theorem exists_qualifies (hcurrent : ∀ r, (t.manager a).currentVictimRef = some r →
    r ∈ t.sorted a) {r : RefId} (hr : r ∈ t.sorted a)
    (havail : (t.refs r).any ThreatReference.isAvailable = true) :
    ∃ r' ∈ t.sorted a, qualifies view w t a r' = true := by
  cases hov : t.oldVictim a with
  | none =>
      refine ⟨r, hr, ?_⟩
      unfold qualifies
      rw [hov]
      simpa using havail
  | some p =>
      obtain ⟨hcur, holdRef, hold⟩ := oldVictim_some hov
      exact ⟨p.1, hcurrent p.1 hcur, (qualifies_old view w hov holdRef).2 ⟨hold, .inl rfl⟩⟩

/-- The first one in the order of an ordered heap is the one by the rule. -/
theorem firstVictim_byRule (hi : t.Indexed)
    (hheap : HeapOrdered t.less (t.manager a).sortedThreatList) :
    t.VictimByRule view w a (t.firstVictim view w a) := by
  have hmem : ∀ r, r ∈ ordered t.less (t.manager a).sortedThreatList ↔ r ∈ t.sorted a :=
    fun r => LawfulMutableHeap.mem_ordered
  have hdesc := OrderedIteration.ordered_descending t.less_byRank.strictWeak hheap
  unfold VictimByRule firstVictim
  dsimp only
  generalize ordered t.less (t.manager a).sortedThreatList = list at *
  cases t.fixated a with
  | some r => rfl
  | none =>
      dsimp only
      split <;> rename_i hvictim
      · cases hvictim
      · split at hvictim <;> rename_i hany
        · intro r hr
          rw [← Bool.not_eq_true]
          intro havail
          obtain ⟨r', hr', hq⟩ := exists_qualifies view w
            (fun r hr => hi.heap.2 (hi.current hr)) hr havail
          exact List.find?_eq_none.1 hvictim r' ((hmem r').2 hr') hq
        · intro r hr
          rw [← Bool.not_eq_true]
          exact fun havail => hany (List.any_eq_true.2 ⟨r, (hmem r).2 hr, havail⟩)
      · split at hvictim
        · obtain ⟨hq, before, after, hlist, hbefore⟩ := List.find?_eq_some_iff_append.1 hvictim
          subst hlist
          refine ⟨(hmem _).1 (by simp), hq, fun r' hr' hq' => ?_⟩
          rcases List.mem_append.1 ((hmem r').2 hr') with h | h
          · have hnot := hbefore r' h
            rw [hq'] at hnot
            cases hnot
          · rcases List.mem_cons.1 h with rfl | h
            · exact le_refl _
            · have hbelow := (List.pairwise_cons.1 (List.pairwise_append.1 hdesc).2.1).1 r' h
              exact (t.less_byRank.eq_false_iff _ _).1 hbelow
        · cases hvictim

/-- With its heap in order, `ReselectVictim` returns the victim by the rule, and the search
down the heap, wherever the victim so far is, does not come to the assertion behind it. -/
theorem reselectVictim_byRule (hw : w.Sound) (hi : t.Indexed)
    (hheap : HeapOrdered t.less (t.manager a).sortedThreatList) :
    let found := t.reselectVictim view w a
    found.1.VictimByRule view w a found.2 ∧
      ∀ old oldRef, (found.1.manager a).currentVictimRef = some old →
        (scanOrdered view found.1 a old oldRef w.w110
          (ordered found.1.less (found.1.manager a).sortedThreatList)).isSome := by
  intro found
  have hindexed : found.1.Indexed := by
    show (t.reselectVictim view w a).1.Indexed
    unfold reselectVictim
    split
    · exact hi
    · exact hi.of_sameIndex (forEach_sameIndex (updateOffline_sameIndex view) _ t)
  have hordered : HeapOrdered found.1.less (found.1.manager a).sortedThreatList := by
    show HeapOrdered (t.reselectVictim view w a).1.less
      ((t.reselectVictim view w a).1.manager a).sortedThreatList
    unfold reselectVictim
    split
    · exact hheap
    · exact heapOrdered_updateOfflines view _ hi hheap
  refine ⟨?_, fun old oldRef hold => isSome_scanOrdered ?_ fun r hr => ?_⟩
  · have hfound : found.2 = found.1.firstVictim view w a := by
      rw [← chooseVictim_eq hw hindexed hordered]
      show (t.reselectVictim view w a).2 = (t.reselectVictim view w a).1.chooseVictim view w a
      unfold reselectVictim
      split <;> rename_i hempty
      · exact (chooseVictim_empty hi (List.isEmpty_iff.1 hempty)).symm
      · rfl
    rw [hfound]
    exact firstVictim_byRule hindexed hordered
  · exact LawfulMutableHeap.mem_ordered.2 (hindexed.heap.2 (hindexed.current hold))
  · exact hindexed.isSome_refs (LawfulMutableHeap.mem_ordered.1 hr)

end Search

end ThreatState

/-! Threat in fractions, so that the weights can be 1.1 and 1.3. -/

namespace World

def fractionArena : Env Nat Rat where
  view :=
    { arena.view with
      calculateModifiedThreat := fun amount _ => amount
      calculatePct := fun amount pct => amount * pct / 100
      uninitialisedTaunt := 0 }
  weights := ⟨11 / 10, 13 / 10⟩

def fractionInit : World Nat Rat (SortedQueue RefId) := init fun u => u % 2 = 1

theorem fractionArena_weights : fractionArena.weights.Sound where
  one_le := by decide +kernel
  mono := by
    intro x hx
    exact mul_le_mul_of_nonneg_left (by decide +kernel) hx

/-- One creature attacks a player who is then passed by another one. -/
def passedCalls : List (Env Nat Rat × Op Nat Rat) :=
  [(fractionArena, .addThreat 1 2 10 none false false), (fractionArena, .updateVictim 1),
    (fractionArena, .addThreat 1 4 80 none false false)]

theorem reselectVictim_passed :
    let found := (run 0 fractionInit passedCalls).threat.reselectVictim fractionArena.view
      fractionArena.weights 1
    found.2 = some 1 ∧
      found.1.VictimByRule fractionArena.view fractionArena.weights 1 found.2 := by
  intro found
  have hrun := run_invariant ordered_invariant 0 passedCalls
    ⟨init_threatSound _, ThreatState.init_ordered _⟩ (s := fractionInit)
    ⟨trivial, trivial, trivial, trivial⟩
  exact ⟨by decide +kernel,
    (ThreatState.reselectVictim_byRule fractionArena_weights hrun.1.indexed
      (hrun.2.heap 1)).1⟩

/-- The creature attacks the player under the aura when a second creature joins; the weaker
aura then leaves its reference on top although it went down. -/
def staleTopCalls : List (Env Nat Rat × Op Nat Rat) :=
  [(fractionArena, .addThreat 1 2 10 none false false),
    (fractionArena, .addThreat 1 4 80 none false false),
    (fractionArena, .updateMyTempModifiers 2 100), (fractionArena, .updateVictim 1),
    (fractionArena, .addThreat 3 2 10 none false false),
    (fractionArena, .updateMyTempModifiers 2 50)]

/-- The creature keeps to a victim with threat 60, though another one has 80. -/
theorem staleTop_not_byRule :
    let found := (run 0 fractionInit staleTopCalls).threat.reselectVictim fractionArena.view
      fractionArena.weights 1
    ¬ found.1.VictimByRule fractionArena.view fractionArena.weights 1 found.2 := by
  intro found h
  have hfix : found.1.fixated 1 = none := by decide +kernel
  have hvictim : found.2 = some 0 := by decide +kernel
  unfold ThreatState.VictimByRule at h
  rw [hfix, hvictim] at h
  have hmem : 1 ∈ found.1.sorted 1 := by decide +kernel
  have hq : found.1.qualifies fractionArena.view fractionArena.weights 1 1 = true := by
    decide +kernel
  exact absurd (h.2.2 1 hmem hq) (by decide +kernel)

end World

end Sunstrider.Combat
