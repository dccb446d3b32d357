import Sunstrider.Combat.CombatManager

/-!
# Combat references stay paired

The header of the combat system promises that a unit is in combat iff it has
a non-suppressed reference, "no exceptions", and that a reference sits in the
maps of both its units. `Linked` is the second half, `FlagOk` the first. Each
operation of `CombatManager.cpp` breaks both on the way, on two units at once;
this file shows for one operation after the other that it has repaired them
when it returns.

`Consistent` is the invariant. `ConsistentBut` is what is left of it in the
middle of an operation, with the units named whose flag is still to be
written.
-/

set_option linter.unusedSectionVars false

namespace Sunstrider.Combat

variable {U : Type} [DecidableEq U]

/-- The two units of a reference, in either order. -/
def CombatReference.Joins (ref : CombatReference U) (a b : U) : Prop :=
  (ref.first = a ∧ ref.second = b) ∨ (ref.first = b ∧ ref.second = a)

instance (ref : CombatReference U) (a b : U) : Decidable (ref.Joins a b) :=
  inferInstanceAs (Decidable ((_ ∧ _) ∨ (_ ∧ _)))

theorem CombatReference.Joins.symm {ref : CombatReference U} {a b : U}
    (h : ref.Joins a b) : ref.Joins b a := Or.symm h

theorem CombatReference.Joins.left {ref : CombatReference U} {a b : U}
    (h : ref.Joins a b) : a = ref.first ∨ a = ref.second := by
  rcases h with ⟨h, -⟩ | ⟨-, h⟩
  · exact Or.inl h.symm
  · exact Or.inr h.symm

namespace CombatState

variable {a c b who : U} {s s' : CombatState U} {r : RefId} {ref ref' : CombatReference U}

/-! ## Reading the maps after a write -/

theorem manager_setManager (s : CombatState U) (a c : U) (m : CombatManager U) :
    (s.setManager a m).manager c = if c = a then m else s.manager c :=
  Function.update_apply _ _ _ _

theorem refs_setRef (s : CombatState U) (r r' : RefId) (ref : CombatReference U) :
    (s.setRef r ref).refs r' = if r' = r then some ref else s.refs r' :=
  Function.update_apply _ _ _ _

theorem refs_freeRef (s : CombatState U) (r r' : RefId) :
    (s.freeRef r).refs r' = if r' = r then none else s.refs r' :=
  Function.update_apply _ _ _ _

theorem find_setManager (s : CombatState U) (a : U) (m : CombatManager U) (k : Bool)
    (c b : U) : (s.setManager a m).find k c b =
      if c = a then (m.refs k).lookup b else s.find k c b := by
  rw [find, manager_setManager]
  split <;> rfl

theorem find_putReference (s : CombatState U) (a guid : U) (r : RefId) (k k' : Bool)
    (c b : U) : (s.putReference a guid r k).find k' c b =
      if k' = k ∧ c = a ∧ b = guid then some r else s.find k' c b := by
  rw [putReference, find_setManager]
  by_cases hc : c = a
  · subst hc
    by_cases hb : b = guid
    · subst hb
      cases k <;> cases k' <;>
        simp [CombatManager.putReference, CombatManager.refs, find]
    · cases k <;> cases k' <;>
        simp [CombatManager.putReference, CombatManager.refs, find, hb,
          AList.lookup_insert_ne]
  · simp [hc]

theorem find_purgeReference (s : CombatState U) (a guid : U) (k k' : Bool)
    (c b : U) : (s.purgeReference a guid k).find k' c b =
      if k' = k ∧ c = a ∧ b = guid then none else s.find k' c b := by
  rw [purgeReference, find_setManager]
  by_cases hc : c = a
  · subst hc
    by_cases hb : b = guid
    · subst hb
      cases k <;> cases k' <;>
        simp [CombatManager.purgeReference, CombatManager.refs, find]
    · cases k <;> cases k' <;>
        simp [CombatManager.purgeReference, CombatManager.refs, find, hb,
          AList.lookup_erase_ne]
  · simp [hc]

@[simp] theorem refs_purgeReference (s : CombatState U) (a guid : U) (k : Bool) :
    (s.purgeReference a guid k).refs = s.refs := rfl

theorem manager_purgeReference_of_ne (s : CombatState U) (guid : U) (k : Bool) (h : c ≠ a) :
    (s.purgeReference a guid k).manager c = s.manager c :=
  Function.update_of_ne h _ _

theorem manager_putReference_of_ne (s : CombatState U) (guid : U) (r : RefId) (k : Bool)
    (h : c ≠ a) : (s.putReference a guid r k).manager c = s.manager c :=
  Function.update_of_ne h _ _

/-! `updateOwnerCombatState` writes one flag and nothing else. -/

theorem updateOwnerCombatState_eq (s : CombatState U) (a : U) :
    s.updateOwnerCombatState a =
      { s with inCombat := Function.update s.inCombat a (s.hasCombat a) } := by
  rw [updateOwnerCombatState]
  split <;> rename_i h
  · rw [h, Function.update_eq_self]
  · rfl

@[simp] theorem refs_updateOwnerCombatState (s : CombatState U) (a : U) :
    (s.updateOwnerCombatState a).refs = s.refs := by rw [updateOwnerCombatState_eq]

@[simp] theorem manager_updateOwnerCombatState (s : CombatState U) (a : U) :
    (s.updateOwnerCombatState a).manager = s.manager := by
  rw [updateOwnerCombatState_eq]

@[simp] theorem nextRef_updateOwnerCombatState (s : CombatState U) (a : U) :
    (s.updateOwnerCombatState a).nextRef = s.nextRef := by
  rw [updateOwnerCombatState_eq]

@[simp] theorem find_updateOwnerCombatState (s : CombatState U) (a : U) (k : Bool)
    (b c : U) : (s.updateOwnerCombatState a).find k b c = s.find k b c := by
  rw [find, manager_updateOwnerCombatState]; rfl

@[simp] theorem hasCombat_updateOwnerCombatState (s : CombatState U) (a : U) :
    (s.updateOwnerCombatState a).hasCombat = s.hasCombat := by
  rw [updateOwnerCombatState_eq]; rfl

theorem inCombat_updateOwnerCombatState (s : CombatState U) (a c : U) :
    (s.updateOwnerCombatState a).inCombat c =
      if c = a then s.hasCombat a else s.inCombat c := by
  rw [updateOwnerCombatState_eq]
  exact Function.update_apply _ _ _ _

@[simp] theorem find_setRef (s : CombatState U) (r : RefId) (ref : CombatReference U)
    (k : Bool) (a b : U) : (s.setRef r ref).find k a b = s.find k a b := rfl

@[simp] theorem find_freeRef (s : CombatState U) (r : RefId) (k : Bool) (a b : U) :
    (s.freeRef r).find k a b = s.find k a b := rfl

/-! ## What a unit's combat state depends on -/

theorem mem_entries_iff (s : CombatState U) (k : Bool) (a b : U) (r : RefId) :
    (⟨b, r⟩ : Sigma fun _ : U => RefId) ∈ ((s.manager a).refs k).entries ↔
      s.find k a b = some r :=
  (AList.mem_lookup_iff (s := (s.manager a).refs k)).symm

/-- A unit's own maps, and the suppression of what is in them, decide whether
it has combat. -/
theorem hasCombat_congr (hm : s'.manager a = s.manager a)
    (hr : ∀ b r, s.find true a b = some r → (s'.refs r).map (fun ref => ref.isSuppressedFor a) =
      (s.refs r).map (fun ref => ref.isSuppressedFor a)) :
    s'.hasCombat a = s.hasCombat a := by
  have hpvp : s'.hasPvPCombat a = s.hasPvPCombat a := by
    rw [hasPvPCombat, hasPvPCombat, hm]
    rw [Bool.eq_iff_iff, List.any_eq_true, List.any_eq_true]
    refine exists_congr fun e => and_congr_right fun he => ?_
    have hfind : s.find true a e.1 = some e.2 := (s.mem_entries_iff true a e.1 e.2).1 he
    have := hr _ _ hfind
    cases h : s.refs e.2 <;> cases h' : s'.refs e.2 <;> simp_all
  rw [hasCombat, hasCombat, hpvp, hasPvECombat, hasPvECombat, hm]

/-- Every pointer in a map is live, and points at a reference of the map's
kind between the two units. -/
def Held (s : CombatState U) : Prop :=
  ∀ {k a b r}, s.find k a b = some r →
    ∃ ref, s.refs r = some ref ∧ ref.isPvP = k ∧ ref.Joins a b

/-- The header's rule, as the code evaluates it: some reference that is not
suppressed on this side. -/
theorem hasCombat_iff (hh : s.Held) (a : U) :
    s.hasCombat a = true ↔ ∃ k b r ref, s.find k a b = some r ∧ s.refs r = some ref ∧
      ref.isSuppressedFor a = false := by
  constructor
  · intro h
    rw [hasCombat, Bool.or_eq_true] at h
    rcases h with h | h
    · rw [hasPvECombat] at h
      cases he : (s.manager a).pveRefs.entries with
      | nil => rw [he] at h; cases h
      | cons e rest =>
          have hfind : s.find false a e.1 = some e.2 :=
            (s.mem_entries_iff false a e.1 e.2).1 (by
              show e ∈ (s.manager a).pveRefs.entries
              rw [he]; exact List.mem_cons_self)
          obtain ⟨ref, href, hk, -⟩ := hh hfind
          refine ⟨false, e.1, e.2, ref, hfind, href, ?_⟩
          rw [CombatReference.isSuppressedFor]
          cases hp : ref.pvp with
          | none => rfl
          | some p => rw [CombatReference.isPvP, hp] at hk; cases hk
    · rw [hasPvPCombat, List.any_eq_true] at h
      obtain ⟨e, he, hsup⟩ := h
      cases hr : s.refs e.2 with
      | none => rw [hr] at hsup; cases hsup
      | some ref =>
          rw [hr] at hsup
          exact ⟨true, e.1, e.2, ref, (s.mem_entries_iff true a e.1 e.2).1 he, hr,
            by simpa using hsup⟩
  · rintro ⟨k, b, r, ref, hfind, hr, hsup⟩
    have hmem := (s.mem_entries_iff k a b r).2 hfind
    rw [hasCombat, Bool.or_eq_true]
    cases k with
    | false =>
        refine Or.inl ?_
        rw [hasPvECombat]
        cases he : (s.manager a).pveRefs.entries with
        | nil =>
            have hmem' : _ ∈ (s.manager a).pveRefs.entries := hmem
            rw [he] at hmem'
            cases hmem'
        | cons e rest => rfl
    | true =>
        refine Or.inr ?_
        rw [hasPvPCombat, List.any_eq_true]
        exact ⟨_, hmem, by simp [hr, hsup]⟩

/-! ## The invariant -/

/-- References are in the maps of both their units, under the right keys and
in the right kind of map, and nowhere else. -/
structure Linked (s : CombatState U) : Prop where
  held : s.Held
  live : ∀ {r ref}, s.refs r = some ref → ref.first ≠ ref.second ∧
    s.find ref.isPvP ref.first ref.second = some r ∧
    s.find ref.isPvP ref.second ref.first = some r
  exclusive : ∀ {a b}, (s.find false a b).isSome → s.find true a b = none
  fresh : ∀ {r}, s.nextRef ≤ r → s.refs r = none

/-- The in-combat flag of `a` says what `a`'s references say. -/
def FlagOk (s : CombatState U) (a : U) : Prop := s.inCombat a = s.hasCombat a

/-- The invariant of the combat half of a world. -/
structure Consistent (s : CombatState U) : Prop where
  linked : s.Linked
  flag : ∀ a, s.FlagOk a

theorem Linked.find_of_joins (hl : s.Linked) (hr : s.refs r = some ref) (hj : ref.Joins a b) :
    s.find ref.isPvP a b = some r := by
  obtain ⟨-, h1, h2⟩ := hl.live hr
  rcases hj with ⟨rfl, rfl⟩ | ⟨rfl, rfl⟩
  · exact h1
  · exact h2

theorem Linked.find_symm (hl : s.Linked) {k : Bool} (h : s.find k a b = some r) :
    s.find k b a = some r := by
  obtain ⟨ref, hr, rfl, hj⟩ := hl.held h
  exact hl.find_of_joins hr hj.symm

theorem init_consistent : (init : CombatState U).Consistent where
  linked :=
    { held := by intro k a b r h; cases k <;> cases h
      live := by intro r ref h; cases h
      exclusive := by intro a b h; cases h
      fresh := fun _ => rfl }
  flag _ := rfl

/-! ## Writing a reference -/

/-- Timers and suppression flags are not part of the linkage. -/
theorem Linked.setRef (hl : s.Linked) (hr : s.refs r = some ref) (h1 : ref'.first = ref.first)
    (h2 : ref'.second = ref.second) (hk : ref'.isPvP = ref.isPvP) : (s.setRef r ref').Linked where
  held := by
    intro k a b r' h
    obtain ⟨ref₀, hr₀, hk₀, hj₀⟩ := hl.held (show s.find k a b = some r' from h)
    simp only [refs_setRef]
    split <;> rename_i hrr
    · subst hrr
      obtain rfl : ref = ref₀ := Option.some.inj (hr.symm.trans hr₀)
      refine ⟨ref', rfl, hk.trans hk₀, ?_⟩
      rw [CombatReference.Joins, h1, h2]
      exact hj₀
    · exact ⟨ref₀, hr₀, hk₀, hj₀⟩
  live := by
    intro r' ref₀ h
    rw [refs_setRef] at h
    split at h <;> rename_i hrr
    · subst hrr
      obtain rfl : ref' = ref₀ := Option.some.inj h
      rw [h1, h2, hk]
      exact hl.live hr
    · exact hl.live h
  exclusive := hl.exclusive
  fresh := by
    intro r' h
    have hne : r' ≠ r := by
      rintro rfl
      rw [hl.fresh h] at hr
      cases hr
    rw [refs_setRef, if_neg hne]
    exact hl.fresh h

theorem Linked.updateOwnerCombatState (hl : s.Linked) (a : U) :
    (s.updateOwnerCombatState a).Linked where
  held := by
    intro k c b r h
    rw [find_updateOwnerCombatState] at h
    rw [refs_updateOwnerCombatState]
    exact hl.held h
  live := by
    intro r ref h
    rw [refs_updateOwnerCombatState] at h
    simp only [find_updateOwnerCombatState]
    exact hl.live h
  exclusive := by
    intro c b
    simp only [find_updateOwnerCombatState]
    exact hl.exclusive
  fresh := by
    intro r
    simp only [nextRef_updateOwnerCombatState, refs_updateOwnerCombatState]
    exact hl.fresh

/-- A unit that does not hold `r` does not notice a write to it. -/
theorem hasCombat_setRef_of_not_held (h : ∀ b, s.find true a b ≠ some r) :
    (s.setRef r ref').hasCombat a = s.hasCombat a := by
  refine hasCombat_congr rfl fun b r' hf => ?_
  have hne : r' ≠ r := by
    rintro rfl
    exact h b hf
  rw [refs_setRef, if_neg hne]

/-- A write that leaves the suppression on `a`'s side alone does not change
`a`'s combat state. -/
theorem hasCombat_setRef_of_suppressed_eq (hr : s.refs r = some ref)
    (h : ref'.isSuppressedFor a = ref.isSuppressedFor a) :
    (s.setRef r ref').hasCombat a = s.hasCombat a := by
  refine hasCombat_congr rfl fun b r' _ => ?_
  rw [refs_setRef]
  split <;> rename_i hrr
  · rw [hrr, hr, Option.map_some, Option.map_some, h]
  · rfl

theorem hasCombat_freeRef_of_not_held (h : ∀ b, s.find true a b ≠ some r) :
    (s.freeRef r).hasCombat a = s.hasCombat a := by
  refine hasCombat_congr rfl fun b r' hf => ?_
  have hne : r' ≠ r := by
    rintro rfl
    exact h b hf
  rw [refs_freeRef, if_neg hne]

/-! ## Between two updates

In the middle of an operation the flags of the units it works on may be
stale. `ConsistentBut s dirty` is the invariant with those units left out;
each `updateOwnerCombatState` takes one of them off the list. -/

structure ConsistentBut (s : CombatState U) (dirty : List U) : Prop where
  linked : s.Linked
  flag : ∀ a, a ∉ dirty → s.FlagOk a

theorem Consistent.but (h : s.Consistent) (dirty : List U) : s.ConsistentBut dirty :=
  ⟨h.linked, fun a _ => h.flag a⟩

theorem ConsistentBut.consistent (h : s.ConsistentBut []) : s.Consistent :=
  ⟨h.linked, fun a => h.flag a (by simp)⟩

theorem ConsistentBut.updateOwnerCombatState {dirty : List U} (h : s.ConsistentBut (a :: dirty)) :
    (s.updateOwnerCombatState a).ConsistentBut dirty where
  linked := h.linked.updateOwnerCombatState a
  flag := by
    intro c hc
    rw [FlagOk, inCombat_updateOwnerCombatState, hasCombat_updateOwnerCombatState]
    split <;> rename_i hca
    · rw [hca]
    · exact h.flag c (by simp [hca, hc])

/-- A write to one reference: the flags stay right where the suppression does
not change. -/
theorem ConsistentBut.setRef {dirty : List U} (h : s.ConsistentBut dirty)
    (hr : s.refs r = some ref) (h1 : ref'.first = ref.first) (h2 : ref'.second = ref.second)
    (hk : ref'.isPvP = ref.isPvP)
    (hsup : ∀ a, a ∉ dirty → a = ref.first ∨ a = ref.second → ref'.isSuppressedFor a =
      ref.isSuppressedFor a)
    :
    (s.setRef r ref').ConsistentBut dirty where
  linked := h.linked.setRef hr h1 h2 hk
  flag := by
    intro a ha
    have hkeep : (s.setRef r ref').hasCombat a = s.hasCombat a := by
      by_cases hside : a = ref.first ∨ a = ref.second
      · exact hasCombat_setRef_of_suppressed_eq hr (hsup a ha hside)
      · refine hasCombat_setRef_of_not_held fun b hf => hside ?_
        obtain ⟨ref₀, hr₀, -, hj⟩ := h.linked.held hf
        obtain rfl : ref = ref₀ := Option.some.inj (hr.symm.trans hr₀)
        exact hj.left
    exact (h.flag a ha).trans hkeep.symm

/-! ## Ending combat -/

theorem purgeReference_idem (s : CombatState U) (a guid : U) (k : Bool) :
    (s.purgeReference a guid k).purgeReference a guid k = s.purgeReference a guid k := by
  have herase : ∀ m : RefMap U, (m.erase guid).erase guid = m.erase guid := by
    intro m
    refine AList.ext ?_
    show List.kerase guid (List.kerase guid m.entries) = List.kerase guid m.entries
    refine List.kerase_of_notMem_keys ?_
    exact List.notMem_keys_kerase guid m.nodupKeys
  simp only [purgeReference, setManager, Function.update_self, Function.update_idem]
  congr 2
  cases k <;> simp [CombatManager.purgeReference, herase]

theorem purgeReference_comm (s : CombatState U) (hne : a ≠ c) (guid d : U) (k k' : Bool) :
    (s.purgeReference a guid k).purgeReference c d k' =
      (s.purgeReference c d k').purgeReference a guid k := by
  simp only [purgeReference, setManager, Function.update_of_ne hne,
    Function.update_of_ne hne.symm]
  rw [Function.update_comm hne]

/-- A write to the maps of both units. -/
theorem ite_both (ref : CombatReference U) (k : Bool) (a b : U) (x y : Option RefId) :
    (if k = ref.isPvP ∧ a = ref.second ∧ b = ref.first then x
      else if k = ref.isPvP ∧ a = ref.first ∧ b = ref.second then x else y) =
      if k = ref.isPvP ∧ ref.Joins a b then x else y := by
  split <;> rename_i h1
  · rw [if_pos ⟨h1.1, Or.inr ⟨h1.2.2.symm, h1.2.1.symm⟩⟩]
  · split <;> rename_i h2
    · rw [if_pos ⟨h2.1, Or.inl ⟨h2.2.1.symm, h2.2.2.symm⟩⟩]
    · rw [if_neg]
      rintro ⟨hk, ⟨h3, h4⟩ | ⟨h3, h4⟩⟩
      · exact h2 ⟨hk, h3.symm, h4.symm⟩
      · exact h1 ⟨hk, h4.symm, h3.symm⟩

/-- The maps after `endCombat` took the reference out of both. -/
theorem find_purge_both (s : CombatState U) (ref : CombatReference U) (k : Bool)
    (a b : U) :
    ((s.purgeReference ref.first ref.second ref.isPvP).purgeReference ref.second
        ref.first ref.isPvP).find k a b =
      if k = ref.isPvP ∧ ref.Joins a b then none else s.find k a b := by
  rw [find_purgeReference, find_purgeReference, ite_both]

/-- Taking one reference out of both maps and freeing it keeps the rest linked. -/
theorem Linked.remove (hl : s.Linked) (hr : s.refs r = some ref)
    (hrefs : ∀ r', s'.refs r' = if r' = r then none else s.refs r')
    (hnext : s'.nextRef = s.nextRef)
    (hfind : ∀ k a b, s'.find k a b = if k = ref.isPvP ∧ ref.Joins a b then none else
      s.find k a b) :
    s'.Linked := by
  have hof : ∀ {k a b r'}, s'.find k a b = some r' →
      s.find k a b = some r' ∧ r' ≠ r := by
    intro k a b r' hf
    rw [hfind] at hf
    split at hf <;> rename_i hj
    · cases hf
    · refine ⟨hf, ?_⟩
      rintro rfl
      obtain ⟨ref₀, hr₀, hk, hj₀⟩ := hl.held hf
      obtain rfl : ref = ref₀ := Option.some.inj (hr.symm.trans hr₀)
      exact hj ⟨hk.symm, hj₀⟩
  constructor
  case held =>
    intro k a b r' hf
    rw [hrefs, if_neg (hof hf).2]
    exact hl.held (hof hf).1
  case live =>
    intro r' ref₀ hr₀
    rw [hrefs] at hr₀
    split at hr₀ <;> rename_i hne
    · cases hr₀
    · obtain ⟨hsides, hf1, hf2⟩ := hl.live hr₀
      have hkeep : ∀ a b, s.find ref₀.isPvP a b = some r' →
          s'.find ref₀.isPvP a b = some r' := by
        intro a b hf
        rw [hfind, if_neg, hf]
        rintro ⟨hk, hj⟩
        have hfr := hl.find_of_joins hr hj
        rw [← hk, hf] at hfr
        exact hne (Option.some.inj hfr)
      exact ⟨hsides, hkeep _ _ hf1, hkeep _ _ hf2⟩
  case exclusive =>
    intro a b hsome
    obtain ⟨r', hf⟩ := Option.isSome_iff_exists.1 hsome
    have hnone : s.find true a b = none := hl.exclusive (by rw [(hof hf).1]; rfl)
    rw [hfind]
    split
    · rfl
    · exact hnone
  case fresh =>
    intro r' hle
    rw [hrefs]
    split
    · rfl
    · exact hl.fresh (hnext ▸ hle)

/-- A reference nobody holds may be freed before or after the flags are set. -/
theorem freeRef_updateOwnerCombatState (h : ∀ b, s.find true a b ≠ some r) :
    (s.updateOwnerCombatState a).freeRef r =
      (s.freeRef r).updateOwnerCombatState a := by
  rw [updateOwnerCombatState_eq, updateOwnerCombatState_eq,
    hasCombat_freeRef_of_not_held h]
  rfl

theorem endCombat_consistent (h : s.Consistent) (r : RefId) : (s.endCombat r).Consistent := by
  rw [endCombat]
  cases hr : s.refs r with
  | none => exact h
  | some ref =>
      simp only []
      generalize hs' : (s.purgeReference ref.first ref.second ref.isPvP).purgeReference
        ref.second ref.first ref.isPvP = s'
      have hfind := s.find_purge_both ref
      have hmgr : ∀ c, c ∉ [ref.first, ref.second] → s'.manager c = s.manager c := by
        intro c hc
        simp only [List.mem_cons, List.not_mem_nil, or_false, not_or] at hc
        subst hs'
        rw [manager_purgeReference_of_ne _ _ _ hc.2, manager_purgeReference_of_ne _ _ _ hc.1]
      rw [hs'] at hfind
      have hrefs : s'.refs = s.refs := by subst hs'; rfl
      have hflag : s'.inCombat = s.inCombat := by subst hs'; rfl
      have hlinked : (s'.freeRef r).Linked := by
        refine h.linked.remove hr (fun r' => ?_) ?_ hfind
        · rw [refs_freeRef, hrefs]
        · subst hs'; rfl
      -- nobody holds the reference any more
      have hout : ∀ a b, s'.find true a b ≠ some r := by
        intro a b hf
        obtain ⟨ref₀, hr₀, -⟩ := hlinked.held (show (s'.freeRef r).find true a b = _ from hf)
        rw [refs_freeRef, if_pos rfl] at hr₀
        cases hr₀
      have hbut : (s'.freeRef r).ConsistentBut [ref.first, ref.second] := by
        refine ⟨hlinked, fun c hc => ?_⟩
        have hkeep : (s'.freeRef r).hasCombat c = s.hasCombat c := by
          rw [hasCombat_freeRef_of_not_held (hout c)]
          exact hasCombat_congr (hmgr c hc) fun b r' _ => by rw [hrefs]
        rw [FlagOk, hkeep]
        show s'.inCombat c = _
        rw [hflag]
        exact h.flag c
      rw [freeRef_updateOwnerCombatState (by simpa using hout ref.second),
        freeRef_updateOwnerCombatState (hout ref.first)]
      exact hbut.updateOwnerCombatState.updateOwnerCombatState.consistent

/-- A caller that erased its own map entry first ends up in the same state. -/
theorem endCombat_purgeReference (hl : s.Linked) (hr : s.refs r = some ref) {guid : U}
    (hj : ref.Joins a guid) : (s.purgeReference a guid ref.isPvP).endCombat r = s.endCombat r := by
  have hne := (hl.live hr).1
  rw [endCombat, endCombat, refs_purgeReference, hr]
  simp only []
  rcases hj with ⟨rfl, rfl⟩ | ⟨rfl, rfl⟩
  · rw [purgeReference_idem]
  · rw [purgeReference_comm s hne.symm, purgeReference_idem]

/-- `endCombat` frees at most the reference it is about. -/
theorem refs_endCombat {r' : RefId} (h : (s.endCombat r).refs r' = some ref) :
    s.refs r' = some ref := by
  rw [endCombat] at h
  split at h
  · exact h
  · rw [refs_freeRef] at h
    split at h
    · cases h
    · simpa using h

/-! ## Suppression and refreshing -/

theorem suppress_isSuppressedFor_of_ne (ref : CombatReference U)
    (hwho : who = ref.first ∨ who = ref.second) (ha : a = ref.first ∨ a = ref.second)
    (hne : a ≠ who) : (ref.suppress who).isSuppressedFor a = ref.isSuppressedFor a := by
  cases hp : ref.pvp with
  | none => simp [CombatReference.suppress, CombatReference.isSuppressedFor, hp]
  | some p =>
      rcases hwho with rfl | rfl
      · simp [CombatReference.suppress, CombatReference.isSuppressedFor, hp, hne]
      · obtain rfl : a = ref.first := ha.resolve_right hne
        simp [CombatReference.suppress, CombatReference.isSuppressedFor, hp, hne.symm]

theorem ConsistentBut.suppress (h : s.ConsistentBut [who]) (hr : s.refs r = some ref)
    (hwho : who = ref.first ∨ who = ref.second) :
    (s.setRef r (ref.suppress who)).ConsistentBut [who] := by
  refine h.setRef hr rfl rfl ?_ fun a ha hside => ?_
  · simp [CombatReference.suppress, CombatReference.isPvP]
  · exact suppress_isSuppressedFor_of_ne ref hwho hside (by simpa using ha)

theorem suppressFor_consistent (h : s.Consistent)
    (hwho : ∀ ref, s.refs r = some ref → who = ref.first ∨ who = ref.second) :
    (s.suppressFor r who).Consistent := by
  rw [suppressFor]
  cases hr : s.refs r with
  | none => exact h
  | some ref =>
      exact ((h.but [who]).suppress hr (hwho ref hr)).updateOwnerCombatState.consistent

theorem suppressAll_consistentBut (a : U) (l : List (Sigma fun _ : U => RefId)) :
    ∀ {s : CombatState U}, s.ConsistentBut [a] →
      (∀ e ∈ l, s.find true a e.1 = some e.2) →
      (suppressAll a l s).ConsistentBut [a] := by
  induction l with
  | nil => intro s h _; exact h
  | cons e rest ih =>
      intro s h hheld
      rw [suppressAll]
      obtain ⟨ref, hr, -, hj⟩ := h.linked.held (hheld e (by simp))
      rw [hr]
      exact ih (h.suppress hr hj.left) fun e' he' => hheld e' (by simp [he'])

theorem suppressPvPCombat_consistent (h : s.Consistent) (a : U) :
    (s.suppressPvPCombat a).Consistent := by
  rw [suppressPvPCombat]
  refine ConsistentBut.consistent (ConsistentBut.updateOwnerCombatState ?_)
  refine suppressAll_consistentBut a _ (h.but [a]) fun e he => ?_
  exact (s.mem_entries_iff true a e.1 e.2).1 he

/-- A write to the reference that changes suppression on one side at most,
and the update of that side. -/
theorem setRef_updateOwner_consistent (h : s.Consistent) {p q : PvPPart}
    (hr : s.refs r = some ref) (hp : ref.pvp = some p) {who : U}
    (hq : ∀ a, a ≠ who → a = ref.first ∨ a = ref.second →
      (if a = ref.first then q.suppressFirst else q.suppressSecond) =
        if a = ref.first then p.suppressFirst else p.suppressSecond) :
    ((s.setRef r { ref with pvp := some q }).updateOwnerCombatState who).Consistent := by
  refine ConsistentBut.consistent (ConsistentBut.updateOwnerCombatState
    ((h.but [who]).setRef hr rfl rfl ?_ fun a ha hside => ?_))
  · rw [CombatReference.isPvP, CombatReference.isPvP, hp]; rfl
  · rw [CombatReference.isSuppressedFor, CombatReference.isSuppressedFor, hp]
    exact hq a (by simpa using ha) hside

/-- The timer of a reference is nobody's combat state. -/
theorem setRef_timer_consistent (h : s.Consistent) {p : PvPPart} (hr : s.refs r = some ref)
    (hp : ref.pvp = some p) (timer : Nat) :
    (s.setRef r { ref with pvp := some { p with combatTimer := timer } }).Consistent := by
  refine ConsistentBut.consistent ((h.but []).setRef hr rfl rfl ?_ fun a _ _ => ?_)
  · rw [CombatReference.isPvP, CombatReference.isPvP, hp]; rfl
  · rw [CombatReference.isSuppressedFor, CombatReference.isSuppressedFor, hp]

theorem refresh_consistent (h : s.Consistent) (r : RefId) : (s.refresh r).Consistent := by
  rw [refresh]
  cases hr : s.refs r with
  | none => exact h
  | some ref =>
      cases hp : ref.pvp with
      | none => simpa only [hp] using h
      | some p =>
          simp only [hp]
          have htimer := setRef_timer_consistent h hr hp pvpCombatTimeout
          generalize hs₁ : s.setRef r _ = s₁ at htimer ⊢
          have hr₁ : s₁.refs r = some { ref with
              pvp := some { p with combatTimer := pvpCombatTimeout } } := by
            rw [← hs₁, refs_setRef, if_pos rfl]
          -- after the first side the reference is not suppressed there
          have hfirst : ∀ s₂, s₂ = (if p.suppressFirst = true then
                (s₁.setRef r { ref with pvp := some ⟨pvpCombatTimeout, false,
                  p.suppressSecond⟩ }).updateOwnerCombatState ref.first
              else s₁) → s₂.Consistent ∧ s₂.refs r = some { ref with
                pvp := some ⟨pvpCombatTimeout, false, p.suppressSecond⟩ } := by
            rintro s₂ rfl
            split <;> rename_i hsf
            · refine ⟨setRef_updateOwner_consistent htimer hr₁ rfl fun a ha _ => ?_, ?_⟩
              · rw [if_neg ha, if_neg ha]
              · rw [refs_updateOwnerCombatState, refs_setRef, if_pos rfl]
            · refine ⟨htimer, ?_⟩
              rw [hr₁, show p.suppressFirst = false by simpa using hsf]
          generalize hs₂ : (if p.suppressFirst = true then _ else s₁) = s₂
          obtain ⟨hcons, hr₂⟩ := hfirst s₂ hs₂.symm
          split
          · refine setRef_updateOwner_consistent hcons hr₂ rfl fun a ha hside => ?_
            rw [if_pos (hside.resolve_right ha), if_pos (hside.resolve_right ha)]
          · exact hcons

/-! ## Starting combat -/

theorem isPvP_new (a who : U) (k : Bool) (p : PvPPart) :
    (⟨a, who, if k then some p else none⟩ : CombatReference U).isPvP = k := by
  cases k <;> rfl

theorem find_putReference_both (s : CombatState U) (ref : CombatReference U) (r : RefId)
    (k : Bool) (a b : U) :
    ((s.putReference ref.first ref.second r ref.isPvP).putReference ref.second
        ref.first r ref.isPvP).find k a b =
      if k = ref.isPvP ∧ ref.Joins a b then some r else s.find k a b := by
  rw [find_putReference, find_putReference, ite_both]

/-- A new reference, in the maps of two units that had none for each other,
keeps everything linked. -/
theorem Linked.add (hl : s.Linked) (hne : ref.first ≠ ref.second)
    (hno : ∀ k, s.find k ref.first ref.second = none)
    (hrefs : ∀ r, s'.refs r = if r = s.nextRef then some ref else s.refs r)
    (hnext : s'.nextRef = s.nextRef + 1)
    (hfind : ∀ k a b, s'.find k a b = if k = ref.isPvP ∧ ref.Joins a b then some s.nextRef else
      s.find k a b) :
    s'.Linked := by
  have hnone : ∀ {k a b}, ref.Joins a b → s.find k a b = none := by
    intro k a b hj
    cases hf : s.find k a b with
    | none => rfl
    | some r =>
        rcases hj with ⟨rfl, rfl⟩ | ⟨rfl, rfl⟩
        · rw [hno] at hf; cases hf
        · have := hl.find_symm hf
          rw [hno] at this
          cases this
  have hold : ∀ {r ref₀}, s.refs r = some ref₀ → r ≠ s.nextRef := by
    rintro r ref₀ hr rfl
    rw [hl.fresh (Nat.le_refl _)] at hr
    cases hr
  constructor
  case held =>
    intro k a b r hf
    rw [hfind] at hf
    split at hf <;> rename_i hj
    · obtain rfl := Option.some.inj hf
      exact ⟨ref, by rw [hrefs, if_pos rfl], hj.1.symm, hj.2⟩
    · obtain ⟨ref₀, hr, hrest⟩ := hl.held hf
      exact ⟨ref₀, by rw [hrefs, if_neg (hold hr), hr], hrest⟩
  case live =>
    intro r ref₀ hr
    rw [hrefs] at hr
    split at hr <;> rename_i hrn
    · obtain rfl := Option.some.inj hr
      refine ⟨hne, ?_, ?_⟩
      · rw [hfind, if_pos ⟨rfl, Or.inl ⟨rfl, rfl⟩⟩, hrn]
      · rw [hfind, if_pos ⟨rfl, Or.inr ⟨rfl, rfl⟩⟩, hrn]
    · obtain ⟨hsides, hf1, hf2⟩ := hl.live hr
      have hkeep : ∀ a b, s.find ref₀.isPvP a b = some r →
          s'.find ref₀.isPvP a b = some r := by
        intro a b hf
        rw [hfind, if_neg, hf]
        rintro ⟨-, hj⟩
        rw [hnone hj] at hf
        cases hf
      exact ⟨hsides, hkeep _ _ hf1, hkeep _ _ hf2⟩
  case exclusive =>
    intro a b hsome
    by_cases hj : ref.Joins a b
    · rw [hfind] at hsome ⊢
      split at hsome <;> rename_i hkf
      · rw [if_neg, hnone hj]
        rintro ⟨hkt, -⟩
        rw [← hkf.1] at hkt
        cases hkt
      · rw [hnone hj] at hsome
        cases hsome
    · rw [hfind, if_neg fun hc => hj hc.2] at hsome ⊢
      exact hl.exclusive hsome
  case fresh =>
    intro r hle
    rw [hnext] at hle
    rw [hrefs, if_neg (Nat.ne_of_gt hle)]
    exact hl.fresh (Nat.le_of_succ_le hle)

theorem setInCombatWith_consistent (h : s.Consistent) (view : UnitView U) (a who : U) :
    (s.setInCombatWith view a who).Consistent := by
  rw [setInCombatWith]
  split <;> rename_i hpvp
  · exact refresh_consistent h _
  split <;> rename_i hpve
  · exact h
  split <;> rename_i hcan
  · exact h
  have hne : a ≠ who := by
    rintro rfl
    exact hcan (by simp [canBeginCombat])
  simp only []
  generalize (view.isControlledByPlayer a && view.isControlledByPlayer who) = k
  obtain ⟨ref, href⟩ : ∃ ref : CombatReference U,
    ref = ⟨a, who, if k then some ⟨pvpCombatTimeout, false, false⟩ else none⟩ := ⟨_, rfl⟩
  have hk : ref.isPvP = k := by rw [href, isPvP_new]
  have hfst : ref.first = a := by rw [href]
  have hsnd : ref.second = who := by rw [href]
  rw [← href, ← hk]
  subst hfst hsnd
  have hno : ∀ k', s.find k' ref.first ref.second = none := by
    intro k'
    cases k' with
    | false => simpa using hpve
    | true => exact hpvp
  generalize hs' : (putReference (putReference { s with
    refs := Function.update s.refs s.nextRef (some ref), nextRef := s.nextRef + 1 }
    ref.first ref.second s.nextRef ref.isPvP) ref.second ref.first s.nextRef ref.isPvP) = s'
  have hrefs : ∀ r, s'.refs r = if r = s.nextRef then some ref else s.refs r := by
    intro r
    subst hs'
    exact Function.update_apply _ _ _ _
  have hlinked : s'.Linked := by
    refine h.linked.add hne hno hrefs ?_ ?_
    · subst hs'; rfl
    · subst hs'; exact find_putReference_both _ ref s.nextRef
  have hmgr : ∀ c, c ∉ [ref.first, ref.second] → s'.manager c = s.manager c := by
    intro c hc
    simp only [List.mem_cons, List.not_mem_nil, or_false, not_or] at hc
    subst hs'
    rw [manager_putReference_of_ne _ _ _ _ hc.2, manager_putReference_of_ne _ _ _ _ hc.1]
  have hbut : s'.ConsistentBut [ref.first, ref.second] := by
    refine ⟨hlinked, fun c hc => ?_⟩
    have hkeep : s'.hasCombat c = s.hasCombat c := by
      refine hasCombat_congr (hmgr c hc) fun b r hf => ?_
      obtain ⟨ref₀, hr, -⟩ := h.linked.held hf
      have hrn : r ≠ s.nextRef := by
        rintro rfl
        rw [h.linked.fresh (Nat.le_refl _)] at hr
        cases hr
      rw [hrefs, if_neg hrn]
    have hflag : s'.inCombat = s.inCombat := by subst hs'; rfl
    rw [FlagOk, hkeep, hflag]
    exact h.flag c
  exact hbut.updateOwnerCombatState.updateOwnerCombatState.consistent

/-! ## Which operations keep every reference in its maps -/

@[simp] theorem find_suppressAll (a : U) (l : List (Sigma fun _ : U => RefId)) :
    ∀ (s : CombatState U) (k : Bool) (b c : U),
      (suppressAll a l s).find k b c = s.find k b c := by
  induction l with
  | nil => intro s k b c; rfl
  | cons e rest ih =>
      intro s k b c
      rw [suppressAll]
      split
      · exact ih s k b c
      · rw [ih]; rfl

@[simp] theorem find_suppressPvPCombat (s : CombatState U) (a : U) (k : Bool)
    (b c : U) : (s.suppressPvPCombat a).find k b c = s.find k b c := by
  rw [suppressPvPCombat, find_updateOwnerCombatState, find_suppressAll]

@[simp] theorem find_suppressFor (s : CombatState U) (r : RefId) (who : U) (k : Bool)
    (b c : U) : (s.suppressFor r who).find k b c = s.find k b c := by
  rw [suppressFor]
  split
  · rfl
  · rw [find_updateOwnerCombatState, find_setRef]

@[simp] theorem find_refresh (s : CombatState U) (r : RefId) (k : Bool) (b c : U) :
    (s.refresh r).find k b c = s.find k b c := by
  rw [refresh]
  split
  · rfl
  split
  · rfl
  simp only []
  split <;> split <;> simp only [find_updateOwnerCombatState, find_setRef]

theorem find_setInCombatWith_isSome {view : UnitView U} {k : Bool} (h : (s.find k b c).isSome) :
    ((s.setInCombatWith view a who).find k b c).isSome := by
  rw [setInCombatWith]
  split
  · rw [find_refresh]; exact h
  split
  · exact h
  split
  · exact h
  simp only [find_updateOwnerCombatState, find_putReference]
  split
  · rfl
  split
  · rfl
  · exact h

/-- Ending combat takes only what it is about out of the maps. -/
theorem find_endCombat (hr : s.refs r = some ref) (k : Bool) (a b : U) :
    (s.endCombat r).find k a b =
      if k = ref.isPvP ∧ ref.Joins a b then none else s.find k a b := by
  rw [endCombat, hr]
  simp only [find_freeRef, find_updateOwnerCombatState]
  exact s.find_purge_both ref k a b

end CombatState

/-- Erasing the first key of a map shortens it by one. -/
theorem length_entries_erase {m : RefMap U} {e : Sigma fun _ : U => RefId}
    {rest : List (Sigma fun _ : U => RefId)} (h : m.entries = e :: rest) :
    (m.erase e.1).entries.length = rest.length := by
  have hkeys := congrArg List.length (AList.keys_erase e.1 m)
  simpa [AList.keys, List.keys, h] using hkeys

end Sunstrider.Combat
