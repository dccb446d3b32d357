import Sunstrider.Lib.Runs
import Sunstrider.Movement.MotionMaster

/-!
# One generator of a mode and priority

The set is looked up by what its order takes for the same, so it does what it should while
no two of its generators have one mode and one priority: `erase` then takes out the one it
is given, and nothing is forgotten. A generator that comes in is meant to replace the one
whose place it takes. But which one goes is decided by priority alone, and first by that of
the top, so the one with the mode and priority of the newcomer may be passed over.

The other way to go wrong is to ask for the removal of a generator that is not in the set:
`find` is content with one like it.
-/

namespace Sunstrider.Movement

open Lib

variable {g g' x : MovementGenerator} {gs : List MovementGenerator}

variable {b b' : BaseUnitState}

/-! ## The order -/

namespace MovementGenerator

def key (g : MovementGenerator) : UInt8 × UInt8 := (g.mode, g.priority)

/-- What a multiset takes for the same has the same mode and priority. -/
theorem equivalent_iff (g x : MovementGenerator) : g.equivalent x = true ↔ x.key = g.key := by
  unfold equivalent before key
  rw [Prod.mk.injEq]
  by_cases hmode : g.mode = x.mode
  · rw [hmode, if_neg (UInt8.lt_irrefl _), if_pos rfl, if_neg (UInt8.lt_irrefl _), if_pos rfl]
    simp only [Bool.and_eq_true, Bool.not_eq_true', decide_eq_false_iff_not, gt_iff_lt,
      UInt8.not_lt, true_and]
    constructor
    · rintro ⟨h, h'⟩
      exact UInt8.le_antisymm h' h
    · intro h
      rw [h]
      exact ⟨UInt8.le_refl _, UInt8.le_refl _⟩
  · refine iff_of_false ?_ fun h => hmode h.1.symm
    rcases UInt8.lt_or_lt_of_ne hmode with hlt | hgt
    · rw [if_pos hlt, Bool.not_true, Bool.and_false]
      decide
    · rw [if_pos hgt, Bool.not_true, Bool.false_and]
      decide

theorem mem_emplace : x ∈ g.emplace gs ↔ x = g ∨ x ∈ gs := by
  have hsplit : x ∈ gs ↔ x ∈ gs.takeWhile (fun a => !g.before a) ∨
      x ∈ gs.dropWhile fun a => !g.before a := by
    rw [← List.mem_append, List.takeWhile_append_dropWhile]
  unfold emplace
  rw [List.mem_append, List.mem_cons, hsplit]
  tauto

theorem emplace_perm (g : MovementGenerator) (gs : List MovementGenerator) :
    (g.emplace gs).Perm (g :: gs) := by
  unfold emplace
  refine List.perm_middle.trans ?_
  rw [List.takeWhile_append_dropWhile]

/-- Where keys differ, a key stands for its generator. -/
theorem eraseKey_eq (hone : (gs.map key).Nodup) (hx : x ∈ gs) : x.eraseKey gs = gs.erase x := by
  have hnodup : gs.Nodup := List.Nodup.of_map key hone
  unfold eraseKey
  rw [hnodup.erase_eq_filter]
  refine List.filter_congr fun a ha => ?_
  have hinj := List.inj_on_of_nodup_map hone
  rw [Bool.eq_iff_iff, Bool.not_eq_true', ← Bool.not_eq_true, equivalent_iff]
  simp only [bne_iff_ne, ne_eq]
  refine not_congr ⟨fun h => hinj ha hx h, fun h => h ▸ rfl⟩

end MovementGenerator

/-! ## Unit states -/

/-- The union of the base unit states. -/
def unionOf (gs : List MovementGenerator) : BitVec 32 :=
  gs.foldr (fun g bits => g.baseUnitState.bits ||| bits) 0

theorem getLsbD_unionOf (gs : List MovementGenerator) (i : Nat) :
    (unionOf gs).getLsbD i = gs.any fun g => g.baseUnitState.bits.getLsbD i := by
  induction gs with
  | nil => simp [unionOf]
  | cons g gs ih =>
      show (g.baseUnitState.bits ||| unionOf gs).getLsbD i = _
      rw [BitVec.getLsbD_or, ih, List.any_cons]

theorem unionOf_perm {gs' : List MovementGenerator} (h : gs.Perm gs') :
    unionOf gs = unionOf gs' := by
  refine BitVec.eq_of_getLsbD_eq fun i _ => ?_
  rw [getLsbD_unionOf, getLsbD_unionOf, h.any_eq]

/-- No two base unit states have a bit in common. -/
theorem BaseUnitState.disjoint (h : b ≠ b') : b.bits &&& b'.bits = 0 := by
  cases b <;> cases b' <;> first | rfl | exact absurd rfl h

theorem BaseUnitState.getLsbD_ne (h : b ≠ b') {i : Nat} (hb : b.bits.getLsbD i = true) :
    b'.bits.getLsbD i = false := by
  have hand : (b.bits &&& b'.bits).getLsbD i = (0 : BitVec 32).getLsbD i := by rw [disjoint h]
  rw [BitVec.getLsbD_and, hb] at hand
  simpa using hand

namespace MotionMaster

variable {s s' : MotionMaster}

variable {id movement : Nat} {e : Event} {d : Option MovementGenerator}

/-- The multimap has the generators of the set by their unit states, and the owner has the
union of these. -/
structure Stated (s : MotionMaster) : Prop where
  map : ∀ b id, (b, id) ∈ s.baseUnitStatesMap ↔
    b ≠ .none ∧ ∃ g ∈ s.generators, g.id = id ∧ g.baseUnitState = b
  bits : s.unitState = unionOf s.generators

/-- A generator that left the set takes its unit state along if no other has it. -/
theorem Stated.clearBaseUnitState (h : s.Stated) (hx : x ∈ s.generators)
    (hids : ∀ g ∈ s.generators, g.id = x.id → g = x) (hnodup : s.generators.Nodup) :
    (clearBaseUnitState x { s with generators := s.generators.erase x }).Stated := by
  have hmem : ∀ g, g ∈ s.generators.erase x ↔ g ≠ x ∧ g ∈ s.generators :=
    fun g => hnodup.mem_erase_iff
  have hunion : unionOf s.generators =
      x.baseUnitState.bits ||| unionOf (s.generators.erase x) :=
    unionOf_perm (List.perm_cons_erase hx)
  unfold MotionMaster.clearBaseUnitState
  split <;> rename_i hnone
  · refine ⟨fun b id => ?_, ?_⟩
    · rw [h.map]
      refine and_congr_right fun hb => ⟨?_, ?_⟩
      · rintro ⟨g, hg, hid, hbase⟩
        refine ⟨g, (hmem g).2 ⟨?_, hg⟩, hid, hbase⟩
        rintro rfl
        exact hb (hbase.symm.trans hnone)
      · rintro ⟨g, hg, hid, hbase⟩
        exact ⟨g, ((hmem g).1 hg).2, hid, hbase⟩
    · show s.unitState = _
      rw [h.bits, hunion, hnone]
      exact BitVec.zero_or
  · have hleft : ∀ b id, (b, id) ∈ s.baseUnitStatesMap.filter
        (fun e => decide (e ≠ (x.baseUnitState, x.id))) ↔
        b ≠ .none ∧ ∃ g ∈ s.generators.erase x, g.id = id ∧ g.baseUnitState = b := by
      intro b id
      rw [List.mem_filter, h.map, decide_eq_true_iff]
      constructor
      · rintro ⟨⟨hb, g, hg, rfl, rfl⟩, hne⟩
        refine ⟨hb, g, (hmem g).2 ⟨?_, hg⟩, rfl, rfl⟩
        rintro rfl
        exact hne rfl
      · rintro ⟨hb, g, hg, rfl, rfl⟩
        obtain ⟨hne, hg⟩ := (hmem g).1 hg
        exact ⟨⟨hb, g, hg, rfl, rfl⟩, fun heq => hne (hids g hg (congrArg Prod.snd heq))⟩
    refine ⟨hleft, ?_⟩
    dsimp only
    rw [h.bits, hunion]
    split <;> rename_i hall
    · -- no generator that stays has the state
      refine BitVec.eq_of_getLsbD_eq fun i hi => ?_
      rw [BitVec.getLsbD_and, BitVec.getLsbD_or, BitVec.getLsbD_not]
      cases hbit : x.baseUnitState.bits.getLsbD i with
      | false => simp [hi]
      | true =>
          have hnot : (unionOf (s.generators.erase x)).getLsbD i = false := by
            rw [getLsbD_unionOf, List.any_eq_false]
            intro g hg hgbit
            have hbase : x.baseUnitState ≠ g.baseUnitState := by
              intro heq
              have hin := (hleft x.baseUnitState g.id).2 ⟨hnone, g, hg, rfl, heq.symm⟩
              have hother := List.all_eq_true.1 hall _ hin
              exact (of_decide_eq_true hother) rfl
            rw [BaseUnitState.getLsbD_ne hbase hbit] at hgbit
            exact absurd hgbit (by decide)
          simp [hnot]
    · -- another one keeps it
      obtain ⟨e, he, hbase⟩ : ∃ e ∈ s.baseUnitStatesMap.filter
          (fun e => decide (e ≠ (x.baseUnitState, x.id))), e.1 = x.baseUnitState := by
        by_contra hnot
        refine hall (List.all_eq_true.2 fun e he => decide_eq_true ?_)
        exact fun heq => hnot ⟨e, he, heq⟩
      obtain ⟨-, g, hg, -, hgbase⟩ := (hleft e.1 e.2).1 he
      refine BitVec.eq_of_getLsbD_eq fun i hi => ?_
      rw [BitVec.getLsbD_or]
      cases hbit : x.baseUnitState.bits.getLsbD i with
      | false => rw [Bool.false_or]
      | true =>
          rw [Bool.true_or, getLsbD_unionOf, eq_comm, List.any_eq_true]
          exact ⟨g, hg, by rw [hgbase, hbase]; exact hbit⟩

/-- A newcomer adds its unit state. -/
theorem Stated.addBaseUnitState (h : s.Stated) (g : MovementGenerator) :
    (addBaseUnitState g { s with generators := g.emplace s.generators }).Stated := by
  have hunion : unionOf (g.emplace s.generators) =
      g.baseUnitState.bits ||| unionOf s.generators :=
    unionOf_perm (MovementGenerator.emplace_perm g s.generators)
  unfold MotionMaster.addBaseUnitState
  split <;> rename_i hnone
  · refine ⟨fun b id => ?_, ?_⟩
    · rw [h.map]
      refine and_congr_right fun hb => ⟨?_, ?_⟩
      · rintro ⟨x, hx, hid, hbase⟩
        exact ⟨x, MovementGenerator.mem_emplace.2 (.inr hx), hid, hbase⟩
      · rintro ⟨x, hx, hid, hbase⟩
        rcases MovementGenerator.mem_emplace.1 hx with rfl | hx
        · exact absurd (hbase.symm.trans hnone) hb
        · exact ⟨x, hx, hid, hbase⟩
    · show s.unitState = unionOf (g.emplace s.generators)
      rw [hunion, h.bits, hnone]
      exact BitVec.zero_or.symm
  · refine ⟨fun b id => ?_, ?_⟩
    · show (b, id) ∈ (g.baseUnitState, g.id) :: s.baseUnitStatesMap ↔ _
      rw [List.mem_cons, h.map]
      constructor
      · rintro (heq | ⟨hb, x, hx, hid, hbase⟩)
        · cases heq
          exact ⟨hnone, g, MovementGenerator.mem_emplace.2 (.inl rfl), rfl, rfl⟩
        · exact ⟨hb, x, MovementGenerator.mem_emplace.2 (.inr hx), hid, hbase⟩
      · rintro ⟨hb, x, hx, rfl, rfl⟩
        rcases MovementGenerator.mem_emplace.1 hx with rfl | hx
        · exact .inl rfl
        · exact .inr ⟨hb, x, hx, rfl, rfl⟩
    · show s.unitState ||| g.baseUnitState.bits = unionOf (g.emplace s.generators)
      rw [hunion, h.bits, BitVec.or_comm]

/-! ## What was done to generators -/

def finalizes (id : Nat) : Event → Bool
  | .finalize i _ _ => i == id
  | _ => false

def finalizations (id : Nat) (s : MotionMaster) : Nat := s.events.countP (finalizes id)

def deletions (id : Nat) (s : MotionMaster) : Nat := s.events.count (.delete id)

/-- It was neither finalized nor deleted. -/
def Untouched (s : MotionMaster) (id : Nat) : Prop := s.finalizations id = 0 ∧ s.deletions id = 0

/-- One generator of a mode and priority; each that left was finalized and deleted once;
`Remove` took out the one it was asked to; the owner has the unit states of those that are
there. -/
structure Kept (s : MotionMaster) : Prop where
  one : (s.generators.map MovementGenerator.key).Nodup
  left : ∀ id, .emplace id ∈ s.events → (∀ g ∈ s.generators, g.id ≠ id) →
    s.finalizations id = 1 ∧ s.deletions id = 1
  removed : ∀ asked removed, .remove asked removed ∈ s.events → removed = asked
  unitState : s.unitState = unionOf s.generators

structure Good (s : MotionMaster) : Prop where
  kept : s.Kept
  stated : s.Stated
  known : ∀ g ∈ s.generators, s.objects[g.id]? = some g
  emplaced : ∀ g ∈ s.generators, .emplace g.id ∈ s.events ∧ s.Untouched g.id
  default : ∀ g, s.defaultGenerator = some g →
    s.objects[g.id]? = some g ∧ .emplace g.id ∉ s.events
  fresh : ∀ id, s.objects.length ≤ id → .emplace id ∉ s.events ∧ s.Untouched id

theorem Good.nodup (h : s.Good) : s.generators.Nodup := List.Nodup.of_map _ h.kept.one

/-- A number stands for one generator of the set. -/
theorem Good.eq_of_id (h : s.Good) (hg : g ∈ s.generators) (hx : x ∈ s.generators)
    (hid : g.id = x.id) : g = x := by
  have hobj := h.known g hg
  rw [hid, h.known x hx] at hobj
  exact (Option.some.inj hobj).symm

@[simp] theorem objects_clearBaseUnitState : (s.clearBaseUnitState g).objects = s.objects := by
  unfold clearBaseUnitState
  split <;> rfl

@[simp] theorem events_clearBaseUnitState : (s.clearBaseUnitState g).events = s.events := by
  unfold clearBaseUnitState
  split <;> rfl

@[simp] theorem generators_clearBaseUnitState :
    (s.clearBaseUnitState g).generators = s.generators := by
  unfold clearBaseUnitState
  split <;> rfl

@[simp] theorem defaultGenerator_clearBaseUnitState :
    (s.clearBaseUnitState g).defaultGenerator = s.defaultGenerator := by
  unfold clearBaseUnitState
  split <;> rfl

/-- A generator is taken out, finalized and deleted. -/
def takeOut (x : MovementGenerator) (active movementInform : Bool) (s : MotionMaster) :
    MotionMaster :=
  { s with generators := s.generators.erase x }.delete x active movementInform

variable {active movementInform : Bool}

theorem generators_takeOut :
    (s.takeOut x active movementInform).generators = s.generators.erase x := by
  simp [takeOut, delete, note]

theorem objects_takeOut : (s.takeOut x active movementInform).objects = s.objects := by
  simp [takeOut, delete, note]

theorem defaultGenerator_takeOut :
    (s.takeOut x active movementInform).defaultGenerator = s.defaultGenerator := by
  simp [takeOut, delete, note]

theorem events_takeOut : (s.takeOut x active movementInform).events =
    s.events ++ [.finalize x.id active movementInform, .delete x.id] := by
  simp [takeOut, delete, note]

theorem mem_events_takeOut :
    .emplace id ∈ (s.takeOut x active movementInform).events ↔ .emplace id ∈ s.events := by
  simp [events_takeOut]

theorem finalizations_takeOut (id : Nat) :
    (s.takeOut x active movementInform).finalizations id =
      s.finalizations id + if x.id = id then 1 else 0 := by
  unfold finalizations
  rw [events_takeOut, List.countP_append]
  simp [finalizes, List.countP_cons]

theorem deletions_takeOut (id : Nat) :
    (s.takeOut x active movementInform).deletions id =
      s.deletions id + if x.id = id then 1 else 0 := by
  unfold deletions
  rw [events_takeOut, List.count_append]
  simp [List.count_cons]

theorem untouched_takeOut (hne : x.id ≠ id) :
    (s.takeOut x active movementInform).Untouched id ↔ s.Untouched id := by
  unfold Untouched
  rw [finalizations_takeOut, deletions_takeOut, if_neg hne, Nat.add_zero, Nat.add_zero]

theorem Good.takeOut (h : s.Good) (hx : x ∈ s.generators) :
    (s.takeOut x active movementInform).Good := by
  have hmem : ∀ g, g ∈ s.generators.erase x ↔ g ≠ x ∧ g ∈ s.generators :=
    fun g => h.nodup.mem_erase_iff
  have hids : ∀ g ∈ s.generators.erase x, x.id ≠ g.id := fun g hg hid =>
    ((hmem g).1 hg).1 (h.eq_of_id ((hmem g).1 hg).2 hx hid.symm)
  have hstated : (s.takeOut x active movementInform).Stated := by
    have hclear := h.stated.clearBaseUnitState hx (fun g hg => h.eq_of_id hg hx) h.nodup
    have hevents : ∀ e, ((MotionMaster.clearBaseUnitState x
        { s with generators := s.generators.erase x, events := e }).Stated) := by
      intro e
      unfold MotionMaster.clearBaseUnitState at hclear ⊢
      split <;> rename_i hnone
      · rw [if_pos hnone] at hclear
        exact ⟨hclear.map, hclear.bits⟩
      · rw [if_neg hnone] at hclear
        exact ⟨hclear.map, hclear.bits⟩
    exact ⟨(hevents _).map, (hevents _).bits⟩
  have hlt : x.id < s.objects.length := by
    have hobj := h.known x hx
    exact (List.getElem?_eq_some_iff.1 hobj).1
  refine ⟨⟨?_, ?_, ?_, hstated.bits⟩, hstated, ?_, ?_, ?_, ?_⟩
  · rw [generators_takeOut]
    exact (List.Sublist.map _ List.erase_sublist).nodup h.kept.one
  · intro id hid hout
    rw [mem_events_takeOut] at hid
    rw [generators_takeOut] at hout
    rw [finalizations_takeOut, deletions_takeOut]
    by_cases hsame : x.id = id
    · subst hsame
      obtain ⟨-, hfin, hdel⟩ := h.emplaced x hx
      rw [if_pos rfl, hfin, hdel]
      exact ⟨rfl, rfl⟩
    · rw [if_neg hsame]
      refine h.kept.left id hid fun g hg hgid => ?_
      by_cases hgx : g = x
      · exact hsame (hgx ▸ hgid)
      · exact hout g ((hmem g).2 ⟨hgx, hg⟩) hgid
  · intro asked removed hev
    rw [events_takeOut] at hev
    exact h.kept.removed asked removed (by simpa using hev)
  · intro g hg
    rw [generators_takeOut] at hg
    rw [objects_takeOut]
    exact h.known g ((hmem g).1 hg).2
  · intro g hg
    rw [generators_takeOut] at hg
    rw [mem_events_takeOut, untouched_takeOut (hids g hg)]
    exact h.emplaced g ((hmem g).1 hg).2
  · intro g hg
    rw [defaultGenerator_takeOut] at hg
    rw [objects_takeOut, mem_events_takeOut]
    exact h.default g hg
  · intro id hid
    rw [objects_takeOut] at hid
    rw [mem_events_takeOut, untouched_takeOut (by omega)]
    exact h.fresh id hid

/-! ## Steps that keep the set in order -/

/-- What `erase` and `Delete` do while keys differ. -/
theorem Good.erase_delete (h : s.Good) (hx : x ∈ s.generators) :
    (s.erase x).delete x active movementInform = s.takeOut x active movementInform := by
  unfold erase MotionMaster.takeOut
  rw [MovementGenerator.eraseKey_eq h.kept.one hx]

/-- An event that says nothing against the set: it is about a generator outside of it. -/
def harmless (s : MotionMaster) : Event → Prop
  | .emplace _ => False
  | .finalize id _ _ => id < s.objects.length ∧ .emplace id ∉ s.events
  | .delete id => id < s.objects.length ∧ .emplace id ∉ s.events
  | .deactivate _ => True
  | .remove asked removed => removed = asked

theorem harmless.mem_events (he : s.harmless e) (id : Nat) :
    .emplace id ∈ (s.note e).events ↔ .emplace id ∈ s.events := by
  show .emplace id ∈ s.events ++ [e] ↔ _
  cases e with
  | emplace i => exact False.elim he
  | finalize i active inform => simp
  | delete i => simp
  | deactivate i => simp
  | remove asked removed => simp

/-- It is not counted for a generator that was in the set, or is yet to come. -/
theorem harmless.counts (he : s.harmless e) (hid : .emplace id ∈ s.events ∨ s.objects.length ≤ id) :
    (s.note e).finalizations id = s.finalizations id ∧
      (s.note e).deletions id = s.deletions id := by
  have hother : ∀ i, i < s.objects.length ∧ .emplace i ∉ s.events → i ≠ id := by
    rintro i ⟨hlt, hout⟩ rfl
    rcases hid with hin | hge
    · exact hout hin
    · omega
  show (s.events ++ [e]).countP (finalizes id) = _ ∧ (s.events ++ [e]).count (.delete id) = _
  rw [List.countP_append, List.count_append]
  cases e with
  | emplace i => exact False.elim he
  | finalize i active inform =>
      have hne := hother i he
      simp [finalizes, finalizations, deletions, hne]
  | delete i =>
      have hne := hother i he
      simp [finalizes, finalizations, deletions, hne]
  | deactivate i => simp [finalizes, finalizations, deletions]
  | remove asked removed => simp [finalizes, finalizations, deletions]

theorem Good.note (h : s.Good) (he : s.harmless e) : (s.note e).Good := by
  refine ⟨⟨h.kept.one, ?_, ?_, h.kept.unitState⟩, ⟨h.stated.map, h.stated.bits⟩, h.known, ?_,
    ?_, ?_⟩
  · intro id hid hout
    rw [he.mem_events] at hid
    rw [(he.counts (.inl hid)).1, (he.counts (.inl hid)).2]
    exact h.kept.left id hid hout
  · intro asked removed hev
    rcases List.mem_append.1 hev with hev | hev
    · exact h.kept.removed asked removed hev
    · rw [List.mem_singleton] at hev
      subst hev
      exact he
  · intro g hg
    obtain ⟨hin, hfin, hdel⟩ := h.emplaced g hg
    obtain ⟨hfin', hdel'⟩ := he.counts (.inl hin)
    exact ⟨(he.mem_events _).2 hin, hfin'.trans hfin, hdel'.trans hdel⟩
  · intro g hg
    rw [he.mem_events]
    exact h.default g hg
  · intro id hid
    obtain ⟨hin, hfin, hdel⟩ := h.fresh id hid
    obtain ⟨hfin', hdel'⟩ := he.counts (.inr hid)
    exact ⟨fun hin' => hin ((he.mem_events id).1 hin'), hfin'.trans hfin, hdel'.trans hdel⟩

theorem Good.deactivate (h : s.Good) (d : Option MovementGenerator) : (s.deactivate d).Good := by
  cases d with
  | none => exact h
  | some g => exact h.note trivial

theorem Good.pop (h : s.Good) : (s.pop active movementInform).Good := by
  unfold MotionMaster.pop
  cases hg : s.generators with
  | nil => exact h
  | cons x xs =>
      have hx : x ∈ s.generators := by
        rw [hg]
        exact List.mem_cons_self
      dsimp only
      rw [h.erase_delete hx]
      exact h.takeOut hx

theorem Good.popAll (h : s.Good) : s.popAll.Good ∧ s.popAll.generators = [] := by
  induction hn : s.generators.length using Nat.strongRecOn generalizing s with
  | ind n ih =>
      rw [MotionMaster.popAll]
      split <;> rename_i hnil
      · exact ⟨h, hnil⟩
      · exact ih _ (hn ▸ length_pop hnil false false) h.pop rfl

theorem Good.clearBaseUnitStates (h : s.Good) (hnil : s.generators = []) :
    s.clearBaseUnitStates.Good := by
  have hmap : s.baseUnitStatesMap = [] := by
    refine List.eq_nil_iff_forall_not_mem.2 fun e he => ?_
    obtain ⟨-, g, hg, -⟩ := (h.stated.map e.1 e.2).1 he
    rw [hnil] at hg
    cases hg
  have hbits : s.clearBaseUnitStates.unitState = unionOf s.generators := by
    show s.unitState &&& ~~~s.baseUnitStatesMap.foldl _ 0 = _
    rw [hmap, h.stated.bits, hnil]
    rfl
  refine ⟨⟨h.kept.one, h.kept.left, h.kept.removed, hbits⟩, ⟨fun b id => ?_, hbits⟩, h.known,
    h.emplaced, h.default, h.fresh⟩
  have hiff := h.stated.map b id
  rw [hmap] at hiff
  exact hiff

theorem Good.directClear (h : s.Good) :
    s.directClear.Good ∧ s.directClear.generators = [] := by
  have hpop : (if s.generators = [] then s else s.pop true false).Good := by
    split
    · exact h
    · exact h.pop
  obtain ⟨hall, hnil⟩ := hpop.popAll
  exact ⟨hall.clearBaseUnitStates hnil, hnil⟩

theorem Good.takeOutAll (h : s.Good) (xs : List MovementGenerator) (hnodup : xs.Nodup)
    (hxs : ∀ x ∈ xs, x ∈ s.generators) (active : MovementGenerator → Bool) :
    (xs.foldl (fun s x => s.takeOut x (active x) false) s).Good := by
  induction xs generalizing s with
  | nil => exact h
  | cons x xs ih =>
      obtain ⟨hx, hnodup⟩ := List.nodup_cons.1 hnodup
      refine ih (h.takeOut (hxs x List.mem_cons_self)) hnodup fun a ha => ?_
      rw [generators_takeOut, h.nodup.mem_erase_iff]
      refine ⟨?_, hxs a (List.mem_cons_of_mem x ha)⟩
      rintro rfl
      exact hx ha

theorem Good.directClearFilter (h : s.Good) (filter : MovementGenerator → Bool) :
    (s.directClearFilter filter).Good :=
  h.takeOutAll (s.generators.filter filter) (h.nodup.filter _)
    (fun _ hx => (List.mem_filter.1 hx).1) fun x => decide (some x = s.generators.head?)

/-- A generator that was made and not yet been in a slot. -/
structure Fresh (g : MovementGenerator) (s : MotionMaster) : Prop where
  known : s.objects[g.id]? = some g
  outside : .emplace g.id ∉ s.events
  untouched : s.Untouched g.id
  default : ∀ d, s.defaultGenerator = some d → d.id ≠ g.id

theorem Good.setDefault (h : s.Good)
    (hd : ∀ g, d = some g → s.objects[g.id]? = some g ∧ .emplace g.id ∉ s.events) :
    { s with defaultGenerator := d }.Good :=
  ⟨⟨h.kept.one, h.kept.left, h.kept.removed, h.kept.unitState⟩, ⟨h.stated.map, h.stated.bits⟩,
    h.known, h.emplaced, hd, h.fresh⟩

theorem Good.replaceDefault (h : s.Good)
    (hd : ∀ g, d = some g → s.objects[g.id]? = some g ∧ .emplace g.id ∉ s.events) (active : Bool) :
    (s.replaceDefault d active).Good := by
  unfold MotionMaster.replaceDefault
  cases hold : s.defaultGenerator with
  | none => exact h.setDefault hd
  | some old =>
      obtain ⟨hobj, hout⟩ := h.default old hold
      have hlt := (List.getElem?_eq_some_iff.1 hobj).1
      have hfin : s.harmless (.finalize old.id active false) := ⟨hlt, hout⟩
      have hdel : (s.note (.finalize old.id active false)).harmless (.delete old.id) :=
        ⟨hlt, fun hin => hout ((hfin.mem_events _).1 hin)⟩
      refine ((h.note hfin).note hdel).setDefault fun g hg => ⟨(hd g hg).1, fun hin => ?_⟩
      exact (hd g hg).2 ((hfin.mem_events _).1 ((hdel.mem_events _).1 hin))

theorem Good.idleDefault (h : s.Good) (active : Bool) : (s.replaceDefault none active).Good :=
  h.replaceDefault (by simp) active

theorem Good.create (h : s.Good) (spec : GeneratorSpec) :
    (s.create spec).2.Good ∧ (s.create spec).2.Fresh (s.create spec).1 := by
  have hold : ∀ {id : Nat} {g : MovementGenerator}, s.objects[id]? = some g →
      (s.create spec).2.objects[id]? = some g := by
    intro id g hg
    show (s.objects ++ _)[id]? = some g
    rw [List.getElem?_append_left (List.getElem?_eq_some_iff.1 hg).1]
    exact hg
  obtain ⟨hout, huntouched⟩ := h.fresh s.objects.length (Nat.le_refl _)
  refine ⟨⟨⟨h.kept.one, h.kept.left, h.kept.removed, h.kept.unitState⟩,
    ⟨h.stated.map, h.stated.bits⟩, fun g hg => hold (h.known g hg), h.emplaced,
    fun g hg => ⟨hold (h.default g hg).1, (h.default g hg).2⟩, fun id hid => ?_⟩,
    ⟨?_, hout, huntouched, fun d hd heq => ?_⟩⟩
  · refine h.fresh id ?_
    have hlen : (s.objects ++ [(s.create spec).1]).length ≤ id := hid
    rw [List.length_append] at hlen
    omega
  · show (s.objects ++ _)[s.objects.length]? = some _
    rw [List.getElem?_append_right (Nat.le_refl _), Nat.sub_self]
    rfl
  · have hlt := (List.getElem?_eq_some_iff.1 (h.default d hd).1).1
    have hlast : d.id = s.objects.length := heq
    omega

/-! ## A generator comes in -/

/-- The generator that makes room for another. -/
def replaced (movement : MovementGenerator) (s : MotionMaster) : Option MovementGenerator :=
  match s.generators with
  | [] => none
  | top :: _ =>
      if movement.priority ≥ top.priority then
        if movement.priority = top.priority then some top else none
      else s.generators.find? fun a => a.priority = movement.priority

theorem replaced_mem (h : s.replaced g = some x) : x ∈ s.generators := by
  unfold replaced at h
  cases hg : s.generators with
  | nil =>
      rw [hg] at h
      cases h
  | cons top rest =>
      rw [hg] at h
      dsimp only at h
      split at h
      · split at h
        · cases h
          exact List.mem_cons_self
        · cases h
      · exact List.mem_of_find?_eq_some h

/-- Room is made by taking that generator out, if there is one. -/
theorem Good.makeRoom_eq (h : s.Good) (g : MovementGenerator) :
    (∃ x active, s.replaced g = some x ∧ s.makeRoom g = s.takeOut x active false) ∨
      s.replaced g = none ∧ ∃ d, s.makeRoom g = s.deactivate d := by
  have hout : ∀ x active, x ∈ s.generators → (s.erase x).delete x active false =
      s.takeOut x active false := fun x active hx => h.erase_delete hx
  unfold makeRoom replaced
  cases hg : s.generators with
  | nil => exact .inr ⟨rfl, s.defaultGenerator, rfl⟩
  | cons top rest =>
      have htop : top ∈ s.generators := by
        rw [hg]
        exact List.mem_cons_self
      dsimp only
      split
      · split
        · exact .inl ⟨top, true, rfl, hout top true htop⟩
        · exact .inr ⟨rfl, some top, rfl⟩
      · cases hfind : (top :: rest).find? fun a => decide (a.priority = g.priority) with
        | none => exact .inr ⟨rfl, none, rfl⟩
        | some x =>
            have hx : x ∈ s.generators := by
              rw [hg]
              exact List.mem_of_find?_eq_some hfind
            exact .inl ⟨x, false, rfl, hout x false hx⟩

theorem Fresh.takeOut (hf : s.Fresh g) (h : s.Good) (hx : x ∈ s.generators) :
    (s.takeOut x active movementInform).Fresh g := by
  have hne : x.id ≠ g.id := by
    intro heq
    exact hf.outside (heq ▸ (h.emplaced x hx).1)
  refine ⟨?_, ?_, ?_, ?_⟩
  · rw [objects_takeOut]
    exact hf.known
  · rw [mem_events_takeOut]
    exact hf.outside
  · rw [untouched_takeOut hne]
    exact hf.untouched
  · rw [defaultGenerator_takeOut]
    exact hf.default

theorem Fresh.deactivate (hf : s.Fresh g) (d : Option MovementGenerator) :
    (s.deactivate d).Fresh g := by
  cases d with
  | none => exact hf
  | some old =>
      have hquiet : s.harmless (.deactivate old.id) := trivial
      refine ⟨hf.known, fun hin => hf.outside ((hquiet.mem_events _).1 hin), ?_, hf.default⟩
      show (s.events ++ [Event.deactivate old.id]).countP (finalizes g.id) = 0 ∧
        (s.events ++ [Event.deactivate old.id]).count (Event.delete g.id) = 0
      have hfin : s.events.countP (finalizes g.id) = 0 := hf.untouched.1
      have hdel : s.events.count (Event.delete g.id) = 0 := hf.untouched.2
      rw [List.countP_append, List.count_append, hfin, hdel]
      exact ⟨rfl, rfl⟩

theorem generators_deactivate (d : Option MovementGenerator) :
    (s.deactivate d).generators = s.generators := by
  cases d <;> rfl

/-- A newcomer whose mode and priority nobody has joins the set. -/
theorem Good.emplace (h : s.Good) (hf : s.Fresh g)
    (hkey : ∀ x ∈ s.generators, x.key ≠ g.key) :
    ({ s with generators := g.emplace s.generators }.note (.emplace g.id)).addBaseUnitState g
      |>.Good := by
  have hmem : ∀ id, Event.emplace id ∈ s.events ++ [.emplace g.id] ↔
      Event.emplace id ∈ s.events ∨ id = g.id := by
    intro id
    simp
  have hcounts : ∀ id, (s.events ++ [Event.emplace g.id]).countP (finalizes id) =
      s.finalizations id ∧
        (s.events ++ [Event.emplace g.id]).count (Event.delete id) = s.deletions id := by
    intro id
    simp [finalizes, finalizations, deletions]
  obtain ⟨s₁, hs₁⟩ : ∃ s₁, s₁ = ({ s with generators := g.emplace s.generators }.note
    (.emplace g.id)).addBaseUnitState g := ⟨_, rfl⟩
  have hgens : s₁.generators = g.emplace s.generators := by
    rw [hs₁]
    unfold addBaseUnitState
    split <;> rfl
  have hobjs : s₁.objects = s.objects := by
    rw [hs₁]
    unfold addBaseUnitState
    split <;> rfl
  have hdefault : s₁.defaultGenerator = s.defaultGenerator := by
    rw [hs₁]
    unfold addBaseUnitState
    split <;> rfl
  have hevents : s₁.events = s.events ++ [.emplace g.id] := by
    rw [hs₁]
    unfold addBaseUnitState
    split <;> rfl
  have hstated : s₁.Stated := by
    have hadd := h.stated.addBaseUnitState g
    rw [hs₁]
    unfold MotionMaster.addBaseUnitState at hadd ⊢
    split <;> rename_i hnone
    · rw [if_pos hnone] at hadd
      exact ⟨hadd.map, hadd.bits⟩
    · rw [if_neg hnone] at hadd
      exact ⟨hadd.map, hadd.bits⟩
  rw [← hs₁]
  have huntouched : ∀ id, s₁.Untouched id ↔ s.Untouched id := by
    intro id
    unfold Untouched
    unfold finalizations deletions
    rw [hevents, (hcounts id).1, (hcounts id).2]
    rfl
  have hlt : g.id < s.objects.length := (List.getElem?_eq_some_iff.1 hf.known).1
  refine ⟨⟨?_, ?_, ?_, hstated.bits⟩, hstated, ?_, ?_, ?_, ?_⟩
  · rw [hgens, ((MovementGenerator.emplace_perm g s.generators).map _).nodup_iff]
    refine List.nodup_cons.2 ⟨fun hin => ?_, h.kept.one⟩
    obtain ⟨x, hx, hxkey⟩ := List.mem_map.1 hin
    exact hkey x hx hxkey
  · intro id hid hgone
    rw [hevents, hmem] at hid
    rw [hgens] at hgone
    unfold finalizations deletions
    rw [hevents, (hcounts id).1, (hcounts id).2]
    rcases hid with hid | rfl
    · exact h.kept.left id hid fun x hx =>
        hgone x (MovementGenerator.mem_emplace.2 (.inr hx))
    · exact absurd rfl (hgone g (MovementGenerator.mem_emplace.2 (.inl rfl)))
  · intro asked removed hev
    rw [hevents] at hev
    exact h.kept.removed asked removed (by simpa using hev)
  · intro x hx
    rw [hgens] at hx
    rw [hobjs]
    rcases MovementGenerator.mem_emplace.1 hx with rfl | hx
    · exact hf.known
    · exact h.known x hx
  · intro x hx
    rw [hgens] at hx
    rw [hevents, hmem, huntouched]
    rcases MovementGenerator.mem_emplace.1 hx with rfl | hx
    · exact ⟨.inr rfl, hf.untouched⟩
    · exact ⟨.inl (h.emplaced x hx).1, (h.emplaced x hx).2⟩
  · intro x hx
    rw [hdefault] at hx
    rw [hobjs, hevents, hmem]
    refine ⟨(h.default x hx).1, ?_⟩
    rintro (hin | heq)
    · exact (h.default x hx).2 hin
    · exact hf.default x hx heq
  · intro id hid
    rw [hobjs] at hid
    rw [hevents, hmem, huntouched]
    refine ⟨?_, (h.fresh id hid).2⟩
    rintro (hin | heq)
    · exact (h.fresh id hid).1 hin
    · omega

/-- Nobody but the one that makes room has the newcomer's mode and priority. -/
def RoomFor (movement : MovementGenerator) (s : MotionMaster) : Prop :=
  ∀ x ∈ s.generators, x.key = movement.key → s.replaced movement = some x

theorem directAdd_active (g : MovementGenerator) (s : MotionMaster) :
    s.directAdd g .active = ({ s.makeRoom g with
      generators := g.emplace (s.makeRoom g).generators }.note
        (.emplace g.id)).addBaseUnitState g := rfl

theorem Good.directAdd (h : s.Good) (hf : s.Fresh g) (hroom : s.RoomFor g) :
    (s.directAdd g .active).Good := by
  rw [directAdd_active]
  rcases h.makeRoom_eq g with ⟨x, active, hrep, heq⟩ | ⟨hrep, d, heq⟩
  · have hx := replaced_mem hrep
    rw [heq]
    refine (h.takeOut hx).emplace (hf.takeOut h hx) fun a ha hkey => ?_
    rw [generators_takeOut, h.nodup.mem_erase_iff] at ha
    have hsame := hroom a ha.2 hkey
    rw [hrep] at hsame
    exact ha.1 (Option.some.inj hsame).symm
  · rw [heq]
    refine (h.deactivate d).emplace (hf.deactivate d) fun a ha hkey => ?_
    rw [generators_deactivate] at ha
    have hsame := hroom a ha hkey
    rw [hrep] at hsame
    cases hsame

/-- Nobody else has the mode and priority of the generator that is to be removed. -/
def Distinct (movement : Nat) (s : MotionMaster) : Prop :=
  ∀ g, s.objects[movement]? = some g → ∀ x ∈ s.generators, x.key = g.key → x.id = movement

theorem find_some (hfind : g.find gs = some x) : x ∈ gs ∧ x.key = g.key :=
  ⟨List.mem_of_find?_eq_some hfind,
    (MovementGenerator.equivalent_iff g x).1 (List.find?_some hfind)⟩

theorem Good.directRemove (h : s.Good) (slot : MovementSlot)
    (hdist : slot = .active → s.Distinct movement) : (s.directRemove movement slot).Good := by
  unfold MotionMaster.directRemove
  cases slot with
  | default =>
      dsimp only
      split
      · exact h.idleDefault _
      · exact h
  | active =>
      dsimp only
      cases hobj : s.objects[movement]? with
      | none => exact h
      | some g =>
          dsimp only
          unfold removeFound
          cases hfind : g.find s.generators with
          | none => exact h
          | some x =>
              obtain ⟨hx, hkey⟩ := find_some hfind
              dsimp only
              rw [h.erase_delete hx]
              exact (h.takeOut hx).note (hdist rfl g hobj x hx hkey)

/-- If what was removed is what was asked for, nobody else is like it. -/
theorem Good.distinct (h : s.Good) (hkept : (s.directRemove movement .active).Kept) :
    s.Distinct movement := by
  intro g hobj x hx hkey
  have hfind : ∃ y, g.find s.generators = some y := by
    refine Option.isSome_iff_exists.1 (List.find?_isSome.2 ⟨x, hx, ?_⟩)
    exact (MovementGenerator.equivalent_iff g x).2 hkey
  obtain ⟨y, hfind⟩ := hfind
  obtain ⟨hy, hykey⟩ := find_some hfind
  have hsame : x = y := List.inj_on_of_nodup_map h.kept.one hx hy (hkey.trans hykey.symm)
  subst hsame
  refine hkept.removed movement x.id ?_
  show _ ∈ (s.directRemove movement .active).events
  unfold MotionMaster.directRemove removeFound
  rw [hobj]
  dsimp only
  rw [hfind]
  exact List.mem_append_right _ (List.mem_singleton.2 rfl)

/-! ## Runs -/

/-- What a call asks of the state it finds. -/
def CallCond (s : MotionMaster) : Call → Prop
  | .add spec .active => (s.create spec).2.RoomFor (s.create spec).1
  | .remove movement .active => s.Distinct movement
  | _ => True

/-- What a step asks: of a call if it is not delayed, and of a delayed one when its turn comes. -/
def Cond (s : MotionMaster) : Op → Prop
  | .call c => s.flagUpdate = false → s.CallCond c
  | .resolve => s.flagUpdate = false → ∀ c, s.delayedActions.head? = some c → s.CallCond c
  | _ => True

theorem Good.exec (h : s.Good) (c : Call) (hc : s.CallCond c) : (s.exec c).Good := by
  cases c with
  | init default =>
      obtain ⟨hclear, -⟩ := (h.idleDefault s.generators.isEmpty).directClear
      show (directInitialize default s).Good
      unfold directInitialize
      cases default with
      | none => exact hclear.idleDefault _
      | some spec =>
          obtain ⟨hgood, hfresh⟩ := hclear.create spec
          exact hgood.replaceDefault (by
            intro g hg
            cases hg
            exact ⟨hfresh.known, hfresh.outside⟩) _
  | add spec slot =>
      obtain ⟨hgood, hfresh⟩ := h.create spec
      cases slot with
      | default =>
          exact hgood.replaceDefault (by
            intro g hg
            cases hg
            exact ⟨hfresh.known, hfresh.outside⟩) _
      | active => exact hgood.directAdd hfresh hc
  | moveIdle => exact h.idleDefault _
  | remove movement slot =>
      cases slot with
      | default => exact h.directRemove .default nofun
      | active => exact h.directRemove .active fun _ => hc
  | removeType type slot =>
      show (directRemoveType type slot s).Good
      unfold directRemoveType
      cases slot with
      | default =>
          dsimp only
          split
          · exact h.idleDefault _
          · exact h
      | active =>
          cases hfind : s.generators.find? fun a => decide (a.type = type) with
          | none => exact h
          | some x =>
              have hx : x ∈ s.generators := List.mem_of_find?_eq_some hfind
              dsimp only
              rw [h.erase_delete hx]
              exact h.takeOut hx
  | clear => exact h.directClear.1
  | clearSlot slot =>
      cases slot with
      | default => exact h.idleDefault _
      | active => exact h.directClear.1
  | clearMode mode => exact h.directClearFilter _
  | clearPriority priority => exact h.directClearFilter _

theorem Good.flags (h : s.Good) (actions : List Call) (flag : Bool) :
    { s with delayedActions := actions, flagUpdate := flag }.Good :=
  ⟨⟨h.kept.one, h.kept.left, h.kept.removed, h.kept.unitState⟩, ⟨h.stated.map, h.stated.bits⟩,
    h.known, h.emplaced, h.default, h.fresh⟩

theorem callCond_flags (actions : List Call) (flag : Bool) (c : Call) :
    { s with delayedActions := actions, flagUpdate := flag }.CallCond c = s.CallCond c := by
  cases c with
  | add spec slot => cases slot <;> rfl
  | remove movement slot => cases slot <;> rfl
  | _ => rfl

theorem Good.step (h : s.Good) (o : Op) (ho : s.Cond o) : (s.step o).Good := by
  cases o with
  | call c =>
      show (call c s).Good
      unfold MotionMaster.call
      cases hflag : s.flagUpdate with
      | true => exact h.flags _ _
      | false => exact h.exec c (ho hflag)
  | beginUpdate => exact h.flags _ _
  | endUpdate finished =>
      show (if s.flagUpdate then s.endUpdate finished else s).Good
      split <;> rename_i hflag
      · unfold endUpdate
        cases finished with
        | false => exact h.flags _ _
        | true =>
            dsimp only
            rw [if_pos rfl]
            split
            · have hcall : (s.call .moveIdle).Good := by
                unfold MotionMaster.call
                rw [if_pos hflag]
                exact h.flags _ _
              exact hcall.flags _ _
            · exact h.pop.flags _ _
      · exact h
  | resolve =>
      show (if s.flagUpdate then s else s.resolve).Good
      cases hflag : s.flagUpdate with
      | true => exact h
      | false =>
          rw [if_neg (by decide)]
          unfold MotionMaster.resolve
          cases hact : s.delayedActions with
          | nil => exact h
          | cons c rest =>
              have hc := ho hflag c (by rw [hact]; rfl)
              dsimp only
              unfold MotionMaster.call
              dsimp only
              rw [hflag, if_neg (by decide)]
              refine (h.flags rest false).exec c ?_
              rw [callCond_flags]
              exact hc

end MotionMaster

end Sunstrider.Movement
