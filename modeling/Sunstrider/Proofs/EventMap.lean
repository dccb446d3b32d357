import Sunstrider.Lib.Runs
import Sunstrider.Proofs.EventWords

/-!
# The event map as records

What the map is for: records of a due time, an event, a group and a phase, any number of
each, and a clock. `Makes` says of each call what it makes of the records. `abstraction` is
how the map is read as records, and a call refines the records if it does to the map, read
so, what it should.

All calls touch the entries they are meant for. What they write is wrong in two ways. Times
in the map are `uint32`, so a due time from `2 ^ 32` on is another one. And
`setMinimalDelay` compares the times in the map, which are absolute, with the delay, which
is not: the later it is, the less it does.
-/

namespace Sunstrider.Utilities.EventMap

open Lib

variable {r : EventRecord} {delay group eventId : UInt32}

/-! ## Records -/

structure EventRecord where
  due : Nat
  id : Nat
  group : Nat
  phase : Nat
deriving DecidableEq, Repr

/-- Records with a clock, the current phase and what was executed last: its event, group
and phase. -/
structure Records where
  clock : Nat
  phase : Nat
  last : Nat × Nat × Nat
  records : Multiset EventRecord

namespace Records

/-- A record that a phase does not keep from being executed. -/
def MayRun (a : Records) (r : EventRecord) : Prop :=
  a.phase = 0 ∨ r.phase = 0 ∨ r.phase = a.phase

/-- A record of a group; `0` is no group. -/
def InGroup (group : Nat) (r : EventRecord) : Prop := group ≠ 0 ∧ r.group = group

instance (group : Nat) : DecidablePred (InGroup group) := fun _ =>
  inferInstanceAs (Decidable (_ ∧ _))

/-- The due records that may not run are dropped up to an earliest one that may, which is
executed. If there is none, all of them are. -/
def Executes (a : Records) (result : Nat) (a' : Records) : Prop :=
  ∃ dropped : Multiset EventRecord, (∀ r ∈ dropped, r.due ≤ a.clock ∧ ¬ a.MayRun r) ∧
    ((result = 0 ∧ a' = { a with records := a'.records } ∧ a.records = dropped + a'.records ∧
        ∀ r ∈ a'.records, a.clock < r.due) ∨
      ∃ r, r.due ≤ a.clock ∧ a.MayRun r ∧ result = r.id ∧
        a' = { a with last := (r.id, r.group, r.phase), records := a'.records } ∧
        a.records = dropped + r ::ₘ a'.records ∧ (∀ d ∈ dropped, d.due ≤ r.due) ∧
        ∀ x ∈ a'.records, r.due ≤ x.due)

/-- What a call makes of the records, and its result. -/
def Makes (a : Records) : Op → Nat → Records → Prop
  | .setPhase phase, _, a' => a' = { a with phase := phase.toNat }
  | .scheduleEvent eventId time group phase, _, a' =>
      a' = { a with
        records := ⟨a.clock + time.toNat, eventId.toNat, group.toNat, phase.toNat⟩ ::ₘ a.records }
  | .rescheduleEvent eventId time group phase, _, a' =>
      a' = { a with
        records := ⟨a.clock + time.toNat, eventId.toNat, group.toNat, phase.toNat⟩ ::ₘ
          a.records.filter fun r => r.id ≠ eventId.toNat }
  | .repeatEvent time, _, a' =>
      a' = { a with
        records := ⟨a.clock + time.toNat, a.last.1, a.last.2.1, a.last.2.2⟩ ::ₘ a.records }
  | .delayEvents delay, _, a' => a' = { a with clock := a.clock - delay.toNat }
  | .delayGroup delay group, _, a' =>
      a' = { a with
        records := a.records.map fun r =>
          if InGroup group.toNat r then { r with due := r.due + delay.toNat } else r }
  | .setMinimalDelay eventId delay, _, a' =>
      a' = { a with
        records := a.records.map fun r =>
          if r.id = eventId.toNat then { r with due := max r.due (a.clock + delay.toNat) } else r }
  | .cancelEvent eventId, _, a' =>
      a' = { a with records := a.records.filter fun r => r.id ≠ eventId.toNat }
  | .cancelEventGroup group, _, a' =>
      a' = { a with records := a.records.filter fun r => ¬ InGroup group.toNat r }
  | .update time, _, a' => a' = { a with clock := a.clock + time.toNat }
  | .executeEvent, result, a' => a.Executes result a'

/-- The calls that do what they should: no due time is `2 ^ 32` or later, and where a
minimal delay is set, the clock has not advanced or there is nothing to do. -/
def Meets (a : Records) : Op → Prop
  | .scheduleEvent _ time _ _ => a.clock + time.toNat < 2 ^ 32
  | .rescheduleEvent _ time _ _ => a.clock + time.toNat < 2 ^ 32
  | .repeatEvent time => a.clock + time.toNat < 2 ^ 32
  | .delayGroup delay group =>
      ∀ r ∈ a.records, InGroup group.toNat r → r.due + delay.toNat < 2 ^ 32
  | .setMinimalDelay eventId delay =>
      a.clock = 0 ∨ ∀ r ∈ a.records, r.id = eventId.toNat → a.clock + delay.toNat ≤ r.due
  | _ => True

instance (a : Records) (op : Op) : Decidable (a.Meets op) :=
  match op with
  | .scheduleEvent .. => inferInstanceAs (Decidable (_ < _))
  | .rescheduleEvent .. => inferInstanceAs (Decidable (_ < _))
  | .repeatEvent _ => inferInstanceAs (Decidable (_ < _))
  | .delayGroup .. => inferInstanceAs (Decidable (∀ _ ∈ a.records, _ → _ < _))
  | .setMinimalDelay .. => inferInstanceAs (Decidable (_ ∨ ∀ _ ∈ a.records, _ → _ ≤ _))
  | .setPhase _ => isTrue trivial
  | .delayEvents _ => isTrue trivial
  | .cancelEvent _ => isTrue trivial
  | .cancelEventGroup _ => isTrue trivial
  | .update _ => isTrue trivial
  | .executeEvent => isTrue trivial

end Records

open Records

/-- An entry of the map as a record. -/
def recordOf (e : EventEntry) : EventRecord := ⟨e.1.toNat, idOf e.2, groupOf e.2, phaseOf e.2⟩

def recordsOf (l : List EventEntry) : Multiset EventRecord := (l.map recordOf : List EventRecord)

def abstraction (m : EventMap) : Records :=
  ⟨m.time.toNat, bitIndex m.phase.toNat,
    (idOf m.lastEvent, groupOf m.lastEvent, phaseOf m.lastEvent), recordsOf m.eventMap⟩

/-- The id `ExecuteEvent` returns. -/
def result (m : EventMap) : Op → Nat
  | .executeEvent => m.executeEvent.1.toNat
  | _ => 0

/-- The call does to the map what it should do to the records. -/
def Refines (m : EventMap) (op : Op) : Prop :=
  (abstraction m).Makes op (result m op) (abstraction (m.step op))

/-- Event ids from 1 to 65535, groups and phases from 0 to 8, and a clock below `2 ^ 32`. -/
def InDomain (m : EventMap) : Op → Prop
  | .setPhase phase => phase.toNat ≤ 8
  | .scheduleEvent eventId _ group phase =>
      (0 < eventId.toNat ∧ eventId.toNat < 2 ^ 16) ∧ group.toNat ≤ 8 ∧ phase.toNat ≤ 8
  | .rescheduleEvent eventId _ group phase =>
      (0 < eventId.toNat ∧ eventId.toNat < 2 ^ 16) ∧ group.toNat ≤ 8 ∧ phase.toNat ≤ 8
  | .delayGroup _ group => group.toNat ≤ 8
  | .setMinimalDelay eventId _ => 0 < eventId.toNat ∧ eventId.toNat < 2 ^ 16
  | .cancelEvent eventId => 0 < eventId.toNat ∧ eventId.toNat < 2 ^ 16
  | .cancelEventGroup group => group.toNat ≤ 8
  | .update time => m.time.toNat + time.toNat < 2 ^ 32
  | _ => True

instance (m : EventMap) (op : Op) : Decidable (InDomain m op) :=
  match op with
  | .setPhase phase => inferInstanceAs (Decidable (phase.toNat ≤ 8))
  | .scheduleEvent .. => inferInstanceAs (Decidable (_ ∧ _ ∧ _))
  | .rescheduleEvent .. => inferInstanceAs (Decidable (_ ∧ _ ∧ _))
  | .delayGroup _ group => inferInstanceAs (Decidable (group.toNat ≤ 8))
  | .setMinimalDelay .. => inferInstanceAs (Decidable (_ ∧ _))
  | .cancelEvent _ => inferInstanceAs (Decidable (_ ∧ _))
  | .cancelEventGroup group => inferInstanceAs (Decidable (group.toNat ≤ 8))
  | .update _ => inferInstanceAs (Decidable (_ < _))
  | .repeatEvent _ => isTrue trivial
  | .delayEvents _ => isTrue trivial
  | .executeEvent => isTrue trivial

/-- What every call keeps: the entries in the order of their times, and words that were
made of an event, a group and a phase. -/
structure Valid (m : EventMap) : Prop where
  inTime : InTime EventEntry.key m.eventMap
  words : ∀ e ∈ m.eventMap, Word e.2
  last : Word m.lastEvent
  phase : ∃ p ≤ 8, m.phase.toNat = bit p

theorem valid_new : Valid new :=
  ⟨.nil, fun e he => absurd he List.not_mem_nil, word_zero, 0, by decide, rfl⟩

variable {m : EventMap} {e : EventEntry} {l l' : List EventEntry} {word : UInt32}

/-! ## Lists of entries -/

theorem recordsOf_perm (h : l.Perm l') : recordsOf l = recordsOf l' :=
  Multiset.coe_eq_coe.2 (h.map recordOf)

theorem recordsOf_cons : recordsOf (e :: l) = recordOf e ::ₘ recordsOf l := rfl

theorem recordsOf_append : recordsOf (l ++ l') = recordsOf l + recordsOf l' := by
  rw [recordsOf, List.map_append, ← Multiset.coe_add]
  rfl

theorem mem_recordsOf : r ∈ recordsOf l ↔ ∃ e ∈ l, recordOf e = r := by
  rw [recordsOf, Multiset.mem_coe, List.mem_map]

theorem recordsOf_insertTimed :
    recordsOf (insertTimed EventEntry.key e l) = recordOf e ::ₘ recordsOf l :=
  recordsOf_perm (insertTimed_perm EventEntry.key e l)

theorem due_lt (h : r ∈ recordsOf l) : r.due < 2 ^ 32 := by
  obtain ⟨e, -, rfl⟩ := mem_recordsOf.1 h
  exact e.1.toNat_lt

theorem recordsOf_filter {p : EventEntry → Bool} {q : EventRecord → Prop} [DecidablePred q]
    (h : ∀ e ∈ l, p e = true ↔ q (recordOf e)) :
    recordsOf (l.filter p) = (recordsOf l).filter q := by
  rw [recordsOf, recordsOf, Multiset.filter_coe, List.filter_map]
  refine congrArg (fun l : List EventEntry =>
    ((l.map recordOf : List EventRecord) : Multiset EventRecord)) ?_
  refine List.filter_congr fun e he => ?_
  rw [Bool.eq_iff_iff, h e he]
  exact decide_eq_true_iff.symm

theorem recordsOf_map {f : EventEntry → EventEntry} {g : EventRecord → EventRecord}
    (h : ∀ e ∈ l, recordOf (f e) = g (recordOf e)) :
    recordsOf (l.map f) = (recordsOf l).map g := by
  rw [recordsOf, recordsOf, Multiset.map_coe, List.map_map, List.map_map]
  exact congrArg (fun l : List EventRecord => (l : Multiset EventRecord)) (List.map_congr_left h)

/-! ## The loops -/

/-- `DelayEvents` takes the entries of a group out and puts them in later. -/
theorem delayLoop_perm (l delayed : List EventEntry) :
    ((delayLoop delay group l delayed).1 ++ (delayLoop delay group l delayed).2).Perm
      (delayed ++ l.map fun e => if inGroup group e.2 then (e.1 + delay, e.2) else e) := by
  induction l generalizing delayed with
  | nil =>
      rw [delayLoop, List.map_nil, List.append_nil]
      exact .refl _
  | cons e l ih =>
      rw [delayLoop, List.map_cons]
      split
      · refine (ih _).trans ?_
        refine ((insertTimed_perm EventEntry.key _ delayed).append_right _).trans ?_
        exact List.perm_middle.symm
      · dsimp only
        rw [List.cons_append]
        exact ((ih delayed).cons e).trans List.perm_middle.symm

theorem delayLoop_kept (l delayed : List EventEntry) :
    (delayLoop delay group l delayed).1.Sublist l := by
  induction l generalizing delayed with
  | nil => exact .refl _
  | cons e l ih =>
      rw [delayLoop]
      split
      · exact (ih _).cons e
      · exact (ih delayed).cons_cons e

theorem foldl_insertTimed_perm (delayed kept : List EventEntry) :
    (delayed.foldl (fun l e => insertTimed EventEntry.key e l) kept).Perm (kept ++ delayed) := by
  induction delayed generalizing kept with
  | nil =>
      rw [List.append_nil]
      exact .refl _
  | cons e delayed ih =>
      refine (ih _).trans ?_
      refine ((insertTimed_perm EventEntry.key e kept).append_right delayed).trans ?_
      exact List.perm_middle.symm

theorem foldl_insertTimed_inTime (delayed : List EventEntry) {kept : List EventEntry}
    (h : InTime EventEntry.key kept) :
    InTime EventEntry.key (delayed.foldl (fun l e => insertTimed EventEntry.key e l) kept) := by
  induction delayed generalizing kept with
  | nil => exact h
  | cons e delayed ih => exact ih h.insertTimed

/-- What `SetMinimalDelay` makes of an entry. -/
def raise (eventId delay : UInt32) (e : EventEntry) : EventEntry :=
  if hasId eventId e.2 ∧ e.1 < delay then (delay, e.2) else e

theorem minimalDelayLoop_perm (l : List EventEntry) :
    (minimalDelayLoop eventId delay l).Perm (l.map (raise eventId delay)) := by
  induction l using minimalDelayLoop.induct eventId delay with
  | case1 =>
      rw [minimalDelayLoop]
      exact .refl _
  | case2 e l hlate ih =>
      rw [minimalDelayLoop, if_pos hlate, List.map_cons, raise, if_pos hlate]
      refine ih.trans (((insertTimed_perm EventEntry.key _ l).map _).trans ?_)
      rw [List.map_cons, raise, if_neg fun h => UInt32.lt_irrefl delay h.2]
  | case3 e l hlate ih =>
      rw [minimalDelayLoop, if_neg hlate, List.map_cons, raise, if_neg hlate]
      exact ih.cons e

theorem key_le_key_raise : e.key ≤ (raise eventId delay e).key := by
  rw [raise]
  split
  · rename_i hlate
    exact Nat.le_of_lt (UInt32.lt_iff_toNat_lt.1 hlate.2)
  · exact Nat.le_refl _

theorem minimalDelayLoop_inTime (h : InTime EventEntry.key l) :
    InTime EventEntry.key (minimalDelayLoop eventId delay l) := by
  induction l using minimalDelayLoop.induct eventId delay with
  | case1 =>
      rw [minimalDelayLoop]
      exact .nil
  | case2 e l hlate ih =>
      rw [minimalDelayLoop, if_pos hlate]
      have hl : InTime EventEntry.key l := (List.pairwise_cons.1 h).2
      exact ih hl.insertTimed
  | case3 e l hlate ih =>
      obtain ⟨hle, hl⟩ := List.pairwise_cons.1 h
      rw [minimalDelayLoop, if_neg hlate]
      refine List.pairwise_cons.2 ⟨fun y hy => ?_, ih hl⟩
      obtain ⟨x, hx, rfl⟩ := List.mem_map.1 ((minimalDelayLoop_perm l).subset hy)
      exact Nat.le_trans (hle x hx) key_le_key_raise

/-- `ExecuteEvent` drops entries that are due and of another phase, up to one that is not
of another phase or not due. -/
theorem executeLoop_spec (time : UInt32) (phase : UInt8) (l : List EventEntry) :
    ∃ dropped : List EventEntry,
      (∀ e ∈ dropped, ¬ time < e.1 ∧ ofOtherPhase phase e.2 = true) ∧
      (((executeLoop time phase l).1 = none ∧ l = dropped ++ (executeLoop time phase l).2 ∧
          ∀ e ∈ (executeLoop time phase l).2.head?, time < e.1) ∨
        ∃ e, ¬ time < e.1 ∧ ofOtherPhase phase e.2 = false ∧
          (executeLoop time phase l).1 = some e.2 ∧
          l = dropped ++ e :: (executeLoop time phase l).2) := by
  induction l with
  | nil =>
      refine ⟨[], fun e he => absurd he List.not_mem_nil, .inl ⟨rfl, rfl, fun e he => ?_⟩⟩
      cases he
  | cons e l ih =>
      rw [executeLoop]
      split
      · rename_i hlater
        refine ⟨[], fun e he => absurd he List.not_mem_nil, .inl ⟨rfl, rfl, fun e' he' => ?_⟩⟩
        cases he'
        exact hlater
      split
      · rename_i hdue hother
        obtain ⟨dropped, hdropped, hrest⟩ := ih
        refine ⟨e :: dropped, List.forall_mem_cons.2 ⟨⟨hdue, hother⟩, hdropped⟩, ?_⟩
        rcases hrest with ⟨hnone, hl, hhead⟩ | ⟨e', hdue', hphase', hsome, hl⟩
        · exact .inl ⟨hnone, congrArg (e :: ·) hl, hhead⟩
        · exact .inr ⟨e', hdue', hphase', hsome, congrArg (e :: ·) hl⟩
      · rename_i hdue hother
        refine ⟨[], fun e he => absurd he List.not_mem_nil, .inr ⟨e, hdue, ?_, rfl, rfl⟩⟩
        exact Bool.eq_false_iff.2 hother

/-! ## The calls -/

theorem toNat_shiftLeft_phase :
    ∀ n ≤ 8, n ≠ 0 → ((1 : UInt8) <<< (UInt8.ofNat n - 1)).toNat = bit n := by
  decide

theorem phase_setPhase {phase : UInt8} (h : phase.toNat ≤ 8) :
    (m.setPhase phase).phase.toNat = bit phase.toNat := by
  unfold setPhase
  by_cases hzero : phase = 0
  · rw [if_pos hzero, hzero]
    rfl
  · have hpos : phase.toNat ≠ 0 := fun hz => hzero (UInt8.toNat_inj.1 hz)
    rw [if_neg hzero, if_pos (UInt8.le_iff_toNat_le.2 h)]
    have hbit := toNat_shiftLeft_phase phase.toNat h hpos
    rwa [UInt8.ofNat_toNat] at hbit

theorem setPhase_eq (m : EventMap) (phase : UInt8) :
    m.setPhase phase = { m with phase := (m.setPhase phase).phase } := by
  unfold setPhase
  split
  · rfl
  split
  · rfl
  · rfl

/-- An entry that is put in is the record it should be unless its time wraps around. -/
theorem abstraction_insert_iff {time : UInt32} :
    abstraction (m.insert (m.time + time, word)) =
        { abstraction m with
          records := ⟨m.time.toNat + time.toNat, idOf word, groupOf word, phaseOf word⟩ ::ₘ
            recordsOf m.eventMap } ↔
      m.time.toNat + time.toNat < 2 ^ 32 := by
  constructor
  · intro h
    have hrecords : recordsOf (m.insert (m.time + time, word)).eventMap =
        ⟨m.time.toNat + time.toNat, idOf word, groupOf word, phaseOf word⟩ ::ₘ
          recordsOf m.eventMap := congrArg Records.records h
    have hin : (⟨m.time.toNat + time.toNat, idOf word, groupOf word, phaseOf word⟩ : EventRecord) ∈
        recordsOf (m.insert (m.time + time, word)).eventMap := by
      rw [hrecords]
      exact Multiset.mem_cons_self _ _
    exact due_lt hin
  · intro h
    have hdue : (m.time + time).toNat = m.time.toNat + time.toNat := by
      rw [UInt32.toNat_add, Nat.mod_eq_of_lt h]
    have hrecords : recordsOf (m.insert (m.time + time, word)).eventMap =
        ⟨m.time.toNat + time.toNat, idOf word, groupOf word, phaseOf word⟩ ::ₘ
          recordsOf m.eventMap := by
      rw [← hdue]
      exact recordsOf_insertTimed
    rw [← hrecords]
    rfl

theorem abstraction_cancelEvent :
    abstraction (m.cancelEvent eventId) =
      { abstraction m with
        records := (recordsOf m.eventMap).filter fun r => r.id ≠ eventId.toNat } := by
  have hrecords : recordsOf (m.cancelEvent eventId).eventMap =
      (recordsOf m.eventMap).filter fun r => r.id ≠ eventId.toNat := by
    refine recordsOf_filter fun e _ => ?_
    rw [Bool.not_eq_true', ← Bool.not_eq_true, hasId_iff]
    exact ne_comm
  rw [← hrecords]
  rfl

theorem inGroup_iff_record (hword : Word e.2) (hgroup : group.toNat ≤ 8) (hne : group ≠ 0) :
    inGroup group e.2 = true ↔ InGroup group.toNat (recordOf e) := by
  rw [inGroup_iff hword hgroup hne]
  exact (and_iff_right fun h => hne (UInt32.toNat_inj.1 h)).symm

theorem not_inGroup_zero : ¬ InGroup (0 : UInt32).toNat r := fun h => h.1 rfl

theorem abstraction_cancelEventGroup (hvalid : m.Valid) (hgroup : group.toNat ≤ 8) :
    abstraction (m.cancelEventGroup group) =
      { abstraction m with
        records := (recordsOf m.eventMap).filter fun r => ¬ InGroup group.toNat r } := by
  by_cases hzero : group = 0
  · have hall : ((recordsOf m.eventMap).filter fun r => ¬ InGroup group.toNat r) =
        recordsOf m.eventMap := by
      rw [Multiset.filter_eq_self, hzero]
      exact fun r _ => not_inGroup_zero
    rw [hall, cancelEventGroup, if_pos (.inl hzero)]
    rfl
  · have hrecords : recordsOf (m.cancelEventGroup group).eventMap =
        (recordsOf m.eventMap).filter fun r => ¬ InGroup group.toNat r := by
      rw [cancelEventGroup, if_neg]
      · refine recordsOf_filter fun e he => ?_
        rw [Bool.not_eq_true', ← Bool.not_eq_true,
          inGroup_iff_record (hvalid.words e he) hgroup hzero]
      · rintro (h | h)
        · exact hzero h
        · rw [UInt32.lt_iff_toNat_lt] at h
          exact Nat.not_lt.2 hgroup h
    rw [← hrecords, cancelEventGroup]
    split
    · rfl
    · rfl

/-- The entries of a group with the delay added, if the sums stay below `2 ^ 32`. -/
theorem abstraction_delayGroup_iff (hvalid : m.Valid) (hgroup : group.toNat ≤ 8) :
    abstraction (m.delayGroup delay group) =
        { abstraction m with
          records := (recordsOf m.eventMap).map fun r =>
            if InGroup group.toNat r then { r with due := r.due + delay.toNat } else r } ↔
      ∀ r ∈ recordsOf m.eventMap, InGroup group.toNat r → r.due + delay.toNat < 2 ^ 32 := by
  constructor
  · intro h r hr hin
    have hrecords : recordsOf (m.delayGroup delay group).eventMap =
        (recordsOf m.eventMap).map fun r =>
          if InGroup group.toNat r then { r with due := r.due + delay.toNat } else r :=
      congrArg Records.records h
    have hmem : ({ r with due := r.due + delay.toNat } : EventRecord) ∈
        recordsOf (m.delayGroup delay group).eventMap := by
      rw [hrecords]
      exact Multiset.mem_map.2 ⟨r, hr, if_pos hin⟩
    exact due_lt hmem
  · intro h
    by_cases hzero : group = 0
    · have hall : ((recordsOf m.eventMap).map fun r =>
          if InGroup group.toNat r then { r with due := r.due + delay.toNat } else r) =
          recordsOf m.eventMap := by
        rw [hzero]
        exact (Multiset.map_congr rfl fun r _ => if_neg not_inGroup_zero).trans (Multiset.map_id _)
      rw [hall, delayGroup, if_pos (.inl hzero)]
      rfl
    · have hrange : ¬ (group = 0 ∨ 8 < group) := by
        rintro (h | h)
        · exact hzero h
        · rw [UInt32.lt_iff_toNat_lt] at h
          exact Nat.not_lt.2 hgroup h
      have hperm : (m.delayGroup delay group).eventMap.Perm
          (m.eventMap.map fun e => if inGroup group e.2 then (e.1 + delay, e.2) else e) := by
        rw [delayGroup, if_neg hrange]
        exact (foldl_insertTimed_perm _ _).trans (delayLoop_perm m.eventMap [])
      have hrecords : recordsOf (m.delayGroup delay group).eventMap =
          (recordsOf m.eventMap).map fun r =>
            if InGroup group.toNat r then { r with due := r.due + delay.toNat } else r := by
        refine (recordsOf_perm hperm).trans (recordsOf_map fun e he => ?_)
        have hiff := inGroup_iff_record (hvalid.words e he) hgroup hzero
        by_cases hin : inGroup group e.2 = true
        · have hdue : e.1.toNat + delay.toNat < 2 ^ 32 :=
            h _ (mem_recordsOf.2 ⟨e, he, rfl⟩) (hiff.1 hin)
          rw [if_pos hin, if_pos (hiff.1 hin), recordOf, recordOf, UInt32.toNat_add,
            Nat.mod_eq_of_lt hdue]
        · rw [if_neg hin, if_neg fun hrecord => hin (hiff.2 hrecord)]
      rw [← hrecords, delayGroup, if_neg hrange]
      rfl

theorem recordOf_raise :
    recordOf (raise eventId delay e) =
      if (recordOf e).id = eventId.toNat then
        { recordOf e with due := max (recordOf e).due delay.toNat } else recordOf e := by
  have hid : hasId eventId e.2 = true ↔ (recordOf e).id = eventId.toNat := hasId_iff.trans eq_comm
  by_cases hmine : (recordOf e).id = eventId.toNat
  · rw [if_pos hmine, raise]
    by_cases hlate : e.1 < delay
    · have hdue : (recordOf e).due ≤ delay.toNat := Nat.le_of_lt (UInt32.lt_iff_toNat_lt.1 hlate)
      rw [if_pos ⟨hid.2 hmine, hlate⟩, Nat.max_eq_right hdue]
      rfl
    · have hdue : delay.toNat ≤ (recordOf e).due := by
        rw [UInt32.lt_iff_toNat_lt] at hlate
        exact Nat.not_lt.1 hlate
      rw [if_neg fun h => hlate h.2, Nat.max_eq_left hdue]
  · rw [if_neg hmine, raise, if_neg fun h => hmine (hid.1 h.1)]

/-- The entries of an event are raised to the delay, not to the delay from now on. -/
theorem abstraction_setMinimalDelay_iff :
    abstraction (m.setMinimalDelay eventId delay) =
        { abstraction m with
          records := (recordsOf m.eventMap).map fun r =>
            if r.id = eventId.toNat then
              { r with due := max r.due (m.time.toNat + delay.toNat) } else r } ↔
      m.time.toNat = 0 ∨ ∀ r ∈ recordsOf m.eventMap, r.id = eventId.toNat →
        m.time.toNat + delay.toNat ≤ r.due := by
  have hraised : recordsOf (m.setMinimalDelay eventId delay).eventMap =
      (recordsOf m.eventMap).map fun r =>
        if r.id = eventId.toNat then { r with due := max r.due delay.toNat } else r :=
    (recordsOf_perm (minimalDelayLoop_perm m.eventMap)).trans
      (recordsOf_map fun e _ => recordOf_raise)
  constructor
  · intro h
    by_contra hfails
    rw [not_or] at hfails
    obtain ⟨hclock, hfails⟩ := hfails
    refine hfails fun r hr hmine => ?_
    by_contra hlate
    -- the record is there with a time that no record of its event should have
    have hmem : ({ r with due := max r.due delay.toNat } : EventRecord) ∈
        (recordsOf m.eventMap).map fun r =>
          if r.id = eventId.toNat then
            { r with due := max r.due (m.time.toNat + delay.toNat) } else r := by
      have hrecords : recordsOf (m.setMinimalDelay eventId delay).eventMap =
          (recordsOf m.eventMap).map fun r =>
            if r.id = eventId.toNat then
              { r with due := max r.due (m.time.toNat + delay.toNat) } else r :=
        congrArg Records.records h
      rw [← hrecords, hraised]
      exact Multiset.mem_map.2 ⟨r, hr, if_pos hmine⟩
    obtain ⟨r', -, heq⟩ := Multiset.mem_map.1 hmem
    split at heq
    · have hdue : max r'.due (m.time.toNat + delay.toNat) = max r.due delay.toNat :=
        congrArg EventRecord.due heq
      omega
    · rename_i hother
      exact hother ((congrArg EventRecord.id heq).trans hmine)
  · intro h
    have hsame : ((recordsOf m.eventMap).map fun r =>
        if r.id = eventId.toNat then { r with due := max r.due delay.toNat } else r) =
        (recordsOf m.eventMap).map fun r =>
          if r.id = eventId.toNat then
            { r with due := max r.due (m.time.toNat + delay.toNat) } else r := by
      refine Multiset.map_congr rfl fun r hr => ?_
      by_cases hmine : r.id = eventId.toNat
      · have hmax : max r.due delay.toNat = max r.due (m.time.toNat + delay.toNat) := by
          rcases h with hclock | hall
          · omega
          · have := hall r hr hmine
            omega
        rw [if_pos hmine, if_pos hmine, hmax]
      · rw [if_neg hmine, if_neg hmine]
    rw [← hsame, ← hraised]
    rfl

theorem mayRun_iff (hvalid : m.Valid) (hword : Word e.2) :
    (abstraction m).MayRun (recordOf e) ↔ ofOtherPhase m.phase e.2 = false := by
  obtain ⟨p, hp, hphase⟩ := hvalid.phase
  have habs : (abstraction m).phase = p := by
    show bitIndex m.phase.toNat = p
    rw [hphase, bitIndex_bit hp]
  rw [← Bool.not_eq_true, ofOtherPhase_iff hword hp hphase, MayRun, habs]
  show p = 0 ∨ phaseOf e.2 = 0 ∨ phaseOf e.2 = p ↔ _
  tauto

/-- The entries that are dropped and the one that is executed stand in the order of their
times before what is left. -/
theorem executes_executeEvent (hvalid : m.Valid) :
    (abstraction m).Executes m.executeEvent.1.toNat (abstraction m.executeEvent.2) := by
  obtain ⟨dropped, hdropped, hrest⟩ := executeLoop_spec m.time m.phase m.eventMap
  have hin := hvalid.inTime
  have hwords := hvalid.words
  have hdrop (hmem : ∀ e ∈ dropped, e ∈ m.eventMap) :
      ∀ r ∈ recordsOf dropped, r.due ≤ (abstraction m).clock ∧ ¬ (abstraction m).MayRun r := by
    intro r hr
    obtain ⟨e, he, rfl⟩ := mem_recordsOf.1 hr
    obtain ⟨hdue, hother⟩ := hdropped e he
    rw [UInt32.lt_iff_toNat_lt] at hdue
    refine ⟨Nat.not_lt.1 hdue, fun hmay => ?_⟩
    rw [mayRun_iff hvalid (hwords e (hmem e he)), hother] at hmay
    cases hmay
  rcases hrest with ⟨hnone, hl, hhead⟩ | ⟨e, hdue, hphase, hsome, hl⟩
  · have hmap : m.executeEvent =
        (0, { m with eventMap := (executeLoop m.time m.phase m.eventMap).2 }) := by
      unfold executeEvent
      split
      · rename_i heq
        rw [heq]
      · rename_i heq
        rw [heq] at hnone
        cases hnone
    rw [hmap]
    generalize (executeLoop m.time m.phase m.eventMap).2 = rest at hl hhead
    refine ⟨recordsOf dropped, hdrop fun e he => hl ▸ List.mem_append_left _ he,
      .inl ⟨rfl, rfl, ?_, fun r hr => ?_⟩⟩
    · show recordsOf m.eventMap = _ + recordsOf rest
      rw [hl, recordsOf_append]
    · obtain ⟨e, he, rfl⟩ := mem_recordsOf.1 hr
      rw [hl] at hin
      cases rest with
      | nil => cases he
      | cons first rest =>
          have hfirst := UInt32.lt_iff_toNat_lt.1 (hhead first rfl)
          rcases List.mem_cons.1 he with rfl | he
          · exact hfirst
          · have hle := (List.pairwise_cons.1 (List.pairwise_append.1 hin).2.1).1 e he
            exact Nat.lt_of_lt_of_le hfirst hle
  · have hmap : m.executeEvent = (e.2 &&& 0x0000FFFF,
        { m with eventMap := (executeLoop m.time m.phase m.eventMap).2, lastEvent := e.2 }) := by
      unfold executeEvent
      split
      · rename_i heq
        rw [heq] at hsome
        cases hsome
      · rename_i heq
        rw [heq] at hsome
        cases hsome
        rw [heq]
    rw [hmap]
    generalize (executeLoop m.time m.phase m.eventMap).2 = rest at hl
    have hmem : e ∈ m.eventMap := hl ▸ List.mem_append_right _ List.mem_cons_self
    rw [hl] at hin
    obtain ⟨-, hbehind, hbefore⟩ := List.pairwise_append.1 hin
    rw [UInt32.lt_iff_toNat_lt] at hdue
    refine ⟨recordsOf dropped, hdrop fun e he => hl ▸ List.mem_append_left _ he,
      .inr ⟨recordOf e, Nat.not_lt.1 hdue, (mayRun_iff hvalid (hwords e hmem)).2 hphase,
        toNat_and_ffff, rfl, ?_, fun d hd => ?_, fun x hx => ?_⟩⟩
    · show recordsOf m.eventMap = _ + _ ::ₘ recordsOf rest
      rw [hl, recordsOf_append, recordsOf_cons]
    · obtain ⟨f, hf, rfl⟩ := mem_recordsOf.1 hd
      exact hbefore f hf e List.mem_cons_self
    · obtain ⟨f, hf, rfl⟩ := mem_recordsOf.1 hx
      exact (List.pairwise_cons.1 hbehind).1 f hf

end Sunstrider.Utilities.EventMap

/-!
## Runs of the event map

`Valid` is kept by every call in the domain, so that `abstraction` reads each map a run
comes to. One call refines what it does to the records exactly when it meets the
condition; so does a run, then.
-/

namespace Sunstrider.Utilities.EventMap

open Lib Records

variable {m : EventMap} {l : List EventEntry} {word : UInt32}

/-! ## What every call keeps -/

theorem Valid.of_eventMap (h : m.Valid) (hin : InTime EventEntry.key l)
    (hwords : ∀ e ∈ l, Word e.2) : Valid { m with eventMap := l } :=
  ⟨hin, hwords, h.last, h.phase⟩

theorem Valid.of_sublist (h : m.Valid) (hl : l.Sublist m.eventMap) :
    Valid { m with eventMap := l } :=
  h.of_eventMap (h.inTime.sublist hl) fun e he => h.words e (hl.subset he)

theorem Valid.insert (h : m.Valid) {time : UInt32} (hword : Word word) :
    (m.insert (time, word)).Valid := by
  refine h.of_eventMap h.inTime.insertTimed fun e he => ?_
  rcases mem_insertTimed.1 he with rfl | he
  · exact hword
  · exact h.words e he

theorem Valid.cancelEvent (h : m.Valid) (eventId : UInt32) : (m.cancelEvent eventId).Valid :=
  h.of_sublist List.filter_sublist

theorem Valid.cancelEventGroup (h : m.Valid) (group : UInt32) :
    (m.cancelEventGroup group).Valid := by
  unfold EventMap.cancelEventGroup
  split
  · exact h
  · exact h.of_sublist List.filter_sublist

theorem Valid.delayGroup (h : m.Valid) (delay group : UInt32) :
    (m.delayGroup delay group).Valid := by
  unfold EventMap.delayGroup
  split
  · exact h
  · have hkept : (delayLoop delay group m.eventMap []).1.Sublist m.eventMap :=
      delayLoop_kept m.eventMap []
    refine h.of_eventMap (foldl_insertTimed_inTime _ (h.inTime.sublist hkept)) fun e he => ?_
    have hperm := (foldl_insertTimed_perm (delayLoop delay group m.eventMap []).2
      (delayLoop delay group m.eventMap []).1).trans (delayLoop_perm m.eventMap [])
    obtain ⟨e', he', rfl⟩ := List.mem_map.1 (hperm.subset he)
    split
    · exact h.words e' he'
    · exact h.words e' he'

theorem Valid.setMinimalDelay (h : m.Valid) (eventId delay : UInt32) :
    (m.setMinimalDelay eventId delay).Valid := by
  refine h.of_eventMap (minimalDelayLoop_inTime h.inTime) fun e he => ?_
  obtain ⟨e', he', rfl⟩ := List.mem_map.1 ((minimalDelayLoop_perm m.eventMap).subset he)
  unfold raise
  split
  · exact h.words e' he'
  · exact h.words e' he'

theorem Valid.executeEvent (h : m.Valid) : m.executeEvent.2.Valid := by
  obtain ⟨dropped, -, hrest⟩ := executeLoop_spec m.time m.phase m.eventMap
  unfold EventMap.executeEvent
  split
  · rename_i rest hloop
    rw [hloop] at hrest
    rcases hrest with ⟨-, hl, -⟩ | ⟨e, -, -, hsome, -⟩
    · exact h.of_sublist (hl ▸ List.sublist_append_right dropped rest)
    · cases hsome
  · rename_i word rest hloop
    rw [hloop] at hrest
    rcases hrest with ⟨hnone, -, -⟩ | ⟨e, -, -, hsome, hl⟩
    · cases hnone
    · cases hsome
      have hmem : e ∈ m.eventMap := hl ▸ List.mem_append_right dropped List.mem_cons_self
      have hrest : rest.Sublist m.eventMap :=
        hl ▸ (List.sublist_cons_self e rest).trans (List.sublist_append_right dropped _)
      exact ⟨h.inTime.sublist hrest, fun e' he' => h.words e' (hrest.subset he'),
        h.words e hmem, h.phase⟩

theorem valid_step (h : m.Valid) {op : Op} (hop : InDomain m op) : (m.step op).Valid := by
  cases op with
  | setPhase phase =>
      rw [step, setPhase_eq]
      exact ⟨h.inTime, h.words, h.last, phase.toNat, hop, phase_setPhase hop⟩
  | scheduleEvent eventId time group phase =>
      obtain ⟨hid, hgroup, hphase⟩ := hop
      exact h.insert (word_withBits hid.2 hgroup hphase)
  | rescheduleEvent eventId time group phase =>
      obtain ⟨hid, hgroup, hphase⟩ := hop
      exact (h.cancelEvent eventId).insert (word_withBits hid.2 hgroup hphase)
  | repeatEvent time => exact h.insert h.last
  | delayEvents delay => exact ⟨h.inTime, h.words, h.last, h.phase⟩
  | delayGroup delay group => exact h.delayGroup delay group
  | setMinimalDelay eventId delay => exact h.setMinimalDelay eventId delay
  | cancelEvent eventId => exact h.cancelEvent eventId
  | cancelEventGroup group => exact h.cancelEventGroup group
  | update time => exact ⟨h.inTime, h.words, h.last, h.phase⟩
  | executeEvent => exact h.executeEvent

/-! ## When a call refines -/

theorem abstraction_delayEvents (delay : UInt32) :
    abstraction (m.delayEvents delay) =
      { abstraction m with clock := m.time.toNat - delay.toNat } := by
  have hclock : (m.delayEvents delay).time.toNat = m.time.toNat - delay.toNat := by
    rw [delayEvents]
    dsimp only
    split
    · rename_i hlt
      exact UInt32.toNat_sub_of_le _ _ (UInt32.le_of_lt hlt)
    · rename_i hle
      rw [UInt32.lt_iff_toNat_lt] at hle
      exact (Nat.sub_eq_zero_of_le (Nat.not_lt.1 hle)).symm
  rw [← hclock]
  rfl

/-- What is scheduled has the event, the group and the phase it was scheduled with. -/
theorem abstraction_scheduleEvent_iff {eventId time group : UInt32} {phase : UInt8}
    (hid : eventId.toNat < 2 ^ 16) (hgroup : group.toNat ≤ 8) (hphase : phase.toNat ≤ 8) :
    abstraction (m.scheduleEvent eventId time group phase) =
        { abstraction m with
          records := ⟨m.time.toNat + time.toNat, eventId.toNat, group.toNat, phase.toNat⟩ ::ₘ
            recordsOf m.eventMap } ↔
      m.time.toNat + time.toNat < 2 ^ 32 := by
  have hinsert := @abstraction_insert_iff m (withBits eventId group phase) time
  rwa [idOf_withBits hid hgroup hphase, groupOf_withBits hid hgroup hphase,
    phaseOf_withBits hid hgroup hphase] at hinsert

theorem refines_iff_meets (h : m.Valid) {op : Op} (hop : InDomain m op) :
    Refines m op ↔ (abstraction m).Meets op := by
  cases op with
  | setPhase phase =>
      refine iff_of_true ?_ trivial
      have hphase : bitIndex (m.setPhase phase).phase.toNat = phase.toNat := by
        rw [phase_setPhase hop, bitIndex_bit hop]
      show abstraction (m.setPhase phase) = { abstraction m with phase := phase.toNat }
      rw [setPhase_eq, abstraction, hphase]
      rfl
  | scheduleEvent eventId time group phase =>
      exact abstraction_scheduleEvent_iff hop.1.2 hop.2.1 hop.2.2
  | rescheduleEvent eventId time group phase =>
      have hrecords : recordsOf (m.cancelEvent eventId).eventMap =
          (recordsOf m.eventMap).filter fun r => r.id ≠ eventId.toNat :=
        congrArg Records.records abstraction_cancelEvent
      have hschedule := @abstraction_scheduleEvent_iff (m.cancelEvent eventId) eventId time group
        phase hop.1.2 hop.2.1 hop.2.2
      rw [hrecords] at hschedule
      exact hschedule
  | repeatEvent time => exact abstraction_insert_iff
  | delayEvents delay => exact iff_of_true (abstraction_delayEvents delay) trivial
  | delayGroup delay group => exact abstraction_delayGroup_iff h hop
  | setMinimalDelay eventId delay => exact abstraction_setMinimalDelay_iff
  | cancelEvent eventId => exact iff_of_true abstraction_cancelEvent trivial
  | cancelEventGroup group => exact iff_of_true (abstraction_cancelEventGroup h hop) trivial
  | update time =>
      refine iff_of_true ?_ trivial
      have hclock : (m.time + time).toNat = m.time.toNat + time.toNat := by
        rw [UInt32.toNat_add]
        exact Nat.mod_eq_of_lt hop
      show abstraction (m.update time) =
        { abstraction m with clock := m.time.toNat + time.toNat }
      rw [← hclock]
      rfl
  | executeEvent => exact iff_of_true (executes_executeEvent h) trivial

/-! ## Runs -/

/-- In a run from an empty map all calls do to the records what they should, exactly if
they meet the condition. -/
theorem run_refines_iff {ops : List Op} (hops : Along step InDomain new ops) :
    Along step Refines new ops ↔ Along step (fun m op => (abstraction m).Meets op) new ops :=
  Along.congr (I := Valid) (fun _ _ hvalid hop => valid_step hvalid hop)
    (fun _ _ hvalid hop => refines_iff_meets hvalid hop) valid_new hops

/-- An event of the first phase is dropped in the second, and one of a group is delayed. -/
theorem delayed_group_refines : Along step Refines new
    [.scheduleEvent 3 10 1 0, .scheduleEvent 4 5 0 1, .setPhase 2, .delayGroup 5 1, .update 20,
      .executeEvent, .repeatEvent 7] := by
  refine (run_refines_iff ?_).2 ?_
  · exact ⟨by decide, by decide, by decide, by decide, by decide, trivial, trivial, trivial⟩
  · exact ⟨by decide, by decide, trivial, by decide, trivial, trivial, by decide, trivial⟩

/-- Five milliseconds after the start, an event that is due in one is to have a minimal
delay of three: it is put off by nothing. -/
theorem minimal_delay_is_short :
    Along step InDomain new [.update 5, .scheduleEvent 1 1 0 0, .setMinimalDelay 1 3] ∧
      ¬ Along step Refines new [.update 5, .scheduleEvent 1 1 0 0, .setMinimalDelay 1 3] := by
  refine ⟨⟨by decide, by decide, by decide, trivial⟩, fun h => ?_⟩
  rcases abstraction_setMinimalDelay_iff.1 h.2.2.1 with hclock | hall
  · exact absurd hclock (by decide)
  · exact absurd (hall ⟨6, 1, 0, 0⟩ (by decide) rfl) (by decide)

end Sunstrider.Utilities.EventMap
