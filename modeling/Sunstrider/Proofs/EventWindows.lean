import Sunstrider.Events.GameEventMgr

/-!
# No window of an event is missed, but one

Up to the next change that `NextCheck` expects, `CheckOneGameEvent` gives the same
answer: before the start, in a window, between two windows and after the end. The one
second where the two do not fit together is the start itself. The event is not on yet,
but the next change is given as the end of its first window.

So a delay of the minimum over all events and a second more leaves a flag wrong for that
second at most, as long as no update falls on the start of an event. `Wickerman Festival`
and those behind it are started only while Hallow's End is on.
-/

namespace Sunstrider.Events

open EventSchedule

/-- A normal event whose windows make sense. -/
structure Regular (data : GameEventData) : Prop where
  normal : data.state = .normal
  ordered : data.start < data.stop
  length_pos : 1 ≤ data.length
  length_le : data.length ≤ data.occurence
  fits : data.occurence * 60 < 2 ^ 32

/-- The edges of the windows, and the two ends. -/
def Boundary (data : GameEventData) (b : Int) : Prop :=
  b = data.start ∨ b = data.stop ∨
    ∃ k : Nat, b = data.start + k * minutes data.occurence ∨
      b = data.start + k * minutes data.occurence + minutes data.length

/-! ## One event -/

theorem uint32_eq {n : Int} (hpos : 0 ≤ n) (hlt : n < 2 ^ 32) : (uint32 n : Int) = n := by
  unfold uint32
  omega

/-- A delay that is cut off is not longer. -/
theorem uint32_le {n : Int} (hpos : 0 ≤ n) : (uint32 n : Int) ≤ n := by
  unfold uint32
  omega

theorem emod_add_of_lt {a d p : Int} (hp : 0 < p) (hd : 0 ≤ d) (hlt : a % p + d < p) :
    (a + d) % p = a % p + d := by
  have hnonneg := Int.emod_nonneg a (Int.ne_of_gt hp)
  rw [← Int.emod_add_emod, Int.emod_eq_of_lt (by omega) hlt]

section OneEvent

variable {s : EventSchedule} {id : Nat} {t t' : Int} (hregular : Regular (s.events id))

include hregular

theorem check_iff : s.checkOneGameEvent t id = true ↔
    (s.events id).start < t ∧ t < (s.events id).stop ∧
      (t - (s.events id).start) % minutes (s.events id).occurence <
        minutes (s.events id).length := by
  unfold EventSchedule.checkOneGameEvent
  simp only [hregular.normal, Bool.and_eq_true, decide_eq_true_eq, and_assoc]

/-- The length of a window and of a round of windows, in seconds. -/
theorem minutes_regular :
    60 ≤ minutes (s.events id).length ∧
      minutes (s.events id).length ≤ minutes (s.events id).occurence ∧
      minutes (s.events id).occurence < 2 ^ 32 := by
  obtain ⟨-, -, hpos, hle, hfits⟩ := hregular
  unfold minutes
  rw [Nat.mod_eq_of_lt hfits, Nat.mod_eq_of_lt (by omega)]
  omega

/-- Before the start and after the end, `NextCheck` is not about windows. -/
theorem nextCheck_outside :
    (t < (s.events id).start → t + s.nextCheck t id ≤ (s.events id).start) ∧
      ((s.events id).stop < t → s.nextCheck t id = maxGeCheckDelay) := by
  have hordered := hregular.ordered
  unfold EventSchedule.nextCheck
  simp only [hregular.normal, reduceCtorEq, or_self, false_and, if_false]
  constructor
  · intro hbefore
    rw [if_neg (by omega), if_pos hbefore]
    have hle := uint32_le (n := (s.events id).start - t) (by omega)
    omega
  · exact fun hafter => if_pos hafter

/-- From the start to the end, it is the edge of a window, or the end. -/
theorem nextCheck_inside (hstart : (s.events id).start ≤ t) (hstop : t ≤ (s.events id).stop) :
    (s.nextCheck t id : Int) = min ((s.events id).stop - t)
      ((if (t - (s.events id).start) % minutes (s.events id).occurence <
          minutes (s.events id).length then (minutes (s.events id).length : Int)
        else minutes (s.events id).occurence) -
          (t - (s.events id).start) % minutes (s.events id).occurence) := by
  obtain ⟨hlow, hle, hhigh⟩ := minutes_regular hregular
  have hnonneg := Int.emod_nonneg (t - (s.events id).start)
    (b := (minutes (s.events id).occurence : Int)) (by omega)
  have hlt := Int.emod_lt_of_pos (t - (s.events id).start)
    (b := (minutes (s.events id).occurence : Int)) (by omega)
  unfold EventSchedule.nextCheck
  simp only [hregular.normal, reduceCtorEq, or_self, false_and, if_false]
  rw [if_neg (by omega), if_neg (by omega)]
  split
  · rename_i hin
    have hdelay := uint32_eq (n := minutes (s.events id).length -
      (t - (s.events id).start) % minutes (s.events id).occurence) (by omega) (by omega)
    split
    · rw [uint32_eq (by omega) (by omega)]
      omega
    · omega
  · rename_i hout
    have hdelay := uint32_eq (n := minutes (s.events id).occurence -
      (t - (s.events id).start) % minutes (s.events id).occurence) (by omega) (by omega)
    split
    · rw [uint32_eq (by omega) (by omega)]
      omega
    · omega

/-- The remainder runs along with the time, up to the next round. -/
theorem passed_add (hle : t ≤ t')
    (hlt : (t - (s.events id).start) % minutes (s.events id).occurence + (t' - t) <
      minutes (s.events id).occurence) :
    (t' - (s.events id).start) % minutes (s.events id).occurence =
      (t - (s.events id).start) % minutes (s.events id).occurence + (t' - t) := by
  have hlow := minutes_regular hregular
  have hadd := emod_add_of_lt (a := t - (s.events id).start) (d := t' - t)
    (p := minutes (s.events id).occurence) (by omega) (by omega) hlt
  rw [← hadd]
  congr 1
  ring

/-- Up to the next check the answer stays, unless the time is the start. -/
theorem check_stays (hnot : ¬ (t = (s.events id).start ∧ t + 1 < (s.events id).stop))
    (hle : t ≤ t') (hlt : t' < t + s.nextCheck t id) :
    s.checkOneGameEvent t' id = s.checkOneGameEvent t id := by
  obtain ⟨hlow, hlen, hhigh⟩ := minutes_regular hregular
  have hordered := hregular.ordered
  rw [Bool.eq_iff_iff, check_iff hregular, check_iff hregular]
  rcases lt_or_ge t (s.events id).start with hbefore | hstart
  · have := (nextCheck_outside hregular).1 hbefore
    omega
  rcases lt_or_ge (s.events id).stop t with hafter | hstop
  · omega
  rw [nextCheck_inside hregular hstart hstop] at hlt
  have hpassed := passed_add hregular hle
  split at hlt
  · rw [hpassed (by omega)]
    omega
  · rw [hpassed (by omega)]
    omega

/-- At the start the event is not on, and a second later it is. -/
theorem check_starts (hlater : (s.events id).start + 1 < (s.events id).stop) :
    s.checkOneGameEvent (s.events id).start id = false ∧
      s.checkOneGameEvent ((s.events id).start + 1) id = true ∧
      (s.events id).start + 1 < (s.events id).start + s.nextCheck (s.events id).start id := by
  obtain ⟨hlow, hlen, hhigh⟩ := minutes_regular hregular
  have hzero : ((s.events id).start - (s.events id).start) % minutes (s.events id).occurence = 0 := by
    rw [sub_self, Int.zero_emod]
  have hone : ((s.events id).start + 1 - (s.events id).start) % minutes (s.events id).occurence =
      1 := by
    rw [add_sub_cancel_left, Int.emod_eq_of_lt (by omega) (by omega)]
  refine ⟨?_, ?_, ?_⟩
  · rw [Bool.eq_false_iff, ne_eq, check_iff hregular]
    omega
  · rw [check_iff hregular, hone]
    omega
  · rw [nextCheck_inside hregular (by omega) (by omega), hzero]
    split <;> omega

/-- Where the answer changes, it does so at an edge. -/
theorem boundary_of_changes
    (hchanges : s.checkOneGameEvent (t + s.nextCheck t id) id ≠ s.checkOneGameEvent t id) :
    Boundary (s.events id) (t + s.nextCheck t id) := by
  obtain ⟨hlow, hlen, hhigh⟩ := minutes_regular hregular
  have hordered := hregular.ordered
  rw [ne_eq, Bool.eq_iff_iff, check_iff hregular, check_iff hregular] at hchanges
  rcases lt_or_ge t (s.events id).start with hbefore | hstart
  · have := (nextCheck_outside hregular).1 hbefore
    omega
  rcases lt_or_ge (s.events id).stop t with hafter | hstop
  · omega
  rw [nextCheck_inside hregular hstart hstop]
  have hdiv := Int.emod_add_mul_ediv (t - (s.events id).start) (minutes (s.events id).occurence)
  have hnonneg := Int.ediv_nonneg (a := t - (s.events id).start)
    (b := (minutes (s.events id).occurence : Int)) (by omega) (by omega)
  obtain ⟨k, hk⟩ := Int.eq_ofNat_of_zero_le hnonneg
  rw [hk] at hdiv
  rcases min_choice ((s.events id).stop - t)
      ((if (t - (s.events id).start) % minutes (s.events id).occurence <
          minutes (s.events id).length then (minutes (s.events id).length : Int)
        else minutes (s.events id).occurence) -
          (t - (s.events id).start) % minutes (s.events id).occurence) with hmin | hmin
  · rw [hmin]
    exact .inr (.inl (by omega))
  · rw [hmin]
    split
    · refine .inr (.inr ⟨k, .inr ?_⟩)
      linarith
    · refine .inr (.inr ⟨k + 1, .inl ?_⟩)
      push_cast
      linarith

end OneEvent

/-! ## One update -/

/-- Every entry that is used is a normal event. -/
def AllRegular (s : EventSchedule) : Prop :=
  ∀ id, 1 ≤ id → id < s.size → Regular (s.events id)

/-- Who is to be started, and who is to be stopped. -/
def toStart (s : EventSchedule) (t : Int) (id : Nat) : Bool :=
  s.checkOneGameEvent t id && !s.isActiveEvent id

def toStop (s : EventSchedule) (t : Int) (id : Nat) : Bool :=
  !s.checkOneGameEvent t id && s.isActiveEvent id

section Update

variable {s : EventSchedule} {t : Int}

theorem visit_eq {sweep : Sweep} {id : Nat} (hs : sweep.schedule = s)
    (hnormal : (s.events id).state = .normal) :
    sweep.visit t id =
      ⟨s, sweep.activate ++ [id].filter (toStart s t), sweep.deactivate ++ [id].filter (toStop s t),
        min sweep.nextEventDelay (s.nextCheck t id)⟩ := by
  have hmin : ∀ m n : Nat, (if m < n then m else n) = min n m := by
    intro m n
    split <;> omega
  subst hs
  unfold Sweep.visit
  simp only [hnormal, reduceCtorEq, false_and, if_false]
  cases hcheck : sweep.schedule.checkOneGameEvent t id with
  | true =>
      cases hactive : sweep.schedule.isActiveEvent id <;>
        simp [Sweep.askNext, hmin, toStart, toStop, hcheck, hactive]
  | false =>
      cases hactive : sweep.schedule.isActiveEvent id <;>
        simp [Sweep.askNext, hmin, toStart, toStop, hcheck, hactive]

/-- The loop queues the events by what they are to do, and finds the least delay. -/
theorem sweep_eq {ids : List Nat} (hnormal : ∀ id ∈ ids, (s.events id).state = .normal)
    (sweep : Sweep) (hs : sweep.schedule = s) :
    (ids.foldl (Sweep.visit t) sweep).schedule = s ∧
      (ids.foldl (Sweep.visit t) sweep).activate = sweep.activate ++ ids.filter (toStart s t) ∧
      (ids.foldl (Sweep.visit t) sweep).deactivate =
        sweep.deactivate ++ ids.filter (toStop s t) ∧
      (ids.foldl (Sweep.visit t) sweep).nextEventDelay ≤ sweep.nextEventDelay ∧
      ∀ id ∈ ids, (ids.foldl (Sweep.visit t) sweep).nextEventDelay ≤ s.nextCheck t id := by
  induction ids generalizing sweep with
  | nil => simp [hs]
  | cons id ids ih =>
      rw [List.foldl_cons, visit_eq hs (hnormal id List.mem_cons_self)]
      obtain ⟨hsame, hstart, hstop, hle, hall⟩ :=
        ih (fun id' hid' => hnormal id' (List.mem_cons_of_mem _ hid'))
          ⟨s, sweep.activate ++ [id].filter (toStart s t),
            sweep.deactivate ++ [id].filter (toStop s t),
            min sweep.nextEventDelay (s.nextCheck t id)⟩ rfl
      refine ⟨hsame, ?_, ?_, le_trans hle (min_le_left _ _), fun id' hid' => ?_⟩
      · rw [hstart, List.append_assoc, ← List.filter_append]
        rfl
      · rw [hstop, List.append_assoc, ← List.filter_append]
        rfl
      · rcases List.mem_cons.1 hid' with rfl | hid'
        · exact le_trans hle (min_le_right _ _)
        · exact hall id' hid'

/-- An event that is started only while Hallow's End is on. -/
def NeedsHallowsEnd (id : Nat) : Prop := wickermanFestival ≤ id ∧ id ≤ horsenameRazorHill

/-- What is queued is on, if Hallow's End is on in time. -/
theorem startAll_eq {activate : List Nat} (hsorted : activate.Pairwise (· < ·))
    (hnormal : ∀ id ∈ activate, (s.events id).state = .normal)
    (hallows : ∀ id ∈ activate, NeedsHallowsEnd id →
      hallowsEnd ∈ s.activeEvents ∨ hallowsEnd ∈ activate) (delay : Nat) :
    s.startAll t activate delay =
      ({ s with activeEvents := s.activeEvents ∪ activate.toFinset }, delay) := by
  induction activate generalizing s with
  | nil => simp [EventSchedule.startAll]
  | cons id activate ih =>
      obtain ⟨hfirst, hrest⟩ := List.pairwise_cons.1 hsorted
      have hstarts : s.startEvent t id = (s.addActiveEvent id, false) := by
        unfold EventSchedule.startEvent
        rw [if_neg, if_pos (.inl (hnormal id List.mem_cons_self))]
        rintro ⟨hneeds, hoff⟩
        have hbelow : hallowsEnd < id := Nat.lt_of_lt_of_le (by decide) hneeds.1
        rcases hallows id List.mem_cons_self hneeds with hon | hqueued
        · exact hoff (decide_eq_true hon)
        · rcases List.mem_cons.1 hqueued with heq | hmem
          · omega
          · have := hfirst hallowsEnd hmem
            omega
      have hnext := ih (s := s.addActiveEvent id) hrest
        (fun id' hid' => hnormal id' (List.mem_cons_of_mem _ hid')) (by
          intro id' hid' hneeds
          rcases hallows id' (List.mem_cons_of_mem _ hid') hneeds with hon | hqueued
          · exact .inl (Finset.mem_insert_of_mem hon)
          · rcases List.mem_cons.1 hqueued with heq | hmem
            · exact .inl (heq ▸ Finset.mem_insert_self _ _)
            · exact .inr hmem)
      unfold EventSchedule.startAll at hnext ⊢
      rw [List.foldl_cons]
      dsimp only
      rw [hstarts]
      dsimp only
      rw [if_neg Bool.false_ne_true, hnext]
      rw [List.toFinset_cons, Finset.union_insert, EventSchedule.addActiveEvent,
        Finset.insert_union]

theorem stopAll_eq {deactivate : List Nat}
    (hnormal : ∀ id ∈ deactivate, (s.events id).state = .normal) :
    deactivate.foldl EventSchedule.stopEvent s =
      { s with activeEvents := s.activeEvents \ deactivate.toFinset } := by
  induction deactivate generalizing s with
  | nil => simp
  | cons id deactivate ih =>
      have hstops : s.stopEvent id = s.removeActiveEvent id := by
        unfold EventSchedule.stopEvent
        dsimp only
        rw [if_neg (by simp [hnormal id List.mem_cons_self])]
      rw [List.foldl_cons, hstops, ih (s := s.removeActiveEvent id) fun id' hid' =>
        hnormal id' (List.mem_cons_of_mem _ hid')]
      rw [List.toFinset_cons, EventSchedule.removeActiveEvent, Finset.sdiff_insert,
        Finset.erase_sdiff_comm]

/-- No event that is to be started waits for Hallow's End. -/
def HallowsInTime (s : EventSchedule) (t : Int) : Prop :=
  ∀ id, 1 ≤ id → id < s.size → NeedsHallowsEnd id → s.checkOneGameEvent t id = true →
    id ∈ s.activeEvents ∨ hallowsEnd ∈ s.activeEvents ∨
      hallowsEnd < s.size ∧ s.checkOneGameEvent t hallowsEnd = true

/-- After an update exactly the events are on that are to be on, and the next one is a
second after the first change that is expected. -/
theorem update_eq (hregular : AllRegular s) (hallows : HallowsInTime s t) :
    ∃ active delay, s.update t = ({ s with activeEvents := active }, (delay + 1) * 1000) ∧
      ∀ id, 1 ≤ id → id < s.size →
        (id ∈ active ↔ s.checkOneGameEvent t id = true) ∧ delay ≤ s.nextCheck t id := by
  have hrange : ∀ {id : Nat}, id ∈ List.range' 1 (s.size - 1) ↔ 1 ≤ id ∧ id < s.size := by
    intro id
    rw [List.mem_range'_1]
    omega
  have hnormal : ∀ id ∈ List.range' 1 (s.size - 1), (s.events id).state = .normal :=
    fun id hid => (hregular id (hrange.1 hid).1 (hrange.1 hid).2).normal
  obtain ⟨hsame, hstart, hstop, -, hdelay⟩ :=
    sweep_eq (t := t) hnormal ⟨s, [], [], maxGeCheckDelay⟩ rfl
  rw [List.nil_append] at hstart hstop
  have hqueue : ∀ {id : Nat}, id ∈ (List.range' 1 (s.size - 1)).filter (toStart s t) ↔
      (1 ≤ id ∧ id < s.size) ∧ s.checkOneGameEvent t id = true ∧ id ∉ s.activeEvents := by
    intro id
    rw [List.mem_filter, hrange]
    simp [toStart, EventSchedule.isActiveEvent]
  have hstarted := startAll_eq (s := s) (t := t)
    (List.Pairwise.sublist (List.filter_sublist (p := toStart s t))
      (List.pairwise_lt_range' (s := 1) (n := s.size - 1) 1))
    (fun id hid => hnormal id (List.mem_of_mem_filter hid)) (by
      intro id hid hneeds
      obtain ⟨⟨hpos, hlt⟩, hcheck, hoff⟩ := hqueue.1 hid
      rcases hallows id hpos hlt hneeds hcheck with hon | hon | ⟨hlt', hcheck'⟩
      · exact absurd hon hoff
      · exact .inl hon
      · by_cases hactive : hallowsEnd ∈ s.activeEvents
        · exact .inl hactive
        · exact .inr (hqueue.2 ⟨⟨by decide, hlt'⟩, hcheck', hactive⟩))
  unfold EventSchedule.update
  dsimp only
  rw [hsame, hstart, hstop, hstarted]
  dsimp only
  rw [stopAll_eq (by exact fun id hid => hnormal id (List.mem_of_mem_filter hid))]
  refine ⟨_, _, rfl, fun id hpos hlt => ⟨?_, hdelay id (hrange.2 ⟨hpos, hlt⟩)⟩⟩
  simp only [Finset.mem_sdiff, Finset.mem_union, List.mem_toFinset, List.mem_filter, hrange,
    toStart, toStop, EventSchedule.isActiveEvent]
  cases s.checkOneGameEvent t id <;> simp [hpos, hlt, Classical.em]

end Update

/-! ## Runs -/

/-- No event starts at this second, and none waits for Hallow's End. -/
def Avoids (s : EventSchedule) (t : Int) : Prop :=
  (∀ id, 1 ≤ id → id < s.size →
    ¬ (t = (s.events id).start ∧ t + 1 < (s.events id).stop)) ∧ HallowsInTime s t

section Run

variable {s : EventSchedule} {t : Int}

theorem update_same (hregular : AllRegular s) (hallows : HallowsInTime s t) :
    (s.update t).1.events = s.events ∧ (s.update t).1.size = s.size := by
  obtain ⟨active, delay, heq, -⟩ := update_eq hregular hallows
  rw [heq]
  exact ⟨rfl, rfl⟩

theorem moment_same (hregular : AllRegular s)
    (havoids : ∀ n, Avoids (s.moment t n).1 (s.moment t n).2) (n : Nat) :
    (s.moment t n).1.events = s.events ∧ (s.moment t n).1.size = s.size := by
  induction n with
  | zero => exact ⟨rfl, rfl⟩
  | succ n ih =>
      have hsame := update_same (s := (s.moment t n).1) (t := (s.moment t n).2)
        (by unfold AllRegular; rw [ih.1, ih.2]; exact hregular) (havoids n).2
      rw [EventSchedule.moment]
      exact ⟨hsame.1.trans ih.1, hsame.2.trans ih.2⟩

theorem check_congr {s' : EventSchedule} (h : s'.events = s.events) (t : Int) (id : Nat) :
    s'.checkOneGameEvent t id = s.checkOneGameEvent t id ∧
      s'.nextCheck t id = s.nextCheck t id := by
  unfold EventSchedule.checkOneGameEvent EventSchedule.nextCheck
  rw [h]
  exact ⟨rfl, rfl⟩

/-- What is right about a flag until the next update: it is as the event is, but for the
second before the update, where the event may have come to an edge. -/
def RightUntil (s : EventSchedule) (active : Finset Nat) (id : Nat) (next t' : Int) : Prop :=
  (id ∈ active ↔ s.checkOneGameEvent t' id = true) ∨
    Boundary (s.events id) t' ∧ t' + 1 = next

/-- What one update leaves is right until the next. -/
theorem update_right (hregular : AllRegular s) (havoids : Avoids s t) {id : Nat} (hpos : 1 ≤ id)
    (hlt : id < s.size) {t' : Int} (hle : t ≤ t')
    (hbefore : t' < t + (s.update t).2 / 1000) :
    RightUntil s (s.update t).1.activeEvents id (t + (s.update t).2 / 1000) t' := by
  obtain ⟨active, delay, heq, hall⟩ := update_eq hregular havoids.2
  obtain ⟨hactive, hdelay⟩ := hall id hpos hlt
  have hnext : ((((delay + 1) * 1000 : Nat) : Int)) / 1000 = delay + 1 := by omega
  rw [heq] at hbefore ⊢
  dsimp only at hbefore ⊢
  rw [hnext] at hbefore ⊢
  rcases lt_or_ge t' (t + s.nextCheck t id) with hstays | hchange
  · refine .inl (hactive.trans ?_)
    rw [check_stays (hregular id hpos hlt) (havoids.1 id hpos hlt) hle hstays]
  · -- the update was to be in time for this event, and it is its turn
    obtain rfl : t' = t + s.nextCheck t id := by omega
    by_cases hsame : s.checkOneGameEvent (t + s.nextCheck t id) id = s.checkOneGameEvent t id
    · exact .inl (hactive.trans (by rw [hsame]))
    · exact .inr ⟨boundary_of_changes (hregular id hpos hlt) hsame, by omega⟩

end Run

/-- Up to the next check that is expected the answer stays the same if and only if the
time is not the start of the event. In a run of updates none of which falls on the start
of an event, every flag is right, but for the second before an update. -/
theorem checkOneGameEvent_stays_iff {s : EventSchedule} (hregular : AllRegular s) :
    (∀ id t, 1 ≤ id → id < s.size →
      ((∀ t', t ≤ t' → t' < t + s.nextCheck t id →
          s.checkOneGameEvent t' id = s.checkOneGameEvent t id) ↔
        ¬ (t = (s.events id).start ∧ t + 1 < (s.events id).stop))) ∧
    ∀ t, (∀ n, Avoids (s.moment t n).1 (s.moment t n).2) →
      ∀ n id t', 1 ≤ id → id < s.size → (s.moment t n).2 ≤ t' → t' < (s.moment t (n + 1)).2 →
        RightUntil s (s.moment t (n + 1)).1.activeEvents id (s.moment t (n + 1)).2 t' := by
  constructor
  · intro id t hpos hlt
    have hone := hregular id hpos hlt
    constructor
    · rintro hstays ⟨rfl, hlater⟩
      obtain ⟨hoff, hon, hbefore⟩ := check_starts hone hlater
      rw [hstays _ (by omega) hbefore, hoff] at hon
      cases hon
    · exact fun hnot t' hle hbefore => check_stays hone hnot hle hbefore
  · intro t havoids n id t' hpos hlt hle hbefore
    obtain ⟨hevents, hsize⟩ := moment_same hregular havoids n
    have hright := update_right (s := (s.moment t n).1) (t := (s.moment t n).2)
      (by unfold AllRegular; rw [hevents, hsize]; exact hregular) (havoids n) hpos
      (hsize ▸ hlt) hle hbefore
    unfold RightUntil at hright ⊢
    rw [(check_congr hevents t' id).1, hevents] at hright
    exact hright

/-! One event, five minutes out of every ten, from second 1000 on. -/

def tenMinutes : EventSchedule where
  events _ := ⟨1000, 1000000, 0, 10, 5, .normal, [], []⟩
  size := 2
  activeEvents := ∅

theorem tenMinutes_regular : AllRegular tenMinutes := fun _ _ _ =>
  ⟨rfl, (by decide : (1000 : Int) < 1000000), (by decide : 1 ≤ 5), (by decide : 5 ≤ 10),
    (by decide : 10 * 60 < 2 ^ 32)⟩

theorem avoids_after_start {s : EventSchedule} {t : Int} (hevents : s.events = tenMinutes.events)
    (hsize : s.size = 2) (ht : 1000 < t) : Avoids s t := by
  refine ⟨fun id _ _ hat => ?_, fun id _ hlt hneeds _ => ?_⟩
  · have hstart : (s.events id).start = 1000 := by rw [hevents]; rfl
    omega
  · have hlow : 150 ≤ id := hneeds.1
    omega

theorem tenMinutes_avoids (n : Nat) :
    Avoids (tenMinutes.moment 1001 n).1 (tenMinutes.moment 1001 n).2 := by
  have hrun : (tenMinutes.moment 1001 n).1.events = tenMinutes.events ∧
      (tenMinutes.moment 1001 n).1.size = 2 ∧ 1000 < (tenMinutes.moment 1001 n).2 := by
    induction n with
    | zero => exact ⟨rfl, rfl, by decide⟩
    | succ n ih =>
        obtain ⟨hevents, hsize, hlater⟩ := ih
        have hregular : AllRegular (tenMinutes.moment 1001 n).1 := by
          intro id hpos hlt
          rw [hevents]
          exact tenMinutes_regular id hpos (lt_of_lt_of_eq hlt hsize)
        have hsame := update_same hregular (avoids_after_start hevents hsize hlater).2
        rw [EventSchedule.moment]
        exact ⟨hsame.1.trans hevents, hsame.2.trans hsize, by dsimp only; omega⟩
  exact avoids_after_start hrun.1 hrun.2.1 hrun.2.2

theorem tenMinutes_stays :
    (∀ t', 1001 ≤ t' → t' < 1001 + (tenMinutes.nextCheck 1001 1 : Int) →
      tenMinutes.checkOneGameEvent t' 1 = true) ∧
    ∀ n t', (tenMinutes.moment 1001 n).2 ≤ t' → t' < (tenMinutes.moment 1001 (n + 1)).2 →
      RightUntil tenMinutes (tenMinutes.moment 1001 (n + 1)).1.activeEvents 1
        (tenMinutes.moment 1001 (n + 1)).2 t' := by
  obtain ⟨hone, hrun⟩ := checkOneGameEvent_stays_iff tenMinutes_regular
  refine ⟨fun t' hle hlt => ?_, fun n t' => hrun 1001 tenMinutes_avoids n 1 t' le_rfl (by decide)⟩
  rw [(hone 1 1001 (by decide) (by decide)).2 (by decide) t' hle hlt]
  decide

/-- Updated on the second of its start, the event is off until its first window is over. -/
theorem tenMinutes_misses_window :
    tenMinutes.nextCheck 1000 1 = 300 ∧
      tenMinutes.checkOneGameEvent 1000 1 = false ∧
      tenMinutes.checkOneGameEvent 1001 1 = true ∧
      (tenMinutes.moment 1000 1).1.activeEvents = ∅ ∧
      (tenMinutes.moment 1000 1).2 = 1301 := by
  decide

end Sunstrider.Events
