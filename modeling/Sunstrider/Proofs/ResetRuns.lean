import Sunstrider.Instances.InstanceSaveMgr

/-!
# What `Update` does with the reset queue

The loop is right as long as an event schedules nothing earlier than itself: the new event goes
behind the one that is handled, and what is erased is that one. Otherwise the new event is the
first of the queue, it is erased without having been handled, and the event that was handled
stays and is handled once more. So the condition is needed as well.

The loop ends in any case. A reset moves the stored time of its map on, and once that time is
an hour ahead of the clock nothing more of the map falls due; everything else raises the type of
an event or takes an event away.
-/

namespace Sunstrider.Instances

open Lib

namespace ResetState

variable {env : ResetConfig} {now : Int}

variable {s s' s₁ : ResetState} {e : Scheduled} {rest : List Scheduled} {turns tag : Nat} {t : Int}
  {event : InstResetEvent}

/-- Elements are in order and have different tags. -/
structure Sound (s : ResetState) : Prop where
  inTime : InTime Scheduled.time s.queue
  nodup : (s.queue.map Scheduled.tag).Nodup
  fresh : ∀ e ∈ s.queue, e.tag < s.nextTag
  logged : ∀ e ∈ s.handled, e.tag < s.nextTag

/-- What handling an event schedules. -/
def schedules (env : ResetConfig) (s : ResetState) (e : Scheduled) :
    Option (Int × InstResetEvent) :=
  let resetTime := s.getResetTimeFor e.event.map
  if e.event.type = 0 then none
  else if e.event.type ≠ 4 then
    some (resetTime - (resetTimeDelay[e.event.type.val]?).getD 0,
      { e.event with type := e.event.type + 1 })
  else
    let next := getSubsequentResetTime env e.event.map resetTime
    if env.instanceable e.event.map = true ∧ next ≠ 0 then
      some (next - 3600, ⟨1, e.event.map, 0⟩)
    else none

/-- A reset finds a reset time to move on. -/
def HasResetTime (env : ResetConfig) (s : ResetState) (e : Scheduled) : Prop :=
  e.event.type = 4 → schedules env s e ≠ none →
    (s.resetTimeByMapDifficulty e.event.map).isSome

/-- What is scheduled is not earlier than the event that schedules it, and a reset finds a reset
time to move on. -/
def Timely (env : ResetConfig) (s : ResetState) (e : Scheduled) : Prop :=
  HasResetTime env s e ∧ ∀ t event, schedules env s e = some (t, event) → e.time ≤ t

/-! ## One turn -/

/-- What the turn for the first element leaves of the queue. -/
def turned (env : ResetConfig) (s : ResetState) (e : Scheduled) (rest : List Scheduled)
    (s' : ResetState) : Prop :=
  match schedules env s e with
  | none => s'.queue = rest ∧ s'.nextTag = s.nextTag
  | some (t, event) => s'.nextTag = s.nextTag + 1 ∧
      if e.time ≤ t then s'.queue = insertTimed Scheduled.time ⟨t, event, s.nextTag⟩ rest
      else ∃ event', event'.map = e.event.map ∧ s'.queue = ⟨e.time, event', e.tag⟩ :: rest ∧
        (e.event.type ≠ 4 → event'.type = e.event.type + 1)

theorem raiseType_queue (hnodup : (s.queue.map Scheduled.tag).Nodup) (hq : s.queue = e :: rest) :
    (s.raiseType e.tag).queue =
      { e with event := { e.event with type := e.event.type + 1 } } :: rest := by
  rw [hq, List.map_cons, List.nodup_cons] at hnodup
  rw [raiseType]
  dsimp only
  rw [hq, List.map_cons, if_pos rfl]
  congr 1
  refine (List.map_congr_left fun x hx => ?_).trans (List.map_id rest)
  rw [if_neg]
  · rfl
  · rintro heq
    exact hnodup.1 (heq ▸ List.mem_map_of_mem hx)

/-- Scheduling behind the first element and erasing that; scheduling in front of it and erasing
what was scheduled. -/
theorem schedule_erase {first : Scheduled} (x : Scheduled) :
    (insertTimed Scheduled.time x (first :: rest)).tail =
      if first.time ≤ x.time then insertTimed Scheduled.time x rest else first :: rest := by
  split <;> rename_i h
  · rw [insertTimed_of_le h, List.tail_cons]
  · rw [insertTimed_of_lt (not_le.1 h), List.tail_cons]

/-- What a turn does: the event is handled, and nothing but the stored time of its own map
changes besides the queue. -/
structure Turn (env : ResetConfig) (s : ResetState) (e : Scheduled) (rest : List Scheduled)
    (s' : ResetState) : Prop where
  handled : s'.handled = s.handled ++ [e]
  turned : turned env s e rest s'
  stored : (s'.resetTimeByMapDifficulty = s.resetTimeByMapDifficulty ∧
      (e.event.type ≠ 4 ∨ schedules env s e = none)) ∨
    (e.event.type = 4 ∧ ∃ next, schedules env s e = some (next - 3600, ⟨1, e.event.map, 0⟩) ∧
      next = getSubsequentResetTime env e.event.map (s.getResetTimeFor e.event.map) ∧
      next ≠ 0 ∧ s'.resetTimeByMapDifficulty =
        Function.update s.resetTimeByMapDifficulty e.event.map (some next))

/-- The event that is handled goes to the ghost list first. -/
def record (s : ResetState) (e : Scheduled) : ResetState := { s with handled := s.handled ++ [e] }

theorem handle_eq (h0 : e.event.type ≠ 0) :
    s.handle env e =
      match (s.record e).resetOrWarnAll env e.event.map (decide (e.event.type ≠ 4))
        (s.getResetTimeFor e.event.map) with
      | none => none
      | some s' =>
          if e.event.type ≠ 4 then
            some ((s'.raiseType e.tag).scheduleReset (s.getResetTimeFor e.event.map -
              (resetTimeDelay[(e.event.type + 1).val - 1]?).getD 0)
                { e.event with type := e.event.type + 1 }).eraseFirst
          else some s'.eraseFirst := by
  rw [handle, if_neg h0]
  rfl

theorem turn_instance (hq : s.queue = e :: rest) (h0 : e.event.type = 0) :
    ∃ s', s.handle env e = some s' ∧ Turn env s e rest s' := by
  have hnone : schedules env s e = none := by rw [schedules, if_pos h0]
  refine ⟨{ s with handled := s.handled ++ [e], queue := rest }, ?_, rfl, ?_,
    Or.inl ⟨rfl, Or.inr hnone⟩⟩
  · rw [handle, if_pos h0, eraseFirst]
    dsimp only
    rw [hq, List.tail_cons]
  · rw [ResetState.turned, hnone]
    exact ⟨rfl, rfl⟩

theorem turn_warning (hs : s.Sound) (hq : s.queue = e :: rest) (h0 : e.event.type ≠ 0)
    (h4 : e.event.type ≠ 4) : ∃ s', s.handle env e = some s' ∧ Turn env s e rest s' := by
  have hnext : (e.event.type + 1).val - 1 = e.event.type.val := by omega
  have hsched : schedules env s e = some (s.getResetTimeFor e.event.map -
      (resetTimeDelay[e.event.type.val]?).getD 0,
        { e.event with type := e.event.type + 1 }) := by
    rw [schedules, if_neg h0, if_pos h4]
  have hraise := raiseType_queue (s := s.record e) hs.nodup hq
  have hwarn : (s.record e).resetOrWarnAll env e.event.map true (s.getResetTimeFor e.event.map) =
      some (s.record e) := by
    rw [resetOrWarnAll]
    split
    · rfl
    · rw [if_pos rfl]
  refine ⟨(((s.record e).raiseType e.tag).scheduleReset (s.getResetTimeFor e.event.map -
    (resetTimeDelay[(e.event.type + 1).val - 1]?).getD 0)
      { e.event with type := e.event.type + 1 }).eraseFirst, ?_, rfl, ?_, Or.inl ⟨rfl, Or.inl h4⟩⟩
  · rw [handle_eq h0, decide_eq_true h4, hwarn]
    dsimp only
    rw [if_pos h4]
  · rw [ResetState.turned, hsched]
    refine ⟨rfl, ?_⟩
    rw [eraseFirst, scheduleReset, hraise]
    dsimp only
    rw [schedule_erase, hnext]
    dsimp only
    split
    · rfl
    · exact ⟨{ e.event with type := e.event.type + 1 }, rfl, rfl, fun _ => rfl⟩

theorem turn_reset (hq : s.queue = e :: rest) (h4 : e.event.type = 4) :
    (¬ HasResetTime env s e ∧ s.handle env e = none) ∨
      (HasResetTime env s e ∧ ∃ s', s.handle env e = some s' ∧ Turn env s e rest s') := by
  have h0 : e.event.type ≠ 0 := by rw [h4]; decide
  have h4' : ¬ e.event.type ≠ 4 := fun h => h h4
  have hsched : schedules env s e =
      if env.instanceable e.event.map = true ∧
          getSubsequentResetTime env e.event.map (s.getResetTimeFor e.event.map) ≠ 0 then
        some (getSubsequentResetTime env e.event.map (s.getResetTimeFor e.event.map) - 3600,
          ⟨1, e.event.map, 0⟩)
      else none := by
    rw [schedules, if_neg h0, if_neg h4']
  have hhandle : s.handle env e =
      ((s.record e).resetOrWarnAll env e.event.map false (s.getResetTimeFor e.event.map)).map
        eraseFirst := by
    rw [handle_eq h0, decide_eq_false h4']
    cases (s.record e).resetOrWarnAll env e.event.map false (s.getResetTimeFor e.event.map) with
    | none => rfl
    | some s' =>
        dsimp only
        rw [if_neg h4']
        rfl
  rw [resetOrWarnAll] at hhandle
  dsimp only at hhandle
  by_cases hmoves : env.instanceable e.event.map = true ∧
      getSubsequentResetTime env e.event.map (s.getResetTimeFor e.event.map) ≠ 0
  · rw [if_pos hmoves] at hsched
    rw [hmoves.1, Bool.not_true, if_neg Bool.false_ne_true, if_neg Bool.false_ne_true,
      if_neg hmoves.2, setResetTimeFor] at hhandle
    cases hstored : s.resetTimeByMapDifficulty e.event.map with
    | none =>
        rw [show (s.record e).resetTimeByMapDifficulty e.event.map = none from hstored] at hhandle
        refine Or.inl ⟨fun h => ?_, hhandle⟩
        have := h h4 (by rw [hsched]; simp)
        rw [hstored] at this
        cases this
    | some old =>
        rw [show (s.record e).resetTimeByMapDifficulty e.event.map = some old from hstored] at hhandle
        refine Or.inr ⟨fun _ _ => by rw [hstored]; rfl, _, hhandle, rfl, ?_,
          Or.inr ⟨h4, _, hsched, rfl, hmoves.2, rfl⟩⟩
        rw [ResetState.turned, hsched]
        refine ⟨rfl, ?_⟩
        unfold eraseFirst scheduleReset
        dsimp only
        rw [show (s.record e).queue = e :: rest from hq, schedule_erase]
        dsimp only
        split
        · rfl
        · exact ⟨e.event, rfl, rfl, fun h => absurd h4 h⟩
  · rw [if_neg hmoves] at hsched
    have hsame : s.handle env e = some (s.record e).eraseFirst := by
      rw [hhandle]
      by_cases hinst : env.instanceable e.event.map = true
      · have hnext := of_not_not (fun h => hmoves ⟨hinst, h⟩)
        rw [hinst, Bool.not_true, if_neg Bool.false_ne_true, if_neg Bool.false_ne_true,
          if_pos hnext]
        rfl
      · rw [Bool.not_eq_true] at hinst
        rw [hinst, Bool.not_false, if_pos rfl]
        rfl
    refine Or.inr ⟨fun _ h => absurd hsched h, _, hsame, rfl, ?_,
      Or.inl ⟨rfl, Or.inr hsched⟩⟩
    rw [ResetState.turned, hsched]
    refine ⟨?_, rfl⟩
    rw [eraseFirst, show (s.record e).queue = e :: rest from hq, List.tail_cons]

variable (env) in
/-- One turn of the loop: it fails at the assertion, or does what is described above. -/
theorem handle_spec (hs : s.Sound) (hq : s.queue = e :: rest) :
    (¬ HasResetTime env s e ∧ s.handle env e = none) ∨
      (HasResetTime env s e ∧ ∃ s', s.handle env e = some s' ∧ Turn env s e rest s') := by
  by_cases h4 : e.event.type = 4
  · exact turn_reset hq h4
  · refine Or.inr ⟨fun h => absurd h h4, ?_⟩
    by_cases h0 : e.event.type = 0
    · exact turn_instance hq h0
    · exact turn_warning hs hq h0 h4

theorem firstDue_eq_some :
    s.firstDue now = some e ↔ ∃ rest, s.queue = e :: rest ∧ e.time < now := by
  rw [firstDue]
  cases hq : s.queue with
  | nil => simp
  | cons x rest =>
      simp only [List.head?_cons, Option.filter_eq_some_iff, Option.some.injEq,
        decide_eq_true_eq, List.cons.injEq]
      constructor
      · rintro ⟨rfl, h⟩
        exact ⟨rest, ⟨rfl, rfl⟩, h⟩
      · rintro ⟨rest', ⟨rfl, rfl⟩, h⟩
        exact ⟨rfl, h⟩

theorem firstDue_eq_none (hs : s.Sound) : s.firstDue now = none ↔ ∀ e ∈ s.queue, now ≤ e.time := by
  have htime := hs.inTime
  rw [firstDue]
  cases hq : s.queue with
  | nil => simp
  | cons x rest =>
      rw [hq] at htime
      simp only [List.head?_cons, Option.filter_eq_none_iff, Option.some.injEq, forall_eq',
        decide_eq_true_eq, not_lt]
      constructor
      · intro h e he
        rcases List.mem_cons.1 he with rfl | he
        · exact h
        · exact h.trans ((List.pairwise_cons.1 htime).1 e he)
      · exact fun h => h x List.mem_cons_self

/-- A turn leaves elements in order, with different tags. -/
theorem Turn.sound (h : Turn env s e rest s') (hs : s.Sound) (hq : s.queue = e :: rest) :
    s'.Sound := by
  have hturned := h.turned
  have htime := hs.inTime
  have hnodup := hs.nodup
  have hfresh := hs.fresh
  rw [hq] at htime hnodup hfresh
  obtain ⟨hfirst, hrest⟩ := List.pairwise_cons.1 htime
  have hfresh' : ∀ x ∈ rest, x.tag < s.nextTag := fun x hx => hfresh x (List.mem_cons_of_mem e hx)
  have hlogged : ∀ x ∈ s'.handled, x.tag < s.nextTag := by
    intro x hx
    rw [h.handled, List.mem_append, List.mem_singleton] at hx
    rcases hx with hx | rfl
    · exact hs.logged x hx
    · exact hfresh x List.mem_cons_self
  rw [ResetState.turned] at hturned
  cases hsched : schedules env s e with
  | none =>
      rw [hsched] at hturned
      obtain ⟨hqueue, htag⟩ := hturned
      refine ⟨?_, ?_, ?_, htag ▸ hlogged⟩
      · rw [hqueue]
        exact hrest
      · rw [hqueue]
        exact (List.nodup_cons.1 hnodup).2
      · rw [hqueue, htag]
        exact hfresh'
  | some p =>
      rw [hsched] at hturned
      obtain ⟨htag, hqueue⟩ := hturned
      have hlogged' : ∀ x ∈ s'.handled, x.tag < s'.nextTag := fun x hx =>
        htag ▸ Nat.lt_succ_of_lt (hlogged x hx)
      split at hqueue
      · have hperm := insertTimed_perm Scheduled.time ⟨p.1, p.2, s.nextTag⟩ rest
        refine ⟨?_, ?_, ?_, hlogged'⟩
        · rw [hqueue]
          exact InTime.insertTimed hrest
        · rw [hqueue, (hperm.map Scheduled.tag).nodup_iff, List.map_cons, List.nodup_cons]
          refine ⟨fun hmem => ?_, (List.nodup_cons.1 hnodup).2⟩
          obtain ⟨x, hx, heq⟩ := List.mem_map.1 hmem
          exact absurd heq (Nat.ne_of_lt (hfresh' x hx))
        · intro x hx
          rw [hqueue, mem_insertTimed] at hx
          rw [htag]
          rcases hx with rfl | hx
          · exact Nat.lt_succ_self _
          · exact Nat.lt_succ_of_lt (hfresh' x hx)
      · obtain ⟨event', -, hqueue, -⟩ := hqueue
        refine ⟨?_, ?_, ?_, hlogged'⟩
        · rw [hqueue]
          exact List.pairwise_cons.2 ⟨hfirst, hrest⟩
        · rw [hqueue]
          exact hnodup
        · intro x hx
          rw [htag]
          rw [hqueue] at hx
          rcases List.mem_cons.1 hx with rfl | hx
          · exact Nat.lt_succ_of_lt (hfresh e List.mem_cons_self)
          · exact Nat.lt_succ_of_lt (hfresh' x hx)

/-! ## Runs of the loop -/

/-- One turn, as a relation. -/
def TurnsTo (env : ResetConfig) (now : Int) (s s' : ResetState) : Prop :=
  ∃ e, s.firstDue now = some e ∧ s.handle env e = some s'

/-- The states the loop comes through. -/
def Passes (env : ResetConfig) (now : Int) : ResetState → ResetState → Prop :=
  Relation.ReflTransGen (TurnsTo env now)

theorem TurnsTo.turn (h : TurnsTo env now s s') (hs : s.Sound) :
    ∃ e rest, s.queue = e :: rest ∧ e.time < now ∧ Turn env s e rest s' := by
  obtain ⟨e, hdue, hhandle⟩ := h
  obtain ⟨rest, hq, hlt⟩ := firstDue_eq_some.1 hdue
  rcases handle_spec env hs hq with ⟨-, hnone⟩ | ⟨-, s'', hsome, hturn⟩
  · rw [hnone] at hhandle
    cases hhandle
  · rw [hsome] at hhandle
    cases hhandle
    exact ⟨e, rest, hq, hlt, hturn⟩

theorem TurnsTo.sound (h : TurnsTo env now s s') (hs : s.Sound) : s'.Sound := by
  obtain ⟨e, rest, hq, -, hturn⟩ := h.turn hs
  exact hturn.sound hs hq

theorem update_done_of_turnsTo (h : update env now turns s = .done s')
    (hturn : TurnsTo env now s s₁) : ∃ turns, update env now turns s₁ = .done s' := by
  obtain ⟨e, hdue, hhandle⟩ := hturn
  cases turns with
  | zero => cases h
  | succ turns =>
      rw [update, hdue] at h
      dsimp only at h
      rw [hhandle] at h
      exact ⟨turns, h⟩

theorem update_done_of_passes (h : update env now turns s = .done s')
    (hpasses : Passes env now s s₁) : ∃ turns, update env now turns s₁ = .done s' := by
  induction hpasses with
  | refl => exact ⟨turns, h⟩
  | tail _ hturn ih =>
      obtain ⟨turns', h'⟩ := ih
      exact update_done_of_turnsTo h' hturn

/-- What is asked of `Update`: it returns; what was handled, in the order of time and when it
was due, and what is left, none of it due, is what was in the queue and what was scheduled. -/
def HandlesDue (env : ResetConfig) (now : Int) (s : ResetState) : Prop :=
  ∃ turns s' handled new, update env now turns s = .done s' ∧
    s'.handled = s.handled ++ handled ∧ s'.nextTag = s.nextTag + new.length ∧
    new.map Scheduled.tag = List.range' s.nextTag new.length ∧
    (handled ++ s'.queue).Perm (s.queue ++ new) ∧
    handled.Pairwise (fun x y => x.time ≤ y.time) ∧
    (∀ x ∈ handled, x.time < now) ∧ ∀ x ∈ s'.queue, now ≤ x.time

/-! ## The loop ends -/

/-- How far the stored time of a map is from being an hour ahead of the clock. -/
def behind (now : Int) (s : ResetState) (map : MapDifficulty) : Nat :=
  (now + 3600 - s.getResetTimeFor map).toNat

/-- How far the maps in the queue are behind. -/
def mapsBehind (now : Int) (s : ResetState) : Nat :=
  (s.queue.map fun e => s.behind now e.event.map).sum

/-- The turns an event that is due has before it while its map is not reset. -/
def turnsLeft (now : Int) (e : Scheduled) : Nat :=
  if e.time < now then 6 - e.event.type.val else 0

def allTurnsLeft (now : Int) (s : ResetState) : Nat := (s.queue.map (turnsLeft now)).sum

theorem getResetTimeFor_congr (h : s'.resetTimeByMapDifficulty = s.resetTimeByMapDifficulty)
    (map : MapDifficulty) : s'.getResetTimeFor map = s.getResetTimeFor map := by
  rw [getResetTimeFor, getResetTimeFor, h]

theorem sum_insertTimed (f : Scheduled → Nat) (x : Scheduled) (rest : List Scheduled) :
    ((insertTimed Scheduled.time x rest).map f).sum = f x + (rest.map f).sum := by
  rw [((insertTimed_perm Scheduled.time x rest).map f).sum_eq, List.map_cons, List.sum_cons]

theorem turnsLeft_pos (h : e.time < now) : 0 < turnsLeft now e := by
  rw [turnsLeft, if_pos h]
  omega

variable (env) in
/-- The next reset is at the hour of the reset on another day. -/
theorem lt_getSubsequentResetTime {map : MapDifficulty} (h : getSubsequentResetTime env map t ≠ 0) :
    t + 60 + (env.resetHour : Int) * 3600 < getSubsequentResetTime env map t := by
  rw [getSubsequentResetTime] at h ⊢
  cases hperiod : env.resetPeriod map with
  | none =>
      rw [hperiod] at h
      exact absurd rfl h
  | some period =>
      dsimp only
      unfold minute day
      have hmax : (86400 : Int) ≤ max (period : Int) 86400 := le_max_right _ _
      have hdiv := Int.tdiv_mul_add_tmod (t + 60) 86400
      have hmod : (t + 60).tmod 86400 < 86400 := Int.tmod_lt_of_pos _ (by decide)
      omega

/-- Whatever a turn schedules is for the map of the event. -/
theorem schedules_map (h : schedules env s e = some (t, event)) : event.map = e.event.map := by
  rw [schedules] at h
  dsimp only at h
  split at h
  · cases h
  · split at h
    · cases h
      rfl
    · split at h
      · cases h
        rfl
      · cases h

/-- What is scheduled for another type than a reset is the next type. -/
theorem schedules_type (h : schedules env s e = some (t, event)) (h4 : e.event.type ≠ 4) :
    event.type.val = e.event.type.val + 1 := by
  rw [schedules] at h
  dsimp only at h
  split at h
  · cases h
  · cases h
    show (e.event.type + 1).val = _
    omega

/-- What is left of the queue after a turn that schedules something: the other elements, and
one more for the same map. -/
theorem Turn.queue_sum (h : Turn env s e rest s') (hsched : schedules env s e = some (t, event))
    (f : Scheduled → Nat) :
    ∃ x : Scheduled, x.event.map = e.event.map ∧ (e.event.type ≠ 4 →
      x.event.type.val = e.event.type.val + 1) ∧ (e.time ≤ t → x.time = t) ∧
        (s'.queue.map f).sum = f x + (rest.map f).sum := by
  have hturned := h.turned
  rw [ResetState.turned, hsched] at hturned
  obtain ⟨-, hqueue⟩ := hturned
  split at hqueue <;> rename_i hle
  · refine ⟨⟨t, event, s.nextTag⟩, schedules_map hsched, schedules_type hsched, fun _ => rfl, ?_⟩
    rw [hqueue, sum_insertTimed]
  · obtain ⟨event', hmap, hqueue, htype⟩ := hqueue
    refine ⟨⟨e.time, event', e.tag⟩, hmap, fun h4 => ?_, fun h => absurd h hle, ?_⟩
    · have hnext := schedules_type hsched h4
      show event'.type.val = _
      rw [htype h4]
      omega
    · rw [hqueue, List.map_cons, List.sum_cons]

/-- A turn brings the end nearer. -/
theorem Turn.nearer (h : Turn env s e rest s') (hq : s.queue = e :: rest) (hlt : e.time < now) :
    mapsBehind now s' < mapsBehind now s ∨
      (mapsBehind now s' ≤ mapsBehind now s ∧ allTurnsLeft now s' < allTurnsLeft now s) := by
  have hpos := turnsLeft_pos hlt
  have hbehind : mapsBehind now s = s.behind now e.event.map +
      (rest.map fun x => s.behind now x.event.map).sum := by
    rw [mapsBehind, hq, List.map_cons, List.sum_cons]
  have hleft : allTurnsLeft now s = turnsLeft now e + (rest.map (turnsLeft now)).sum := by
    rw [allTurnsLeft, hq, List.map_cons, List.sum_cons]
  rcases h.stored with ⟨hstored, hkind⟩ | ⟨h4, next, hsched, hnext, hne, hstored⟩
  · -- no stored time moves: an event less, or one of a higher type in its place
    have hsame : ∀ map, s'.behind now map = s.behind now map := fun map => by
      rw [behind, behind, getResetTimeFor_congr hstored]
    refine Or.inr ?_
    rw [mapsBehind, allTurnsLeft, hbehind, hleft]
    simp only [hsame]
    cases hsched : schedules env s e with
    | none =>
        have hturned := h.turned
        rw [ResetState.turned, hsched] at hturned
        rw [hturned.1]
        omega
    | some p =>
        have h4 := hkind.resolve_right (by rw [hsched]; simp)
        obtain ⟨x, hmap, -, -, hsum⟩ := h.queue_sum hsched fun x => s.behind now x.event.map
        obtain ⟨y, -, htype, -, hsum'⟩ := h.queue_sum hsched (turnsLeft now)
        rw [hsum, hsum', hmap]
        refine ⟨le_refl _, Nat.add_lt_add_right ?_ _⟩
        rw [turnsLeft, turnsLeft, if_pos hlt, htype h4]
        split <;> omega
  · have hlater : s.getResetTimeFor e.event.map < next := by
      have := lt_getSubsequentResetTime env (hnext ▸ hne)
      omega
    have hget : ∀ map, s'.getResetTimeFor map =
        if map = e.event.map then next else s.getResetTimeFor map := by
      intro map
      rw [getResetTimeFor, hstored, Function.update_apply]
      split <;> rfl
    have hle : ∀ map, s'.behind now map ≤ s.behind now map := by
      intro map
      rw [behind, behind, hget]
      split <;> rename_i hmap
      · subst hmap
        omega
      · exact le_refl _
    obtain ⟨x, hmap, -, -, hsum⟩ := h.queue_sum hsched fun x => s'.behind now x.event.map
    have hrest : (rest.map fun x => s'.behind now x.event.map).sum ≤
        (rest.map fun x => s.behind now x.event.map).sum :=
      List.sum_le_sum fun y _ => hle y.event.map
    rw [show mapsBehind now s' = _ from hsum, hmap, hbehind]
    by_cases hzero : s.behind now e.event.map = 0
    · -- the new event is not due
      refine Or.inr ⟨by have := hle e.event.map; omega, ?_⟩
      obtain ⟨y, -, -, htime, hsum'⟩ := h.queue_sum hsched (turnsLeft now)
      rw [behind] at hzero
      rw [show allTurnsLeft now s' = _ from hsum', hleft, turnsLeft, htime (by omega),
        if_neg (by omega)]
      omega
    · left
      have hless : s'.behind now e.event.map < s.behind now e.event.map := by
        rw [behind, hget, if_pos rfl]
        rw [behind] at hzero ⊢
        omega
      omega

variable (env now) in
theorem update_ends (s : ResetState) (hs : s.Sound) :
    ∃ turns, update env now turns s = .asserted ∨ ∃ s', update env now turns s = .done s' := by
  cases hdue : s.firstDue now with
  | none =>
      refine ⟨1, Or.inr ⟨s, ?_⟩⟩
      rw [update, hdue]
  | some e =>
      cases hhandle : s.handle env e with
      | none =>
          refine ⟨1, Or.inl ?_⟩
          rw [update, hdue]
          dsimp only
          rw [hhandle]
      | some s₁ =>
          have hturns : TurnsTo env now s s₁ := ⟨e, hdue, hhandle⟩
          obtain ⟨e', rest, hq, hlt, hturn⟩ := hturns.turn hs
          have hnearer := hturn.nearer hq hlt
          obtain ⟨turns, hend⟩ := update_ends s₁ (hturn.sound hs hq)
          refine ⟨turns + 1, ?_⟩
          rw [update, hdue]
          dsimp only
          rw [hhandle]
          exact hend
termination_by (mapsBehind now s, allTurnsLeft now s)
decreasing_by
  rw [Prod.lex_def]
  omega

/-! ## The condition is enough -/

/-- Whatever the loop comes to handle, it schedules nothing earlier than itself. -/
def AllTimely (env : ResetConfig) (now : Int) (s : ResetState) : Prop :=
  ∀ s', Passes env now s s' → ∀ e, s'.firstDue now = some e → Timely env s' e

theorem AllTimely.turn (h : AllTimely env now s) (hturn : TurnsTo env now s s') :
    AllTimely env now s' :=
  fun s₁ hpasses => h s₁ (.head hturn hpasses)

/-- A turn that schedules nothing earlier takes the event it handles from the queue, and adds
what it schedules. -/
theorem Turn.timely (h : Turn env s e rest s') (htimely : Timely env s e)
    (hq : s.queue = e :: rest) :
    ∃ new, (e :: s'.queue).Perm (s.queue ++ new) ∧ s'.nextTag = s.nextTag + new.length ∧
      new.map Scheduled.tag = List.range' s.nextTag new.length ∧ ∀ x ∈ new, e.time ≤ x.time := by
  have hturned := h.turned
  rw [ResetState.turned] at hturned
  cases hsched : schedules env s e with
  | none =>
      rw [hsched] at hturned
      refine ⟨[], ?_, hturned.2, rfl, by simp⟩
      rw [hturned.1, hq, List.append_nil]
  | some p =>
      rw [hsched] at hturned
      have hle := htimely.2 p.1 p.2 hsched
      obtain ⟨htag, hqueue⟩ := hturned
      rw [if_pos hle] at hqueue
      refine ⟨[⟨p.1, p.2, s.nextTag⟩], ?_, htag, rfl, by simpa using hle⟩
      rw [hqueue, hq, List.cons_append]
      exact .cons e ((insertTimed_perm _ _ _).trans (List.perm_append_singleton _ _).symm)

theorem handles_of_done (hs : s.Sound) (hall : AllTimely env now s)
    (hdone : update env now turns s = .done s') :
    ∃ handled new, s'.handled = s.handled ++ handled ∧ s'.nextTag = s.nextTag + new.length ∧
      new.map Scheduled.tag = List.range' s.nextTag new.length ∧
      (handled ++ s'.queue).Perm (s.queue ++ new) ∧
      handled.Pairwise (fun x y => x.time ≤ y.time) ∧
      (∀ x ∈ handled, x.time < now) ∧ (∀ x ∈ s'.queue, now ≤ x.time) ∧
      ∀ b, (∀ x ∈ s.queue, b ≤ x.time) → ∀ x ∈ handled, b ≤ x.time := by
  induction turns generalizing s with
  | zero => cases hdone
  | succ turns ih =>
      rw [update] at hdone
      cases hdue : s.firstDue now with
      | none =>
          rw [hdue] at hdone
          cases hdone
          exact ⟨[], [], (List.append_nil _).symm, rfl, rfl, by simp, .nil, by simp,
            (firstDue_eq_none hs).1 hdue, by simp⟩
      | some e =>
          rw [hdue] at hdone
          dsimp only at hdone
          cases hhandle : s.handle env e with
          | none =>
              rw [hhandle] at hdone
              cases hdone
          | some s₁ =>
              rw [hhandle] at hdone
              have hturns : TurnsTo env now s s₁ := ⟨e, hdue, hhandle⟩
              obtain ⟨e', rest, hq, hlt, hturn⟩ := hturns.turn hs
              obtain ⟨rest', hq', -⟩ := firstDue_eq_some.1 hdue
              rw [hq] at hq'
              cases hq'
              have htimely := hall s .refl e hdue
              obtain ⟨new₁, hperm₁, htag₁, hnew₁, hlate⟩ := hturn.timely htimely hq
              obtain ⟨handled, new, hhandled, htag, hnew, hperm, horder, hearly, hleft, hbound⟩ :=
                ih (hturn.sound hs hq) (hall.turn hturns) hdone
              have hfirst : ∀ x ∈ s.queue, e.time ≤ x.time := by
                have htime := hs.inTime
                rw [hq] at htime ⊢
                intro x hx
                rcases List.mem_cons.1 hx with rfl | hx
                · exact le_refl _
                · exact (List.pairwise_cons.1 htime).1 x hx
              have hafter : ∀ x ∈ s₁.queue, x ∈ s.queue ∨ x ∈ new₁ := fun x hx =>
                List.mem_append.1 (hperm₁.mem_iff.1 (List.mem_cons_of_mem e hx))
              refine ⟨e :: handled, new₁ ++ new, ?_, ?_, ?_, ?_, ?_, ?_, hleft, ?_⟩
              · rw [hhandled, hturn.handled, List.append_assoc]
                rfl
              · rw [htag, htag₁, List.length_append, Nat.add_assoc]
              · rw [List.map_append, hnew, hnew₁, htag₁, List.length_append,
                  List.range'_append_1]
              · have h₁ : (e :: (handled ++ s'.queue)).Perm (e :: (s₁.queue ++ new)) :=
                  .cons e hperm
                have h₂ : (e :: (s₁.queue ++ new)).Perm ((s.queue ++ new₁) ++ new) :=
                  hperm₁.append_right new
                rw [← List.append_assoc]
                exact h₁.trans h₂
              · refine List.pairwise_cons.2 ⟨fun x hx => ?_, horder⟩
                refine hbound e.time (fun y hy => ?_) x hx
                rcases hafter y hy with hy | hy
                · exact hfirst y hy
                · exact hlate y hy
              · intro x hx
                rcases List.mem_cons.1 hx with rfl | hx
                · exact hlt
                · exact hearly x hx
              · intro b hb x hx
                have hbe : b ≤ e.time := hb e (by rw [hq]; exact List.mem_cons_self)
                rcases List.mem_cons.1 hx with rfl | hx
                · exact hbe
                · refine hbound b (fun y hy => ?_) x hx
                  rcases hafter y hy with hy | hy
                  · exact hb y hy
                  · exact hbe.trans (hlate y hy)

theorem not_asserted (hs : s.Sound) (hall : AllTimely env now s) :
    update env now turns s ≠ .asserted := by
  induction turns generalizing s with
  | zero =>
      intro h
      cases h
  | succ turns ih =>
      rw [update]
      cases hdue : s.firstDue now with
      | none =>
          intro h
          cases h
      | some e =>
          dsimp only
          obtain ⟨rest, hq, -⟩ := firstDue_eq_some.1 hdue
          rcases handle_spec env hs hq with ⟨hno, -⟩ | ⟨-, s₁, hsome, hturn⟩
          · exact absurd (hall s .refl e hdue).1 hno
          · rw [hsome]
            exact ih (hturn.sound hs hq) (hall.turn ⟨e, hdue, hsome⟩)

/-! ## The condition is needed -/

/-- An element that is gone and was not handled. -/
def Lost (s : ResetState) (tag : Nat) : Prop :=
  tag < s.nextTag ∧ (∀ x ∈ s.queue, x.tag ≠ tag) ∧ ∀ x ∈ s.handled, x.tag ≠ tag

theorem Lost.turn (h : s.Lost tag) (hs : s.Sound) (hturns : TurnsTo env now s s') :
    s'.Lost tag := by
  obtain ⟨e, rest, hq, -, hturn⟩ := hturns.turn hs
  obtain ⟨hlt, hqueue, hhandled⟩ := h
  rw [hq] at hqueue
  have hrest : ∀ x ∈ rest, x.tag ≠ tag := fun x hx => hqueue x (List.mem_cons_of_mem e hx)
  have hhandled' : ∀ x ∈ s'.handled, x.tag ≠ tag := by
    intro x hx
    rw [hturn.handled, List.mem_append, List.mem_singleton] at hx
    rcases hx with hx | rfl
    · exact hhandled x hx
    · exact hqueue x List.mem_cons_self
  have hturned := hturn.turned
  rw [ResetState.turned] at hturned
  cases hsched : schedules env s e with
  | none =>
      rw [hsched] at hturned
      refine ⟨hturned.2 ▸ hlt, ?_, hhandled'⟩
      rw [hturned.1]
      exact hrest
  | some p =>
      rw [hsched] at hturned
      refine ⟨hturned.1 ▸ Nat.lt_succ_of_lt hlt, ?_, hhandled'⟩
      intro x hx
      have hqueue' := hturned.2
      split at hqueue'
      · rw [hqueue', mem_insertTimed] at hx
        rcases hx with rfl | hx
        · exact Nat.ne_of_gt hlt
        · exact hrest x hx
      · obtain ⟨event', -, hq', -⟩ := hqueue'
        rw [hq'] at hx
        rcases List.mem_cons.1 hx with rfl | hx
        · exact hqueue e List.mem_cons_self
        · exact hrest x hx

/-- An event that is scheduled before the one that schedules it is lost. -/
theorem Turn.lost (h : Turn env s e rest s') (hs : s.Sound) (hq : s.queue = e :: rest)
    (hsched : schedules env s e = some (t, event)) (ht : t < e.time) : s'.Lost s.nextTag := by
  have hturned := h.turned
  rw [ResetState.turned, hsched] at hturned
  obtain ⟨htag, hqueue⟩ := hturned
  rw [if_neg (not_le.2 ht)] at hqueue
  obtain ⟨event', -, hqueue, -⟩ := hqueue
  have hfresh := hs.fresh
  rw [hq] at hfresh
  refine ⟨by omega, fun x hx => ?_, fun x hx => ?_⟩
  · rw [hqueue] at hx
    rcases List.mem_cons.1 hx with rfl | hx
    · exact Nat.ne_of_lt (hfresh e List.mem_cons_self)
    · exact Nat.ne_of_lt (hfresh x (List.mem_cons_of_mem e hx))
  · rw [h.handled, List.mem_append, List.mem_singleton] at hx
    rcases hx with hx | rfl
    · exact Nat.ne_of_lt (hs.logged x hx)
    · exact Nat.ne_of_lt (hfresh x List.mem_cons_self)

theorem Passes.sound (h : Passes env now s s') (hs : s.Sound) : s'.Sound := by
  induction h with
  | refl => exact hs
  | tail _ hturn ih => exact hturn.sound ih

theorem Passes.lost (h : Passes env now s s') (hs : s.Sound) (hlost : s.Lost tag) :
    s'.Lost tag := by
  induction h with
  | refl => exact hlost
  | tail hpasses hturn ih => exact ih.turn (Passes.sound hpasses hs) hturn

theorem passes_of_done (h : update env now turns s = .done s') : Passes env now s s' := by
  induction turns generalizing s with
  | zero => cases h
  | succ turns ih =>
      rw [update] at h
      cases hdue : s.firstDue now with
      | none =>
          rw [hdue] at h
          cases h
          exact .refl
      | some e =>
          rw [hdue] at h
          dsimp only at h
          cases hhandle : s.handle env e with
          | none =>
              rw [hhandle] at h
              cases h
          | some s₁ =>
              rw [hhandle] at h
              exact .head ⟨e, hdue, hhandle⟩ (ih h)

theorem Passes.nextTag_le (h : Passes env now s s') (hs : s.Sound) : s.nextTag ≤ s'.nextTag := by
  induction h with
  | refl => exact le_refl _
  | tail hpasses hturns ih =>
      obtain ⟨e, rest, -, -, hturn⟩ := hturns.turn (Passes.sound hpasses hs)
      refine ih.trans ?_
      have hturned := hturn.turned
      rw [ResetState.turned] at hturned
      split at hturned
      · exact le_of_eq hturned.2.symm
      · rw [hturned.1]
        exact Nat.le_succ _

/-- Once a scheduled event is lost, the queue has not been handled as it should be. -/
theorem not_handlesDue_of_lost (hs : s.Sound) (hpasses : Passes env now s s₁)
    (htag : s.nextTag ≤ tag) (hlost : s₁.Lost tag) : ¬ HandlesDue env now s := by
  rintro ⟨turns, s', handled, new, hdone, hhandled, hnext, hnew, hperm, -⟩
  obtain ⟨turns₁, hdone₁⟩ := update_done_of_passes hdone hpasses
  obtain ⟨hbelow, hnotLeft, hnotHandled⟩ :=
    (passes_of_done hdone₁).lost (hpasses.sound hs) hlost
  have hmem : tag ∈ new.map Scheduled.tag := by
    rw [hnew, List.mem_range'_1]
    exact ⟨htag, hnext ▸ hbelow⟩
  obtain ⟨x, hx, heq⟩ := List.mem_map.1 hmem
  rcases List.mem_append.1 (hperm.mem_iff.2 (List.mem_append_right s.queue hx)) with h | h
  · exact hnotHandled x (by rw [hhandled]; exact List.mem_append_right _ h) heq
  · exact hnotLeft x h heq

/-- A queue is handled as it should be if and only if nothing the loop comes to handle schedules
an event before itself, and every reset finds a reset time to move on. -/
theorem handlesDue_iff {s : ResetState} (hs : s.Sound) :
    HandlesDue env now s ↔ AllTimely env now s := by
  constructor
  · intro hdue s₁ hpasses e hfirst
    have hs₁ := hpasses.sound hs
    obtain ⟨rest, hq, hlt⟩ := firstDue_eq_some.1 hfirst
    rcases handle_spec env hs₁ hq with ⟨-, hnone⟩ | ⟨hhas, s₂, hsome, hturn⟩
    · -- the assertion would end the loop
      obtain ⟨turns, s', -, -, hdone, -⟩ := hdue
      obtain ⟨turns₁, hdone₁⟩ := update_done_of_passes hdone hpasses
      cases turns₁ with
      | zero => cases hdone₁
      | succ turns₁ =>
          rw [update, hfirst] at hdone₁
          dsimp only at hdone₁
          rw [hnone] at hdone₁
          cases hdone₁
    · refine ⟨hhas, fun t event hsched => not_lt.1 fun ht => ?_⟩
      exact not_handlesDue_of_lost hs (hpasses.tail ⟨e, hfirst, hsome⟩) (hpasses.nextTag_le hs)
        (hturn.lost hs₁ hq hsched ht) hdue
  · intro hall
    obtain ⟨turns, hasserted | ⟨s', hdone⟩⟩ := update_ends env now s hs
    · exact absurd hasserted (not_asserted hs hall)
    · obtain ⟨handled, new, hhandled, htag, hnew, hperm, horder, hearly, hleft, -⟩ :=
        handles_of_done hs hall hdone
      exact ⟨turns, s', handled, new, hdone, hhandled, htag, hnew, hperm, horder, hearly, hleft⟩

/-! ## Reset times that were not put off -/

/-- Every event stands no later than its map's stored time asks for. -/
def UpToDate (s : ResetState) : Prop :=
  ∀ e ∈ s.queue, e.event.type ≠ 0 → ∃ t, s.resetTimeByMapDifficulty e.event.map = some t ∧
    e.time ≤ t - (resetTimeDelay[e.event.type.val - 1]?).getD 0

theorem resetTimeDelay_le : ∀ k : Fin 5, k ≠ 0 → k ≠ 4 →
    (resetTimeDelay[k.val]?).getD 0 ≤ (resetTimeDelay[k.val - 1]?).getD 0 := by decide

theorem UpToDate.timely (h : s.UpToDate) (hhour : 1 ≤ env.resetHour) (he : e ∈ s.queue) :
    Timely env s e := by
  by_cases h0 : e.event.type = 0
  · refine ⟨fun h4 => absurd (h0.symm.trans h4) (by decide), fun t event hsched => ?_⟩
    rw [schedules, if_pos h0] at hsched
    cases hsched
  obtain ⟨t, hstored, htime⟩ := h e he h0
  have hget : s.getResetTimeFor e.event.map = t := by rw [getResetTimeFor, hstored, Option.getD_some]
  refine ⟨fun _ _ => by rw [hstored]; rfl, fun t' event hsched => ?_⟩
  rw [schedules, if_neg h0] at hsched
  dsimp only at hsched
  rw [hget] at hsched
  split at hsched <;> rename_i h4
  · cases hsched
    have := resetTimeDelay_le e.event.type h0 h4
    omega
  · rw [of_not_not h4] at htime
    have hdelay : (resetTimeDelay[(4 : Fin 5).val - 1]?).getD 0 = 60 := rfl
    split at hsched <;> rename_i hmoves
    · cases hsched
      have := lt_getSubsequentResetTime env hmoves.2
      omega
    · cases hsched

theorem UpToDate.turn (h : s.UpToDate) (hhour : 1 ≤ env.resetHour) (hs : s.Sound)
    (hturns : TurnsTo env now s s') : s'.UpToDate := by
  obtain ⟨e, rest, hq, -, hturn⟩ := hturns.turn hs
  have hqueue : ∀ x ∈ rest, x ∈ s.queue := fun x hx => by
    rw [hq]
    exact List.mem_cons_of_mem e hx
  have htimely := h.timely hhour (e := e) (by rw [hq]; exact List.mem_cons_self)
  have hturned := hturn.turned
  rw [ResetState.turned] at hturned
  rcases hturn.stored with ⟨hsame, hkind⟩ | ⟨h4, next, hsched, hnext, hne, hmoved⟩
  · cases hsched : schedules env s e with
    | none =>
        rw [hsched] at hturned
        rw [UpToDate, hturned.1, hsame]
        exact fun x hx => h x (hqueue x hx)
    | some p =>
        rw [hsched] at hturned
        have h4 := hkind.resolve_right (by rw [hsched]; simp)
        have hqueue' := hturned.2
        rw [if_pos (htimely.2 p.1 p.2 hsched)] at hqueue'
        rw [UpToDate, hqueue', hsame]
        intro x hx hx0
        rcases mem_insertTimed.1 hx with rfl | hx
        · have htype := schedules_type hsched h4
          have he0 : e.event.type ≠ 0 := by
            intro h0
            rw [schedules, if_pos h0] at hsched
            cases hsched
          obtain ⟨t, hstored, -⟩ := h e (by rw [hq]; exact List.mem_cons_self) he0
          refine ⟨t, by rw [schedules_map hsched]; exact hstored, ?_⟩
          rw [schedules, if_neg he0, if_pos h4] at hsched
          cases hsched
          have hindex : (e.event.type + 1).val - 1 = e.event.type.val := by omega
          rw [getResetTimeFor, hstored, Option.getD_some, hindex]
        · exact h x (hqueue x hx) hx0
  · rw [hsched] at hturned
    have hqueue' := hturned.2
    rw [if_pos (htimely.2 _ _ hsched)] at hqueue'
    rw [UpToDate, hqueue', hmoved]
    intro x hx hx0
    rcases mem_insertTimed.1 hx with rfl | hx
    · exact ⟨next, Function.update_self _ _ _, le_refl _⟩
    · obtain ⟨t, hstored, htime⟩ := h x (hqueue x hx) hx0
      by_cases hmap : x.event.map = e.event.map
      · refine ⟨next, by rw [hmap, Function.update_self], ?_⟩
        have hget : s.getResetTimeFor e.event.map = t := by
          rw [getResetTimeFor, ← hmap, hstored, Option.getD_some]
        have := lt_getSubsequentResetTime env (hnext ▸ hne)
        omega
      · exact ⟨t, by rw [Function.update_of_ne hmap]; exact hstored, htime⟩

theorem UpToDate.passes (h : s.UpToDate) (hhour : 1 ≤ env.resetHour) (hs : s.Sound)
    (hpasses : Passes env now s s') : s'.UpToDate := by
  induction hpasses with
  | refl => exact h
  | tail hpasses hturns ih => exact ih.turn hhour (Passes.sound hpasses hs) hturns

/-- While every event stands no later than the stored time of its map asks for, and the hour of
the reset is not midnight, nothing schedules an event before itself. -/
theorem UpToDate.allTimely (h : s.UpToDate) (hhour : 1 ≤ env.resetHour) (hs : s.Sound) :
    AllTimely env now s := by
  intro s' hpasses e hdue
  obtain ⟨rest, hq, -⟩ := firstDue_eq_some.1 hdue
  exact (h.passes hhour hs hpasses).timely hhour (by rw [hq]; exact List.mem_cons_self)

/-! ## A day of resets -/

/-- One map, reset every day at four o'clock. -/
def daily : ResetConfig := ⟨fun _ => true, fun _ => some 86400, 4⟩

/-- The first warning of a reset at noon of the first day. -/
def firstWarning : ResetState where
  queue := [⟨39600, ⟨1, (533, 0), 0⟩, 0⟩]
  resetTimeByMapDifficulty map := if map = (533, 0) then some 43200 else none
  nextTag := 1
  handled := []

theorem firstWarning_sound : firstWarning.Sound where
  inTime := List.pairwise_singleton _ _
  nodup := by decide
  fresh := by decide
  logged := by decide

theorem daily_resets_handled : HandlesDue daily 100000 firstWarning := by
  refine (handlesDue_iff firstWarning_sound).2 (UpToDate.allTimely ?_ (by decide)
    firstWarning_sound)
  intro e he _
  rw [List.mem_singleton.1 he]
  exact ⟨43200, by decide, by decide⟩

/-- The reset was an hour later when its first warning was scheduled. -/
def putForward : ResetState :=
  { firstWarning with
    resetTimeByMapDifficulty := fun map => if map = (533, 0) then some 39600 else none }

/-- The second warning is scheduled before the first and erased without being handled. -/
theorem putForward_not_handled : ¬ HandlesDue daily 100000 putForward := by
  have hsound : putForward.Sound := ⟨firstWarning_sound.inTime, firstWarning_sound.nodup,
    firstWarning_sound.fresh, firstWarning_sound.logged⟩
  have hlost : ((putForward.handle daily ⟨39600, ⟨1, (533, 0), 0⟩, 0⟩).getD putForward).Lost 1 :=
    ⟨by decide, by decide, by decide⟩
  exact not_handlesDue_of_lost hsound
    (Relation.ReflTransGen.single ⟨⟨39600, ⟨1, (533, 0), 0⟩, 0⟩, rfl, rfl⟩) (by decide) hlost

end ResetState

end Sunstrider.Instances
