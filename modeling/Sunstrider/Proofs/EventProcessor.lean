import Sunstrider.Utilities.EventProcessor

/-!
# Events are executed, aborted and deleted in order

What an onlooker may see of an event is a rule about one occurrence and what
was seen before it: `Allowed`. A log whose every occurrence was allowed is
`Orderly`.

The state behind the log is `SoundOn` a queue: every event that is there waits
in the queue or is in hand, taken out by a loop that has not yet put it back or
deleted it, and its abort state knows what the log says. The queue is a
parameter because the loop of `KillAllEvents` leaves deleted events in
`m_events` until it is through. `Update` calls `Abort` before it sets the state,
`KillAllEvents` after, and in between the code of the event makes calls of its
own: for that moment one event is `busy`, and its state may lag behind.

Every operation lands in a sound state again, or stops at `ScheduleAbort`'s
assertion, which is its caller's to keep; never at the other one, and never at
an event that was deleted.
-/

namespace Sunstrider.Utilities

open Lib

/-! ## What may be seen -/

/-- The event an occurrence is about. -/
def Occurrence.event : Occurrence → EventId
  | .inserted event => event
  | .executed event _ _ => event
  | .abortScheduled event => event
  | .aborted event => event
  | .deleted event => event

def Occurrence.isExecuted (event : EventId) : Occurrence → Bool
  | .executed other _ _ => other == event
  | _ => false

def timesInserted (event : EventId) (log : List Occurrence) : Nat := log.count (.inserted event)

def timesExecuted (event : EventId) (log : List Occurrence) : Nat :=
  log.countP (Occurrence.isExecuted event)

/-- What may be seen after `past`. An execution takes one insertion, finds the
event running, and is the one due first; an abort is the first, a deletion the
only one, and nothing comes after it. -/
def Allowed (past : List Occurrence) : Occurrence → Prop
  | .inserted event => .deleted event ∉ past
  | .executed event due waiting =>
      .abortScheduled event ∉ past ∧ .aborted event ∉ past ∧ .deleted event ∉ past ∧
        timesExecuted event past < timesInserted event past ∧ ∀ time ∈ waiting, due ≤ time
  | .abortScheduled event =>
      .abortScheduled event ∉ past ∧ .aborted event ∉ past ∧ .deleted event ∉ past
  | .aborted event => .aborted event ∉ past ∧ .deleted event ∉ past
  | .deleted event => .deleted event ∉ past

def Orderly : List Occurrence → Prop
  | [] => True
  | o :: past => Allowed past o ∧ Orderly past

/-- What is allowed only the first time is seen once. -/
theorem Orderly.count_le_one {log : List Occurrence} {o : Occurrence}
    (ho : ∀ past, Allowed past o → o ∉ past) (h : Orderly log) : log.count o ≤ 1 := by
  induction log with
  | nil => simp
  | cons p past ih =>
      rw [List.count_cons]
      split
      · rename_i heq
        rw [beq_iff_eq] at heq
        subst heq
        rw [List.count_eq_zero.2 (ho past h.1)]
      · exact ih h.2

theorem Orderly.timesExecuted_le {log : List Occurrence} (h : Orderly log) (event : EventId) :
    timesExecuted event log ≤ timesInserted event log := by
  induction log with
  | nil => simp [timesExecuted, timesInserted]
  | cons o past ih =>
      have := ih h.2
      unfold timesExecuted timesInserted at *
      rw [List.countP_cons, List.count_cons]
      cases o with
      | executed other due waiting =>
          by_cases heq : other = event
          · subst heq
            have := h.1.2.2.2.1
            unfold timesExecuted timesInserted at this
            simp only [Occurrence.isExecuted, beq_self_eq_true, if_true]
            omega
          · simp only [Occurrence.isExecuted, beq_eq_false_iff_ne.2 heq]
            simp only [Bool.false_eq_true, if_false]
            omega
      | _ =>
          simp only [Occurrence.isExecuted, Bool.false_eq_true, if_false]
          omega

/-! ## Sound states -/

/-- The events waiting in a queue. -/
def waitingIn (queue : List Entry) : List EventId := queue.map Entry.event

/-- A state whose events wait in `queue` or are in `hand`. -/
structure SoundOn (queue : List Entry) (hand : List EventId) (busy : Option EventId)
    (s : EventProcessor) : Prop where
  inTime : InTime Entry.time queue
  once : (waitingIn queue ++ hand).Nodup
  there : ∀ event, (s.heap event).isSome ↔ event ∈ waitingIn queue ++ hand
  born : ∀ event, s.next ≤ event → s.heap event = none
  numbered : ∀ o ∈ s.log, o.event < s.next
  orderly : Orderly s.log
  running : ∀ event e, s.heap event = some e → e.abortState = .running →
    .abortScheduled event ∉ s.log ∧ .aborted event ∉ s.log
  aborted : ∀ event e, s.heap event = some e → busy ≠ some event →
    .aborted event ∈ s.log → e.abortState = .aborted
  gone : ∀ event, .deleted event ∈ s.log ↔ event < s.next ∧ s.heap event = none
  owed : ∀ event ∈ waitingIn queue, timesExecuted event s.log < timesInserted event s.log

namespace EventProcessor

/-- What is true of a state whose `m_events` is in order. -/
def Sound (hand : List EventId) (s : EventProcessor) : Prop := SoundOn s.events hand none s

/-- A result that is right, or a stop at the assertion of `ScheduleAbort`. -/
def Lands {α : Type} (P : α → Prop) : Except (Fault × EventProcessor) α → Prop
  | .ok a => P a
  | .error (f, s) => f = .scheduledTwice ∧ Orderly s.log

theorem Lands.bind {α β : Type} {P : α → Prop} {Q : β → Prop}
    {x : Except (Fault × EventProcessor) α} {f : α → Except (Fault × EventProcessor) β}
    (h : Lands P x) (hf : ∀ a, P a → Lands Q (f a)) : Lands Q (x >>= f) := by
  cases x with
  | ok a => exact hf a h
  | error e => exact h

theorem Lands.mono {α : Type} {P Q : α → Prop} {x : Except (Fault × EventProcessor) α}
    (h : Lands P x) (hPQ : ∀ a, P a → Q a) : Lands Q x := by
  cases x with
  | ok a => exact hPQ a h
  | error e => exact h

end EventProcessor

variable {queue rest : List Entry} {hand : List EventId} {busy : Option EventId}
  {s : EventProcessor} {event : EventId} {e : BasicEvent}

namespace SoundOn

theorem heap_of_waiting (h : SoundOn queue hand busy s) (event : EventId)
    (hin : event ∈ waitingIn queue ++ hand) :
    ∃ e, s.heap event = some e := Option.isSome_iff_exists.1 ((h.there event).2 hin)

theorem lt_next (h : SoundOn queue hand busy s) (he : s.heap event = some e) :
    event < s.next := by
  by_contra hge
  rw [h.born event (not_lt.1 hge)] at he
  cases he

theorem not_deleted (h : SoundOn queue hand busy s) (he : s.heap event = some e) :
    .deleted event ∉ s.log := by
  intro hin
  rw [((h.gone event).1 hin).2] at he
  cases he

/-- The same events may wait for other times. -/
theorem requeue (h : SoundOn queue hand busy s) {queue' : List Entry}
    (hperm : (waitingIn queue').Perm (waitingIn queue)) (htime : InTime Entry.time queue') :
    SoundOn queue' hand busy s := by
  have hboth := hperm.append_right hand
  refine { h with
    inTime := htime
    once := hboth.nodup_iff.2 h.once
    there := fun other => ?_
    owed := fun other hother => h.owed other (hperm.mem_iff.1 hother) }
  rw [hboth.mem_iff]
  exact h.there other

/-- One of them may be taken in hand. -/
theorem take (h : SoundOn (queue ++ ⟨time, event⟩ :: rest) hand busy s) :
    SoundOn (queue ++ rest) (event :: hand) busy s := by
  have hperm : (waitingIn (queue ++ rest) ++ event :: hand).Perm
      (waitingIn (queue ++ ⟨time, event⟩ :: rest) ++ hand) := by
    simp only [waitingIn, List.map_append, List.map_cons, List.append_assoc, List.cons_append]
    refine List.Perm.append_left _ ?_
    exact List.perm_middle
  refine ⟨?_, hperm.nodup_iff.2 h.once, ?_, h.born, h.numbered, h.orderly, h.running, h.aborted,
    h.gone, ?_⟩
  · exact h.inTime.sublist (List.Sublist.append_left (List.sublist_cons_self _ _) _)
  · intro other
    rw [h.there other, hperm.mem_iff]
  · intro other hother
    refine h.owed other ?_
    simp only [waitingIn, List.map_append, List.map_cons, List.mem_append, List.mem_cons] at *
    tauto

/-- A change of the members of an event that is there, whose abort state does
not go back to running. -/
theorem setEvent (h : SoundOn queue hand busy s) {e' : BasicEvent} (he : s.heap event = some e)
    (hrun : e'.abortState = .running → e.abortState = .running) {busy' : Option EventId}
    (hseen : busy' ≠ some event → .aborted event ∈ s.log → e'.abortState = .aborted)
    (hbusy : ∀ other, other ≠ event → busy' ≠ some other → busy ≠ some other) :
    SoundOn queue hand busy' (s.setEvent event (some e')) := by
  have hself : (s.setEvent event (some e')).heap event = some e' := by
    simp [EventProcessor.setEvent]
  have hother : ∀ other, other ≠ event →
      (s.setEvent event (some e')).heap other = s.heap other := by
    intro other hne
    simp [EventProcessor.setEvent, hne]
  refine ⟨h.inTime, h.once, ?_, ?_, h.numbered, h.orderly, ?_, ?_, ?_, h.owed⟩
  · intro other
    by_cases heq : other = event
    · subst heq
      rw [hself, ← h.there, he]
      rfl
    · rw [hother other heq, h.there]
  · intro other hnext
    have hne : other ≠ event := by
      intro heq
      subst heq
      exact absurd (h.lt_next he) (not_lt.2 hnext)
    rw [hother other hne]
    exact h.born other hnext
  · intro other e₁ h₁ hrunning
    by_cases heq : other = event
    · subst heq
      rw [hself] at h₁
      cases h₁
      exact h.running other e he (hrun hrunning)
    · rw [hother other heq] at h₁
      exact h.running other e₁ h₁ hrunning
  · intro other e₁ h₁ hnot hin
    by_cases heq : other = event
    · subst heq
      rw [hself] at h₁
      cases h₁
      exact hseen hnot hin
    · rw [hother other heq] at h₁
      exact h.aborted other e₁ h₁ (hbusy other heq hnot) hin
  · intro other
    by_cases heq : other = event
    · subst heq
      rw [hself]
      exact iff_of_false (h.not_deleted he) (by simp)
    · rw [hother other heq]
      exact h.gone other

/-- An occurrence that is neither an insertion, an execution nor a deletion is
seen. -/
theorem note (h : SoundOn queue hand busy s) {o : Occurrence} (ho : Allowed s.log o)
    (hevent : o.event < s.next) {busy' : Option EventId}
    (hrun : ∀ other e, s.heap other = some e → e.abortState = .running →
      o ≠ .abortScheduled other ∧ o ≠ .aborted other)
    (habort : ∀ other e, s.heap other = some e → busy' ≠ some other → busy ≠ some other ∧
      (o = .aborted other → e.abortState = .aborted))
    (hdelete : ∀ other, o ≠ .deleted other)
    (howed : ∀ other ∈ waitingIn queue, Occurrence.isExecuted other o = false) :
    SoundOn queue hand busy' (s.note o) := by
  refine ⟨h.inTime, h.once, h.there, h.born, ?_, ⟨ho, h.orderly⟩, ?_, ?_, ?_, ?_⟩
  · intro p hp
    rcases List.mem_cons.1 hp with rfl | hp
    · exact hevent
    · exact h.numbered p hp
  · intro other e₁ h₁ hrunning
    obtain ⟨hs, ha⟩ := h.running other e₁ h₁ hrunning
    obtain ⟨hs', ha'⟩ := hrun other e₁ h₁ hrunning
    simp only [EventProcessor.note, List.mem_cons, not_or]
    exact ⟨⟨fun heq => hs' heq.symm, hs⟩, fun heq => ha' heq.symm, ha⟩
  · intro other e₁ h₁ hnot hin
    obtain ⟨hbusy, hself⟩ := habort other e₁ h₁ hnot
    rcases List.mem_cons.1 hin with heq | hin
    · exact hself heq.symm
    · exact h.aborted other e₁ h₁ hbusy hin
  · intro other
    have := h.gone other
    simp only [EventProcessor.note, List.mem_cons]
    rw [← this]
    exact ⟨fun hin => hin.resolve_left fun heq => hdelete other heq.symm, Or.inr⟩
  · intro other hother
    have := h.owed other hother
    have hexec : timesExecuted other (o :: s.log) = timesExecuted other s.log := by
      rw [timesExecuted, List.countP_cons, howed other hother]
      rfl
    have hins : timesInserted other s.log ≤ timesInserted other (o :: s.log) :=
      List.count_le_count_cons
    simp only [EventProcessor.note]
    omega

/-- An event with its abort seen and its state set is no longer busy. -/
theorem settle (h : SoundOn queue hand (some event) s) (he : s.heap event = some e)
    (hstate : e.abortState = .aborted) : SoundOn queue hand none s := by
  refine { h with aborted := fun other e₁ h₁ _ hin => ?_ }
  by_cases heq : other = event
  · subst heq
    rw [he] at h₁
    cases h₁
    exact hstate
  · exact h.aborted other e₁ h₁ (fun hsome => heq (Option.some.inj hsome).symm) hin

/-- A new event is in hand. -/
theorem create (h : SoundOn queue hand busy s) :
    SoundOn queue (s.next :: hand) busy
      { s.setEvent s.next (some ⟨.running, 0, 0⟩) with next := s.next + 1 } := by
  have hnone : s.heap s.next = none := h.born s.next (le_refl _)
  have hnot : s.next ∉ waitingIn queue ++ hand := by
    intro hin
    have := (h.there s.next).2 hin
    rw [hnone] at this
    cases this
  have hperm : (waitingIn queue ++ s.next :: hand).Perm (s.next :: (waitingIn queue ++ hand)) :=
    List.perm_middle
  have hfresh : ∀ o ∈ s.log, o.event ≠ s.next := fun o ho =>
    Nat.ne_of_lt (h.numbered o ho)
  have hother : ∀ other, other ≠ s.next →
      Function.update s.heap s.next (some ⟨.running, 0, 0⟩) other = s.heap other :=
    fun other hne => Function.update_of_ne hne _ _
  refine ⟨h.inTime, hperm.nodup_iff.2 (List.nodup_cons.2 ⟨hnot, h.once⟩), ?_, ?_, ?_, h.orderly,
    ?_, ?_, ?_, h.owed⟩
  · intro other
    rw [hperm.mem_iff, List.mem_cons]
    by_cases heq : other = s.next
    · subst heq
      simp [EventProcessor.setEvent]
    · simp only [EventProcessor.setEvent]
      rw [hother other heq, h.there]
      simp [heq]
  · intro other hle
    have hlt : s.next < other := hle
    simp only [EventProcessor.setEvent]
    rw [hother other (Nat.ne_of_gt hlt)]
    exact h.born other (le_of_lt hlt)
  · intro o ho
    exact Nat.lt_succ_of_lt (h.numbered o ho)
  · intro other e₁ h₁ hrun
    by_cases heq : other = s.next
    · subst heq
      exact ⟨fun hin => hfresh _ hin rfl, fun hin => hfresh _ hin rfl⟩
    · simp only [EventProcessor.setEvent] at h₁
      rw [hother other heq] at h₁
      exact h.running other e₁ h₁ hrun
  · intro other e₁ h₁ hnot' hin
    by_cases heq : other = s.next
    · subst heq
      exact absurd rfl (hfresh _ hin)
    · simp only [EventProcessor.setEvent] at h₁
      rw [hother other heq] at h₁
      exact h.aborted other e₁ h₁ hnot' hin
  · intro other
    have := h.gone other
    by_cases heq : other = s.next
    · subst heq
      refine iff_of_false (fun hin => hfresh _ hin rfl) ?_
      simp [EventProcessor.setEvent]
    · simp only [EventProcessor.setEvent]
      rw [hother other heq, this]
      constructor
      · rintro ⟨hlt, hn⟩
        exact ⟨Nat.lt_succ_of_lt hlt, hn⟩
      · rintro ⟨hlt, hn⟩
        exact ⟨lt_of_le_of_ne (Nat.le_of_lt_succ hlt) heq, hn⟩

/-- An event in hand is put into the queue. -/
theorem insert (h : SoundOn queue (event :: hand) none s) (time : Nat) :
    SoundOn (insertTimed Entry.time ⟨time, event⟩ queue) hand none (s.note (.inserted event)) := by
  have hwaiting : (waitingIn (insertTimed Entry.time ⟨time, event⟩ queue)).Perm
      (event :: waitingIn queue) := (insertTimed_perm Entry.time ⟨time, event⟩ queue).map _
  have hperm : (waitingIn (insertTimed Entry.time ⟨time, event⟩ queue) ++ hand).Perm
      (waitingIn queue ++ event :: hand) :=
    (hwaiting.append_right hand).trans List.perm_middle.symm
  obtain ⟨e, he⟩ := h.heap_of_waiting event (by simp)
  refine ⟨h.inTime.insertTimed, hperm.nodup_iff.2 h.once, ?_, h.born, ?_,
    ⟨h.not_deleted he, h.orderly⟩, ?_, ?_, ?_, ?_⟩
  · intro other
    rw [hperm.mem_iff]
    exact h.there other
  · intro o ho
    rcases List.mem_cons.1 ho with rfl | ho
    · exact h.lt_next he
    · exact h.numbered o ho
  · intro other e₁ h₁ hrun
    simpa [EventProcessor.note] using h.running other e₁ h₁ hrun
  · intro other e₁ h₁ hnot hin
    exact h.aborted other e₁ h₁ hnot (by simpa [EventProcessor.note] using hin)
  · intro other
    simpa [EventProcessor.note] using h.gone other
  · intro other hother
    have hexec : timesExecuted other (s.note (.inserted event)).log = timesExecuted other s.log :=
      rfl
    have hins : timesInserted other (s.note (.inserted event)).log =
        timesInserted other s.log + if Occurrence.inserted event == .inserted other then 1 else 0 :=
      List.count_cons
    rcases List.mem_cons.1 (hwaiting.mem_iff.1 hother) with rfl | hold
    · have := h.orderly.timesExecuted_le other
      rw [hexec, hins]
      simp only [beq_self_eq_true, if_true]
      omega
    · have := h.owed other hold
      omega

/-- An event in hand is deleted. -/
theorem free (h : SoundOn queue (event :: hand) none s) :
    SoundOn queue hand none ((s.setEvent event none).note (.deleted event)) := by
  obtain ⟨e, he⟩ := h.heap_of_waiting event (by simp)
  have hperm : (waitingIn queue ++ event :: hand).Perm (event :: (waitingIn queue ++ hand)) :=
    List.perm_middle
  obtain ⟨hnot, hnodup⟩ := List.nodup_cons.1 (hperm.nodup_iff.1 h.once)
  have hother : ∀ other, other ≠ event →
      Function.update s.heap event none other = s.heap other :=
    fun other hne => Function.update_of_ne hne _ _
  have hback : ∀ other e₁, ((s.setEvent event none).note (.deleted event)).heap other = some e₁ →
      s.heap other = some e₁ ∧ other ≠ event := by
    intro other e₁ h₁
    simp only [EventProcessor.note, EventProcessor.setEvent] at h₁
    by_cases heq : other = event
    · subst heq
      simp at h₁
    · rw [hother other heq] at h₁
      exact ⟨h₁, heq⟩
  refine ⟨h.inTime, hnodup, ?_, ?_, ?_, ⟨h.not_deleted he, h.orderly⟩, ?_, ?_, ?_, ?_⟩
  · intro other
    simp only [EventProcessor.note, EventProcessor.setEvent]
    by_cases heq : other = event
    · subst heq
      simp only [Function.update_self, Option.isSome_none, Bool.false_eq_true, false_iff]
      exact hnot
    · rw [hother other heq, h.there, hperm.mem_iff]
      simp [heq]
  · intro other hle
    simp only [EventProcessor.note, EventProcessor.setEvent]
    by_cases heq : other = event
    · rw [heq, Function.update_self]
    · rw [hother other heq]
      exact h.born other hle
  · intro o ho
    rcases List.mem_cons.1 ho with rfl | ho
    · exact h.lt_next he
    · exact h.numbered o ho
  · intro other e₁ h₁ hrun
    simpa [EventProcessor.note, EventProcessor.setEvent] using
      h.running other e₁ (hback other e₁ h₁).1 hrun
  · intro other e₁ h₁ hbusy hin
    exact h.aborted other e₁ (hback other e₁ h₁).1 hbusy
      (by simpa [EventProcessor.note, EventProcessor.setEvent] using hin)
  · intro other
    have := h.gone other
    simp only [EventProcessor.note, EventProcessor.setEvent, List.mem_cons]
    by_cases heq : other = event
    · subst heq
      simp only [true_or, Function.update_self, and_true, true_iff]
      exact h.lt_next he
    · rw [hother other heq, this]
      simp [heq]
  · intro other hin
    have := h.owed other hin
    have hexec : timesExecuted other ((s.setEvent event none).note (.deleted event)).log =
        timesExecuted other s.log := rfl
    have hins : timesInserted other s.log ≤
        timesInserted other ((s.setEvent event none).note (.deleted event)).log :=
      List.count_le_count_cons
    omega

end SoundOn

/-! ## The operations -/

namespace EventProcessor

/-- Nothing changed but events that were running. -/
structure Quiet (s s' : EventProcessor) : Prop where
  events : s'.events = s.events
  time : s'.time = s.time
  heap : ∀ event e, s.heap event = some e → e.abortState ≠ .running → s'.heap event = some e

theorem Quiet.refl (s : EventProcessor) : Quiet s s := ⟨rfl, rfl, fun _ _ h _ => h⟩

theorem Quiet.trans {s₁ s₂ s₃ : EventProcessor} (h : Quiet s₁ s₂) (h' : Quiet s₂ s₃) :
    Quiet s₁ s₃ where
  events := h'.events.trans h.events
  time := h'.time.trans h.time
  heap event e he hne := h'.heap event e (h.heap event e he hne) hne

theorem scheduleAbort_lands (h : SoundOn queue hand busy s) (event : EventId) :
    Lands (fun s' => SoundOn queue hand busy s' ∧ Quiet s s') (s.scheduleAbort event) := by
  unfold scheduleAbort
  split
  · exact ⟨h, Quiet.refl s⟩
  · rename_i e he
    split
    · rename_i hrun
      obtain ⟨hscheduled, haborted⟩ := h.running event e he hrun
      constructor
      · refine (h.setEvent he (by simp) (fun _ hin => absurd hin haborted)
          (fun other _ hnot => hnot)).note (o := .abortScheduled event)
          ⟨hscheduled, haborted, h.not_deleted he⟩ (h.lt_next he) ?_
          (fun other _ _ hnot => ⟨hnot, by simp⟩) (by simp)
          (fun other _ => rfl)
        intro other e₁ h₁ hrun₁
        refine ⟨?_, by simp⟩
        rintro ⟨rfl⟩
        simp only [setEvent, Function.update_self, Option.some.injEq] at h₁
        rw [← h₁] at hrun₁
        cases hrun₁
      · refine ⟨rfl, rfl, fun other e₁ h₁ hne => ?_⟩
        have hdiff : other ≠ event := by
          rintro rfl
          rw [he] at h₁
          cases h₁
          exact hne hrun
        simpa [note, setEvent, hdiff] using h₁
    · exact ⟨rfl, h.orderly⟩

theorem scheduleAborts_lands (h : SoundOn queue hand busy s) (events : List EventId) :
    Lands (fun s' => SoundOn queue hand busy s' ∧ Quiet s s') (s.scheduleAborts events) := by
  induction events generalizing s with
  | nil => exact ⟨h, Quiet.refl s⟩
  | cons event rest ih =>
      refine (scheduleAbort_lands h event).bind fun s₁ h₁ => ?_
      exact (ih h₁.1).mono fun s₂ h₂ => ⟨h₂.1, h₁.2.trans h₂.2⟩

/-- While its code runs the aborted event is busy. -/
theorem abort_lands (h : SoundOn queue hand none s) (he : s.heap event = some e)
    (hstate : e.abortState ≠ .running) (hseen : .aborted event ∉ s.log)
    (abortCalls : List EventId) :
    Lands (fun s' => SoundOn queue hand (some event) s' ∧ Quiet s s')
      (s.abort event abortCalls) := by
  have hnote : SoundOn queue hand (some event) (s.note (.aborted event)) := by
    refine h.note (o := .aborted event) ⟨hseen, h.not_deleted he⟩ (h.lt_next he) ?_ ?_ (by simp)
      (fun _ _ => rfl)
    · intro other e₁ h₁ hrun
      refine ⟨by simp, ?_⟩
      rintro ⟨rfl⟩
      rw [he] at h₁
      cases h₁
      exact hstate hrun
    · intro other e₁ _ hnot
      refine ⟨by simp, ?_⟩
      rintro ⟨rfl⟩
      exact absurd rfl hnot
  exact (scheduleAborts_lands hnote abortCalls).mono fun s' h' =>
    ⟨h'.1, h'.2.events, h'.2.time, h'.2.heap⟩

theorem setAborted_lands (h : SoundOn queue hand busy s) (he : s.heap event = some e)
    (hstate : e.abortState ≠ .aborted) (hbusy : busy = none ∨ busy = some event) :
    Lands (fun s' => s' = s.setEvent event (some { e with abortState := .aborted }) ∧
      SoundOn queue hand none s') (s.setAborted event) := by
  rw [setAborted, he]
  simp only [hstate, if_false]
  refine ⟨rfl, h.setEvent he (by simp) (fun _ _ => rfl) fun other hne _ => ?_⟩
  rcases hbusy with hnone | hsome
  · rw [hnone]
    simp
  · rw [hsome]
    intro heq
    exact hne (Option.some.inj heq).symm

theorem delete_lands (h : SoundOn queue (event :: hand) none s) :
    Lands (fun s' => SoundOn queue hand none s' ∧ s'.events = s.events ∧ s'.time = s.time)
      (s.delete event) := by
  obtain ⟨e, he⟩ := h.heap_of_waiting event (by simp)
  rw [delete, he]
  exact ⟨h.free, rfl, rfl⟩

theorem addEvent_lands (h : Sound (event :: hand) s) (time : Nat) (setAddtime : Bool) :
    Lands (Sound hand) (s.addEvent event time setAddtime) := by
  obtain ⟨e, he⟩ := h.heap_of_waiting event (by simp)
  rw [addEvent, he]
  have hset : ∀ e', e'.abortState = e.abortState →
      Sound (event :: hand) (s.setEvent event (some e')) := fun e' heq =>
    SoundOn.setEvent h he (by rw [heq]; exact id)
      (fun hnot hin => by rw [heq]; exact h.aborted event e he hnot hin) (fun _ _ hnot => hnot)
  have hstate : (if setAddtime = true then { e with addTime := s.time } else e).abortState =
      e.abortState := by
    split <;> rfl
  have hinsert := (hset { (if setAddtime = true then { e with addTime := s.time } else e) with
    execTime := time } hstate).insert time
  exact { hinsert with }

theorem addNewEvent_lands (h : Sound hand s) (time : Nat) :
    Lands (Sound hand) (s.addNewEvent time) := by
  have hcreate : Sound (s.next :: hand)
      { s.setEvent s.next (some ⟨.running, 0, 0⟩) with next := s.next + 1 } := SoundOn.create h
  exact addEvent_lands hcreate time true

theorem modifyEventTime_lands (h : Sound hand s) (event : EventId) (newTime : Nat) :
    Lands (Sound hand) (s.modifyEventTime event newTime) := by
  unfold modifyEventTime
  split
  · exact h
  · rename_i entry hfind
    have hmem := List.mem_of_find?_eq_some hfind
    have hevent : entry.event = event := by simpa using List.find?_some hfind
    have hperm := List.perm_cons_erase hmem
    obtain ⟨e, he⟩ := h.heap_of_waiting event (List.mem_append_left _ (by
      rw [← hevent]
      exact List.mem_map_of_mem hmem))
    rw [he]
    have hset : SoundOn s.events hand none
        (s.setEvent event (some { e with execTime := newTime })) :=
      SoundOn.setEvent h he (by exact id) (fun hnot hin => h.aborted event e he hnot hin)
        (fun _ _ hnot => hnot)
    have hwaiting : (waitingIn (insertTimed Entry.time ⟨newTime, event⟩
        (s.events.erase entry))).Perm (waitingIn s.events) := by
      refine ((insertTimed_perm Entry.time _ _).map _).trans ?_
      simpa [waitingIn, hevent] using (hperm.map Entry.event).symm
    have hinTime : InTime Entry.time (s.events.erase entry) := h.inTime.sublist List.erase_sublist
    have hrequeue := hset.requeue hwaiting hinTime.insertTimed
    exact { hrequeue with }

theorem abortUnlessAborted_lands (h : SoundOn queue hand none s) (he : s.heap event = some e)
    (abortCalls : List EventId) :
    Lands (SoundOn queue hand none) (s.abortUnlessAborted event e abortCalls) := by
  unfold abortUnlessAborted
  split
  · rename_i hne
    -- set first, seen afterwards
    have hseen : .aborted event ∉ s.log := fun hin =>
      hne (h.aborted event e he (by simp) hin)
    refine (setAborted_lands h he hne (Or.inl rfl)).bind ?_
    rintro s₁ ⟨rfl, h₁⟩
    have he₁ : (s.setEvent event (some { e with abortState := .aborted })).heap event =
        some { e with abortState := .aborted } := by simp [setEvent]
    refine (abort_lands h₁ he₁ (by simp) hseen abortCalls).mono fun s₂ h₂ => ?_
    exact h₂.1.settle (h₂.2.heap _ _ he₁ (by simp)) rfl
  · exact h

/-- The loop of `KillAllEvents`: what it has not come to yet and what it
skipped waits. -/
theorem killLoop_lands (force : Bool) (deletable : EventId → Bool)
    (abortCalls : EventId → List EventId) (entries : List Entry) {skipped : List Entry}
    (h : SoundOn (skipped ++ entries) hand none s) :
    Lands (fun r => SoundOn (skipped ++ r.2) hand none r.1 ∧ (force = true → r.2 = []))
      (killLoop force deletable abortCalls s entries) := by
  induction entries generalizing s skipped with
  | nil => exact ⟨h, fun _ => rfl⟩
  | cons entry rest ih =>
      obtain ⟨e, he⟩ := h.heap_of_waiting entry.event
        (List.mem_append_left _ (by simp [waitingIn]))
      rw [killLoop, he]
      simp only
      refine (abortUnlessAborted_lands h he _).bind fun s₁ h₁ => ?_
      split
      · rename_i hskip
        have hnext : SoundOn ((skipped ++ [entry]) ++ rest) hand none s₁ := by simpa using h₁
        refine (ih hnext).bind fun r hr => ⟨by simpa using hr.1, fun hforce => ?_⟩
        simp [hforce] at hskip
      · exact (delete_lands h₁.take).bind fun s₂ h₂ => ih h₂.1

theorem killAllEvents_lands (h : Sound hand s) (force : Bool) (deletable : EventId → Bool)
    (abortCalls : EventId → List EventId) :
    Lands (fun s' => Sound hand s' ∧ (force = true → s'.events = []))
      (s.killAllEvents force deletable abortCalls) := by
  have hstart : SoundOn ([] ++ s.events) hand none { s with aborting := true } := { h with }
  refine (killLoop_lands force deletable abortCalls s.events hstart).bind fun r hr => ?_
  exact ⟨{ hr.1 with }, hr.2⟩

theorem perform_lands (h : Sound hand s) (action : Action) :
    Lands (Sound hand) (s.perform action) := by
  cases action with
  | addEvent time => exact addNewEvent_lands h time
  | modifyEventTime event newTime => exact modifyEventTime_lands h event newTime
  | scheduleAbort event =>
      refine (scheduleAbort_lands h event).mono fun s' h' => ?_
      rw [Sound, h'.2.events]
      exact h'.1
  | killAllEvents force deletable abortCalls =>
      exact (killAllEvents_lands h force deletable abortCalls).mono fun _ h' => h'.1

theorem performAll_lands (h : Sound hand s) (actions : List Action) :
    Lands (Sound hand) (s.performAll actions) := by
  induction actions generalizing s with
  | nil => exact h
  | cons action rest ih => exact (perform_lands h action).bind fun s₁ h₁ => ih h₁

theorem execute_lands (h : Sound (event :: hand) s) (execution : Execution) :
    Lands (Sound hand) (s.execute event execution) := by
  refine (performAll_lands h execution.calls).bind fun s₁ h₁ => ?_
  cases execution.again with
  | none =>
      refine (delete_lands h₁).mono fun s₂ h₂ => ?_
      rw [Sound, h₂.2.1]
      exact h₂.1
  | some again =>
      exact (addEvent_lands h₁ again.1 again.2.1).bind fun s₂ h₂ =>
        performAll_lands h₂ again.2.2

/-- Here the abort is seen before the state is set. -/
theorem abortIfScheduled_lands (h : SoundOn queue hand none s) (he : s.heap event = some e)
    (hrun : e.abortState ≠ .running) (abortCalls : List EventId) :
    Lands (fun s' => SoundOn queue hand none s' ∧ s'.events = s.events)
      (s.abortIfScheduled event e abortCalls) := by
  unfold abortIfScheduled
  split
  · rename_i hscheduled
    have hne : e.abortState ≠ .aborted := by
      rw [hscheduled]
      decide
    have hseen : .aborted event ∉ s.log := fun hin =>
      hne (h.aborted event e he (by simp) hin)
    refine (abort_lands h he hrun hseen abortCalls).bind fun s₁ h₁ => ?_
    refine (setAborted_lands h₁.1 (h₁.2.heap _ _ he hrun) hne (Or.inr rfl)).mono ?_
    rintro s₂ ⟨rfl, h₂⟩
    exact ⟨h₂, h₁.2.events⟩
  · exact ⟨h, rfl⟩

/-- The entry a pass of `Update` took from the front of the queue. -/
theorem runEntry_lands {entry : Entry}
    (h : SoundOn (entry :: s.events) hand none s) (turn : Turn) :
    Lands (Sound hand) (s.runEntry entry turn) := by
  obtain ⟨e, he⟩ := h.heap_of_waiting entry.event (by simp [waitingIn])
  have hhand : SoundOn ([] ++ s.events) (entry.event :: hand) none s :=
    SoundOn.take (by simpa using h)
  rw [runEntry, he]
  simp only
  split
  · rename_i hrun
    obtain ⟨hscheduled, haborted⟩ := h.running entry.event e he hrun
    have howed := h.owed entry.event (by simp [waitingIn])
    have hdue : ∀ time ∈ s.events.map Entry.time, entry.time ≤ time := by
      intro time htime
      obtain ⟨other, hother, rfl⟩ := List.mem_map.1 htime
      exact (List.pairwise_cons.1 h.inTime).1 other hother
    have hwaits : ∀ other ∈ waitingIn ([] ++ s.events), other ≠ entry.event := by
      rintro other hother rfl
      have := (List.nodup_append.1 hhand.once).2.2 _ hother _ (List.mem_cons_self)
      exact this rfl
    have hnote : Sound (entry.event :: hand)
        (s.note (.executed entry.event entry.time (s.events.map Entry.time))) := by
      refine SoundOn.note hhand
        (o := .executed entry.event entry.time (s.events.map Entry.time))
        ⟨hscheduled, haborted, h.not_deleted he, howed, hdue⟩ (h.lt_next he) (by simp)
        (fun _ _ _ hnot => ⟨hnot, by simp⟩) (by simp) ?_
      intro other hother
      simpa [Occurrence.isExecuted] using (hwaits other hother).symm
    exact execute_lands hnote turn.execution
  · rename_i hrun
    refine (abortIfScheduled_lands hhand he hrun turn.abortCalls).bind fun s₁ h₁ => ?_
    have hsound : Sound (entry.event :: hand) s₁ := by
      rw [Sound, h₁.2]
      exact h₁.1
    split
    · refine (delete_lands hsound).mono fun s₂ h₂ => ?_
      rw [Sound, h₂.2.1]
      exact h₂.1
    · exact addEvent_lands hsound _ _

theorem updateLoop_lands (h : Sound hand s) (turns : List Turn) :
    Lands (Sound hand) (s.updateLoop turns) := by
  induction turns generalizing s with
  | nil => exact h
  | cons turn turns ih =>
      unfold updateLoop
      split
      · exact h
      · rename_i entry rest hevents
        split
        · have hfirst : SoundOn (entry :: rest) hand none { s with events := rest } := by
            rw [Sound, hevents] at h
            exact { h with }
          exact (runEntry_lands hfirst turn).bind fun s₁ h₁ => ih h₁
        · exact h

theorem step_lands (h : Sound [] s) (call : Call) : Lands (Sound []) (s.step call) := by
  cases call with
  | action action => exact perform_lands h action
  | update p_time turns =>
      have hlater : Sound [] { s with time := (s.time + p_time) % 2 ^ 64 } := { h with }
      exact updateLoop_lands hlater turns

theorem run_lands (h : Sound [] s) (calls : List Call) : Lands (Sound []) (s.run calls) := by
  induction calls generalizing s with
  | nil => exact h
  | cons call rest ih => exact (step_lands h call).bind fun s₁ h₁ => ih h₁

theorem new_sound : Sound [] new where
  inTime := List.Pairwise.nil
  once := List.nodup_nil
  there _ := by simp [new, waitingIn]
  born _ _ := rfl
  numbered _ ho := by cases ho
  orderly := trivial
  running _ _ he := by cases he
  aborted _ _ he := by cases he
  gone event := iff_of_false (by simp [new]) (fun h => Nat.not_lt_zero event h.1)
  owed _ h := by cases h

/-- An event that was inserted and does not wait any more was deleted, once. -/
theorem Sound.count_deleted (h : Sound [] s) {event : EventId} (hin : .inserted event ∈ s.log) :
    s.log.count (.deleted event) = if event ∈ waitingIn s.events then 0 else 1 := by
  have hle := h.orderly.count_le_one (o := .deleted event) fun _ hallowed => hallowed
  have hthere := h.there event
  rw [List.append_nil] at hthere
  split
  · rename_i hwaits
    obtain ⟨e, he⟩ := Option.isSome_iff_exists.1 (hthere.2 hwaits)
    exact List.count_eq_zero.2 (h.not_deleted he)
  · rename_i hwaits
    have hnone : s.heap event = none := by
      rw [← Option.not_isSome_iff_eq_none, hthere]
      exact hwaits
    have := List.count_pos_iff.2 ((h.gone event).2 ⟨h.numbered _ hin, hnone⟩)
    omega

/-- In every run each execution, abort and deletion is in order, whatever the
events' own code does in between; an event inserted is deleted once, unless it
still waits, and all of them are when the processor is destroyed. The run ends
early only at an abortion scheduled twice, never at `SetAborted` and never at a
deleted event. -/
theorem run_orderly (calls : List Call) :
    Lands
      (fun s =>
        Orderly s.log ∧ (∀ event, s.log.count (.aborted event) ≤ 1) ∧
        (∀ event, .inserted event ∈ s.log →
          s.log.count (.deleted event) = if event ∈ waitingIn s.events then 0 else 1) ∧
        ∀ deletable abortCalls,
          Lands
            (fun s' => Orderly s'.log ∧ (∀ event, s'.log.count (.aborted event) ≤ 1) ∧
              ∀ event, .inserted event ∈ s'.log → s'.log.count (.deleted event) = 1)
            (s.killAllEvents true deletable abortCalls))
      (new.run calls) := by
  have hcount : ∀ {s : EventProcessor}, Sound [] s → ∀ event,
      s.log.count (.aborted event) ≤ 1 := fun h event =>
    h.orderly.count_le_one fun _ hallowed => hallowed.1
  refine (run_lands new_sound calls).mono fun s h => ?_
  refine ⟨h.orderly, hcount h, fun event => h.count_deleted, fun deletable abortCalls => ?_⟩
  refine (killAllEvents_lands h true deletable abortCalls).mono fun s' h' => ?_
  refine ⟨h'.1.orderly, hcount h'.1, fun event hin => ?_⟩
  rw [h'.1.count_deleted hin, h'.2 rfl]
  rfl

/-- An event that adds itself again and another one, whose abortion is
scheduled before it is due; it may only be deleted a tick later. -/
example :
    ((new.run
      [.action (.addEvent 5),
        .update 10 [⟨⟨[.addEvent 12], some (20, false, [])⟩, [], true⟩],
        .action (.scheduleAbort 1),
        .update 5 [⟨⟨[], none⟩, [], false⟩],
        .update 5 [⟨⟨[], none⟩, [], true⟩, ⟨⟨[], none⟩, [], true⟩]]).toOption.map
      EventProcessor.log) =
    some [.deleted 0, .executed 0 20 [], .deleted 1, .inserted 1, .aborted 1, .abortScheduled 1,
      .inserted 0, .inserted 1, .executed 0 5 [], .inserted 0] := by
  decide +kernel

end EventProcessor

end Sunstrider.Utilities
