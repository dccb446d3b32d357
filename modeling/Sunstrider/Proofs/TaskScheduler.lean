import Sunstrider.Utilities.TaskScheduler

/-!
# Ticks of any size

Nothing a task does looks at the current time: a repeat and a new task are put in relative
to the end of the task that asks for them. So a round of the loop is the same whatever the
current time is, which only says when the loop stops, and a loop that stops sooner followed
by one that stops later is the one that stops later.

That the loop stops at all is due to positive durations. What a task puts in ends later
than the task, so with the tasks that end together done one after the other, the end of the
first task in the queue moves on; `rank` is how far it has to go, and how many tasks are
there that end together with it.
-/

namespace Sunstrider.Utilities

open Lib

variable {H : Type}

namespace ContextCall

/-- The durations of a call are positive. -/
def Positive : ContextCall H → Prop
  | repeatFor duration => 0 < duration
  | schedule time _ => 0 < time
  | scheduleInGroup time _ _ => 0 < time
  | _ => True

def isRepeat : ContextCall H → Bool
  | repeatFor _ => true
  | repeatAgain => true
  | _ => false

end ContextCall

namespace TaskScheduler

variable {calls : H → UInt32 → List (ContextCall H)} {s s' : TaskScheduler H}
  {c : TaskContext H} {time : Int}

variable {t : Task H}

/-! ## The current time -/

def withNow (time : Int) (s : TaskScheduler H) : TaskScheduler H := { s with now := time }

theorem call_withNow (cs : TaskContext H × TaskScheduler H) (a : ContextCall H) :
    TaskContext.call (cs.1, cs.2.withNow time) a =
      (TaskContext.call cs a).map fun cs => (cs.1, cs.2.withNow time) := by
  have hrepeat (duration : Int) : cs.1.repeatFor (cs.2.withNow time) duration =
      (cs.1.repeatFor cs.2 duration).map fun cs => (cs.1, cs.2.withNow time) := by
    unfold TaskContext.repeatFor
    split
    · rfl
    · rfl
  cases a with
  | repeatFor duration => exact hrepeat duration
  | repeatAgain => exact hrepeat _
  | schedule _ _ => rfl
  | scheduleInGroup _ _ _ => rfl
  | cancelGroup _ => rfl
  | cancelAll => rfl

theorem foldlM_withNow (time : Int) (l : List (ContextCall H))
    (cs : TaskContext H × TaskScheduler H) :
    l.foldlM TaskContext.call (cs.1, cs.2.withNow time) =
      (l.foldlM TaskContext.call cs).map fun cs => (cs.1, cs.2.withNow time) := by
  induction l generalizing cs with
  | nil => rfl
  | cons a l ih =>
      rw [List.foldlM_cons, List.foldlM_cons, call_withNow]
      cases TaskContext.call cs a with
      | error e => rfl
      | ok cs' => exact ih cs'

theorem invokeFirst_withNow (calls : H → UInt32 → List (ContextCall H)) (time : Int)
    (s : TaskScheduler H) :
    invokeFirst calls (s.withNow time) = (invokeFirst calls s).map (withNow time) := by
  unfold invokeFirst
  have hfirst : (s.withNow time).taskHolder.first = s.taskHolder.first := rfl
  rw [hfirst]
  cases s.taskHolder.first with
  | none => rfl
  | some task =>
      have hfold := foldlM_withNow time (calls task.task task.repeated)
        (⟨task, false⟩, { s with
          taskHolder := s.taskHolder.pop
          invoked := s.invoked ++ [task] })
      refine (congrArg (Except.map Prod.snd) hfold).trans ?_
      dsimp only
      cases (calls task.task task.repeated).foldlM TaskContext.call _ with
      | error e => rfl
      | ok cs => rfl

theorem now_of_invokeFirst (h : invokeFirst calls s = .ok s') : s'.now = s.now := by
  have hsame : s.withNow s.now = s := rfl
  have hmap := invokeFirst_withNow calls s.now s
  rw [hsame, h] at hmap
  have heq : s' = s'.withNow s.now := Except.ok.inj hmap
  rw [heq]
  rfl

theorem dueBy_mono {time' : Int} (hle : time ≤ time') (h : s.dueBy time = true) :
    s.dueBy time' = true := by
  unfold dueBy at h ⊢
  cases hfirst : s.taskHolder.first with
  | none => rw [hfirst] at h; cases h
  | some task =>
      rw [hfirst] at h
      dsimp only at h ⊢
      rw [Bool.not_eq_true', decide_eq_false_iff_not] at h ⊢
      omega

/-! ## A round -/

/-- A task that repeats itself for the duration it has, has a positive one. -/
def Own (calls : H → UInt32 → List (ContextCall H)) (t : Task H) : Prop :=
  0 < t.duration ∨ ContextCall.repeatAgain ∉ calls t.task t.repeated

/-- The tasks that end no later than a time. -/
def countBy (time : Int) (l : List (Task H)) : Nat := l.countP fun u => decide (u.endTime ≤ time)

/-- What the calls of a task that was popped leave: the tasks that were put in end later
than it, and none that ends together with it was added. -/
structure Later (calls : H → UInt32 → List (ContextCall H)) (t : Task H) (s : TaskScheduler H)
    (cs : TaskContext H × TaskScheduler H) : Prop where
  invoked : cs.2.invoked = s.invoked ++ [t]
  context : t.endTime ≤ cs.1.task.endTime
  duration : cs.1.consumed = true ∨ Own calls t ∧ cs.1.task = t
  tasks : ∀ u ∈ cs.2.taskHolder.container,
    u ∈ s.taskHolder.pop.container ∨ t.endTime < u.endTime ∧ 0 < u.duration
  together : countBy t.endTime cs.2.taskHolder.container ≤
    countBy t.endTime s.taskHolder.pop.container

namespace Later

variable {t u : Task H} {cs cs' : TaskContext H × TaskScheduler H}

theorem insertTask (h : Later calls t s cs) (hlater : t.endTime < u.endTime)
    (hpos : 0 < u.duration) : Later calls t s (cs.1, cs.2.insertTask u) := by
  refine ⟨h.invoked, h.context, h.duration, fun v hv => ?_, ?_⟩
  · rcases mem_insertTimed.1 hv with rfl | hv
    · exact .inr ⟨hlater, hpos⟩
    · exact h.tasks v hv
  · refine Nat.le_trans (Nat.le_of_eq ?_) h.together
    show countBy _ (insertTimed Task.endTime u _) = _
    rw [countBy, countBy, (insertTimed_perm Task.endTime u _).countP_eq, List.countP_cons_of_neg]
    rw [decide_eq_true_eq]
    omega

theorem removal (h : Later calls t s cs) {q : TaskQueue H}
    (hq : q.container.Sublist cs.2.taskHolder.container) :
    Later calls t s (cs.1, { cs.2 with taskHolder := q }) :=
  ⟨h.invoked, h.context, h.duration, fun u hu => h.tasks u (hq.subset hu),
    Nat.le_trans hq.countP_le h.together⟩

theorem repeatFor (h : Later calls t s cs) {duration : Int} (hpos : 0 < duration)
    (hok : cs.1.repeatFor cs.2 duration = .ok cs') : Later calls t s cs' := by
  unfold TaskContext.repeatFor at hok
  split at hok
  · cases hok
  · cases hok
    have hcontext := h.context
    have hinsert := h.insertTask (u := { cs.1.task with
      duration := duration
      endTime := cs.1.task.endTime + duration
      repeated := cs.1.task.repeated + 1 }) (by dsimp only; omega) hpos
    exact ⟨hinsert.invoked, by dsimp only; omega, .inl rfl, hinsert.tasks, hinsert.together⟩

/-- One call. -/
theorem call (h : Later calls t s cs) {a : ContextCall H} (hpos : a.Positive)
    (ha : a ∈ calls t.task t.repeated) (hok : TaskContext.call cs a = .ok cs') :
    Later calls t s cs' := by
  have hcontext := h.context
  cases a with
  | repeatFor duration => exact h.repeatFor hpos hok
  | repeatAgain =>
      rcases h.duration with hconsumed | ⟨hown, htask⟩
      · rw [TaskContext.call, TaskContext.repeatFor, if_pos hconsumed] at hok
        cases hok
      · have hduration : 0 < cs.1.task.duration := by
          rw [htask]
          exact hown.resolve_right (not_not_intro ha)
        exact h.repeatFor hduration hok
  | schedule time task =>
      cases hok
      have hpos : 0 < time := hpos
      exact h.insertTask (by dsimp only; omega) hpos
  | scheduleInGroup time group task =>
      cases hok
      have hpos : 0 < time := hpos
      exact h.insertTask (by dsimp only; omega) hpos
  | cancelGroup group =>
      cases hok
      exact h.removal List.filter_sublist
  | cancelAll =>
      cases hok
      exact h.removal (List.nil_sublist _)

end Later

theorem foldlM_later (l : List (ContextCall H)) (hpos : ∀ a ∈ l, a.Positive)
    (hl : ∀ a ∈ l, a ∈ calls t.task t.repeated) {cs cs' : TaskContext H × TaskScheduler H}
    (h : Later calls t s cs) (hok : l.foldlM TaskContext.call cs = .ok cs') :
    Later calls t s cs' := by
  induction l generalizing cs with
  | nil => cases hok; exact h
  | cons a l ih =>
      obtain ⟨ha, hrest⟩ := List.forall_mem_cons.1 hpos
      obtain ⟨hin, hins⟩ := List.forall_mem_cons.1 hl
      rw [List.foldlM_cons] at hok
      cases hcall : TaskContext.call cs a with
      | error e => rw [hcall] at hok; cases hok
      | ok cs₁ =>
          rw [hcall] at hok
          exact ih hrest hins (h.call ha hin hcall) hok

/-- A round pops the first task and leaves what its calls leave. -/
theorem later_of_invokeFirst (hpos : ∀ h n, ∀ a ∈ calls h n, a.Positive) (hown : Own calls t)
    (hfirst : s.taskHolder.first = some t) (hok : invokeFirst calls s = .ok s') :
    ∃ c, Later calls t s (c, s') := by
  unfold invokeFirst at hok
  rw [hfirst] at hok
  dsimp only at hok
  have hstart : Later calls t s (⟨t, false⟩, { s with
      taskHolder := s.taskHolder.pop
      invoked := s.invoked ++ [t] }) :=
    ⟨rfl, Int.le_refl _, .inr ⟨hown, rfl⟩, fun u hu => .inl hu, Nat.le_refl _⟩
  cases hfold : (calls t.task t.repeated).foldlM TaskContext.call (⟨t, false⟩, { s with
      taskHolder := s.taskHolder.pop
      invoked := s.invoked ++ [t] }) with
  | error e => rw [hfold] at hok; cases hok
  | ok cs =>
      rw [hfold] at hok
      cases hok
      exact ⟨cs.1, foldlM_later _ (hpos _ _) (fun a ha => ha) hstart hfold⟩

theorem container_of_first (h : s.taskHolder.first = some t) :
    s.taskHolder.container = t :: s.taskHolder.pop.container := by
  obtain ⟨l, hl⟩ := List.head?_eq_some_iff.1 h
  show _ = t :: s.taskHolder.container.tail
  rw [hl, List.tail_cons]

/-- Every task of the queue ends no sooner than the first. -/
theorem first_le {u : Task H} (h : s.taskHolder.first = some t) (hu : u ∈ s.taskHolder.container) :
    t.endTime ≤ u.endTime := by
  have htime := s.taskHolder.inTime
  rw [container_of_first h] at hu htime
  rcases List.mem_cons.1 hu with rfl | hu
  · exact Int.le_refl _
  · exact (List.pairwise_cons.1 htime).1 u hu

/-! ## The loop stops -/

/-- How far the end of the first task has to go, and how many tasks end together with it. -/
def rank (time : Int) (s : TaskScheduler H) : Nat × Nat :=
  match s.taskHolder.first with
  | none => (0, 0)
  | some t => ((time + 1 - t.endTime).toNat, countBy t.endTime s.taskHolder.container)

def rankLess : Nat × Nat → Nat × Nat → Prop := Prod.Lex (· < ·) (· < ·)

theorem wellFounded_rankLess : WellFounded rankLess :=
  WellFounded.prod_lex Nat.lt_wfRel.wf Nat.lt_wfRel.wf

theorem rank_less (hfirst : s.taskHolder.first = some t) (hdue : t.endTime ≤ time)
    (hlater : Later calls t s (c, s')) : rankLess (rank time s') (rank time s) := by
  have hcount : countBy t.endTime s.taskHolder.container =
      countBy t.endTime s.taskHolder.pop.container + 1 := by
    rw [container_of_first hfirst, countBy, List.countP_cons_of_pos]
    · rfl
    · exact decide_eq_true (Int.le_refl _)
  have hrank : rank time s =
      ((time + 1 - t.endTime).toNat, countBy t.endTime s.taskHolder.container) := by
    rw [rank, hfirst]
  rw [hrank, rank]
  cases hnext : s'.taskHolder.first with
  | none => exact .left _ _ (by omega)
  | some u =>
      have hu : u ∈ s'.taskHolder.container := by
        rw [container_of_first hnext]
        exact List.mem_cons_self
      have hle : t.endTime ≤ u.endTime := by
        rcases hlater.tasks u hu with hold | ⟨hlt, -⟩
        · exact first_le hfirst (List.mem_of_mem_tail hold)
        · exact Int.le_of_lt hlt
      rcases Int.le_iff_lt_or_eq.1 hle with hlt | heq
      · exact .left _ _ (by omega)
      · -- the next task ends together with this one, of which there is one less now
        have htogether : countBy t.endTime s'.taskHolder.container ≤ _ := hlater.together
        dsimp only
        rw [← heq]
        exact .right _ (by omega)

/-- Every task in the queue that repeats itself for the duration it has, has a positive one. -/
def AllOwn (calls : H → UInt32 → List (ContextCall H)) (s : TaskScheduler H) : Prop :=
  ∀ t ∈ s.taskHolder.container, Own calls t

theorem first_of_dueBy (h : s.dueBy time = true) :
    ∃ t, s.taskHolder.first = some t ∧ t.endTime ≤ time := by
  unfold dueBy at h
  cases hfirst : s.taskHolder.first with
  | none => rw [hfirst] at h; cases h
  | some t =>
      rw [hfirst] at h
      dsimp only at h
      rw [Bool.not_eq_true', decide_eq_false_iff_not] at h
      exact ⟨t, rfl, by omega⟩

theorem Later.allOwn (h : Later calls t s (c, s')) (hown : AllOwn calls s) : AllOwn calls s' := by
  intro u hu
  rcases h.tasks u hu with hold | ⟨-, hpos⟩
  · exact hown u (List.mem_of_mem_tail hold)
  · exact .inl hpos

section

variable (hpos : ∀ h n, ∀ a ∈ calls h n, a.Positive)

include hpos

/-- What a round of the loop leaves. -/
theorem later_of_round (hown : AllOwn calls s) (hdue : s.dueBy time = true)
    (hok : invokeFirst calls s = .ok s') :
    ∃ t c, s.taskHolder.first = some t ∧ t.endTime ≤ time ∧ Later calls t s (c, s') := by
  obtain ⟨t, hfirst, hle⟩ := first_of_dueBy hdue
  have ht : t ∈ s.taskHolder.container := by
    rw [container_of_first hfirst]
    exact List.mem_cons_self
  obtain ⟨c, hlater⟩ := later_of_invokeFirst hpos (hown t ht) hfirst hok
  exact ⟨t, c, hfirst, hle, hlater⟩

theorem exists_ends (hown : AllOwn calls s) :
    ∃ r, LoopEnds (dueBy time) (invokeFirst calls) s r := by
  refine LoopEnds.exists_of_rank wellFounded_rankLess (rank time) (fun s s' hs hdue hok => ?_) hown
  obtain ⟨t, c, hfirst, hle, hlater⟩ := later_of_round hpos hs hdue hok
  exact ⟨hlater.allOwn hs, rank_less hfirst hle hlater⟩

end

/-! ## One update after the other -/

/-- What an update comes to. -/
def Updated (calls : H → UInt32 → List (ContextCall H)) (difftime : Nat) (s : TaskScheduler H)
    (r : Except ContextFault (TaskScheduler H)) : Prop :=
  LoopEnds (dueBy (s.now + difftime)) (invokeFirst calls) (s.withNow (s.now + difftime)) r

variable {d d' fuel : Nat} {r r' : Except ContextFault (TaskScheduler H)}

theorem now_of_ends (h : LoopEnds (dueBy time) (invokeFirst calls) s (.ok s')) :
    s'.now = s.now := by
  refine h.invariant (I := fun s' => s'.now = s.now) (fun s₁ s₂ hs _ hok => ?_) rfl
  exact (now_of_invokeFirst hok).trans hs

theorem update_of_updated (h : Updated calls d s r) :
    ∃ n, ∀ fuel, n ≤ fuel → update calls fuel d s = some r := by
  refine loop_of_ends (h.congr (I := fun s' => s'.now = s.now + d) (fun s₁ s₂ hs hok => ?_)
    (fun s₁ hs => ?_) rfl)
  · exact (now_of_invokeFirst hok).trans hs
  · rw [hs]

theorem updated_of_update (h : update calls fuel d s = some r) : Updated calls d s r := by
  refine (ends_of_loop h).congr (I := fun s' => s'.now = s.now + d) (fun s₁ s₂ hs hok => ?_)
    (fun s₁ hs => ?_) rfl
  · exact (now_of_invokeFirst hok).trans hs
  · rw [hs]

theorem Updated.withNow (h : Updated calls d s r) (time : Int) :
    LoopEnds (dueBy (s.now + d)) (invokeFirst calls) (s.withNow time)
      (r.map (TaskScheduler.withNow time)) := by
  have hends : LoopEnds (dueBy (s.now + d)) (invokeFirst calls) (s.withNow (s.now + d)) r := h
  have hdue (s₁ : TaskScheduler H) :
      dueBy (s.now + d) (s₁.withNow time) = dueBy (s.now + d) s₁ := rfl
  have hmap :=
    LoopEnds.map (g := TaskScheduler.withNow time) hdue (invokeFirst_withNow calls time) hends
  exact hmap

/-- An update that is followed by another one has made the beginning of the update for both
times. -/
theorem Updated.add_error {e : ContextFault} (h : Updated calls d s (.error e)) :
    Updated calls (d + d') s (.error e) := by
  have hmap := h.withNow (s.now + (d + d' : Nat))
  exact hmap.fail_of_imp fun s₁ hdue => dueBy_mono (by omega) hdue

theorem Updated.add_ok (h : Updated calls d s (.ok s')) (h' : Updated calls d' s' r) :
    Updated calls (d + d') s r := by
  have hnow : s'.now = s.now + d := now_of_ends h
  have hmap := h.withNow (s.now + (d + d' : Nat))
  have htime : s'.now + d' = s.now + (d + d' : Nat) := by omega
  rw [Updated, htime] at h'
  exact hmap.goOn (fun s₁ hdue => dueBy_mono (by omega) hdue) h'

theorem AllOwn.updated (hpos : ∀ h n, ∀ a ∈ calls h n, a.Positive) (hown : AllOwn calls s)
    (h : Updated calls d s (.ok s')) : AllOwn calls s' := by
  have hends : LoopEnds _ _ (s.withNow (s.now + d)) (.ok s') := h
  have hstart : AllOwn calls (s.withNow (s.now + d)) := hown
  refine hends.invariant (I := AllOwn calls) (fun s₁ s₂ hs hdue hok => ?_) hstart
  obtain ⟨t, c, -, -, hlater⟩ := later_of_round hpos hs hdue hok
  exact hlater.allOwn hs

/-- Updates with fuel enough come to what one update for the sum of their times comes to. -/
theorem updates_eq (hpos : ∀ h n, ∀ a ∈ calls h n, a.Positive) (hown : AllOwn calls s)
    (difftimes : List Nat) (hne : difftimes ≠ []) :
    ∃ r, Updated calls difftimes.sum s r ∧
      ∃ n, ∀ fuel, n ≤ fuel → updates calls fuel difftimes s = some r := by
  induction difftimes generalizing s with
  | nil => exact absurd rfl hne
  | cons d ds ih =>
      obtain ⟨r, hr⟩ : ∃ r, Updated calls d s r := exists_ends hpos hown
      obtain ⟨n, hn⟩ := update_of_updated hr
      rw [List.sum_cons]
      cases r with
      | error e =>
          refine ⟨.error e, hr.add_error, n, fun fuel hfuel => ?_⟩
          rw [updates, hn fuel hfuel]
      | ok s' =>
          cases ds with
          | nil =>
              refine ⟨.ok s', hr, n, fun fuel hfuel => ?_⟩
              rw [updates, hn fuel hfuel]
              rfl
          | cons d' ds =>
              obtain ⟨r', hr', n', hn'⟩ := ih (hown.updated hpos hr) (List.cons_ne_nil _ _)
              refine ⟨r', hr.add_ok hr', max n n', fun fuel hfuel => ?_⟩
              rw [updates, hn fuel (by omega)]
              exact hn' fuel (by omega)

/-! ## The order of invocations -/

/-- The tasks invoked since some moment, in the order of their ends, none of them before its
end, and none that is still waiting should have been before them. -/
structure InvokedSince (before : List (Task H)) (time : Int) (s : TaskScheduler H) : Prop where
  inOrder : ∃ ts, s.invoked = before ++ ts ∧ ts.Pairwise (fun t u => t.endTime ≤ u.endTime) ∧
    ∀ t ∈ ts, t.endTime ≤ time ∧ ∀ u ∈ s.taskHolder.container, t.endTime ≤ u.endTime

theorem InvokedSince.round {before : List (Task H)} (h : InvokedSince before time s)
    (hfirst : s.taskHolder.first = some t) (hle : t.endTime ≤ time)
    (hlater : Later calls t s (c, s')) : InvokedSince before time s' := by
  obtain ⟨ts, hts, hsorted, hends⟩ := h.inOrder
  have hin : t ∈ s.taskHolder.container := by
    rw [container_of_first hfirst]
    exact List.mem_cons_self
  have hnext : ∀ u ∈ s'.taskHolder.container, t.endTime ≤ u.endTime := by
    intro u hu
    rcases hlater.tasks u hu with hold | ⟨hlt, -⟩
    · exact first_le hfirst (List.mem_of_mem_tail hold)
    · exact Int.le_of_lt hlt
  refine ⟨ts ++ [t], ?_, ?_, fun v hv => ?_⟩
  · have hinvoked : s'.invoked = s.invoked ++ [t] := hlater.invoked
    rw [hinvoked, hts, List.append_assoc]
  · refine List.pairwise_append.2 ⟨hsorted, List.pairwise_singleton _ _, fun v hv u hu => ?_⟩
    rw [List.mem_singleton.1 hu]
    exact (hends v hv).2 t hin
  · rcases List.mem_append.1 hv with hv | hv
    · obtain ⟨hvtime, hvall⟩ := hends v hv
      exact ⟨hvtime, fun u hu => Int.le_trans (hvall t hin) (hnext u hu)⟩
    · rw [List.mem_singleton.1 hv]
      exact ⟨hle, hnext⟩

theorem invokedSince_of_updated (hpos : ∀ h n, ∀ a ∈ calls h n, a.Positive)
    (hown : AllOwn calls s) (h : Updated calls d s (.ok s')) :
    InvokedSince s.invoked (s.now + d) s' := by
  have hstart : AllOwn calls (s.withNow (s.now + d)) ∧
      InvokedSince s.invoked (s.now + d) (s.withNow (s.now + d)) :=
    ⟨hown, [], (List.append_nil _).symm, .nil, fun t ht => absurd ht List.not_mem_nil⟩
  have hends : LoopEnds _ _ (s.withNow (s.now + d)) (.ok s') := h
  refine (hends.invariant (I := fun s₁ => AllOwn calls s₁ ∧ InvokedSince s.invoked (s.now + d) s₁)
    (fun s₁ s₂ hs hdue hok => ?_) hstart).2
  obtain ⟨t, c, hfirst, hle, hlater⟩ := later_of_round hpos hs.1 hdue hok
  exact ⟨hlater.allOwn hs.1, hs.2.round hfirst hle hlater⟩

/-! ## The assertion -/

/-- The assertion holds where no context is asked to repeat twice. -/
theorem foldlM_ok (l : List (ContextCall H)) (cs : TaskContext H × TaskScheduler H)
    (h : l.countP ContextCall.isRepeat + (if cs.1.consumed then 1 else 0) ≤ 1) :
    ∃ cs', l.foldlM TaskContext.call cs = .ok cs' := by
  induction l generalizing cs with
  | nil => exact ⟨cs, rfl⟩
  | cons a l ih =>
      have hrest (hother : a.isRepeat = false) :
          l.countP ContextCall.isRepeat + (if cs.1.consumed then 1 else 0) ≤ 1 := by
        rwa [List.countP_cons_of_neg (by rw [hother]; exact Bool.false_ne_true)] at h
      have hrepeat (hself : a.isRepeat = true) (duration : Int) :
          ∃ cs', cs.1.repeatFor cs.2 duration = .ok cs' ∧
            l.countP ContextCall.isRepeat + (if cs'.1.consumed then 1 else 0) ≤ 1 := by
        rw [List.countP_cons_of_pos hself] at h
        have hfresh : ¬ cs.1.consumed = true := by
          intro hconsumed
          rw [if_pos hconsumed] at h
          omega
        refine ⟨_, by rw [TaskContext.repeatFor, if_neg hfresh], ?_⟩
        rw [if_pos rfl]
        omega
      rw [List.foldlM_cons]
      cases a with
      | repeatFor duration =>
          obtain ⟨cs', hcs', hle⟩ := hrepeat rfl duration
          rw [TaskContext.call, hcs']
          exact ih cs' hle
      | repeatAgain =>
          obtain ⟨cs', hcs', hle⟩ := hrepeat rfl cs.1.task.duration
          rw [TaskContext.call, hcs']
          exact ih cs' hle
      | schedule time task => exact ih (cs.1, _) (hrest rfl)
      | scheduleInGroup time group task => exact ih (cs.1, _) (hrest rfl)
      | cancelGroup group => exact ih (cs.1, _) (hrest rfl)
      | cancelAll => exact ih (cs.1, _) (hrest rfl)

theorem ok_of_updated (honce : ∀ h n, (calls h n).countP ContextCall.isRepeat ≤ 1)
    (h : Updated calls d s r) : ∃ s', r = .ok s' := by
  refine h.ok_of_total fun s => ?_
  unfold invokeFirst
  cases s.taskHolder.first with
  | none => exact ⟨s, rfl⟩
  | some t =>
      obtain ⟨cs, hcs⟩ := foldlM_ok (calls t.task t.repeated) (⟨t, false⟩, { s with
        taskHolder := s.taskHolder.pop
        invoked := s.invoked ++ [t] }) (honce _ _)
      exact ⟨cs.2, by dsimp only; rw [hcs]; rfl⟩

/-! ## The size of a tick -/

/-- With positive durations a sequence of updates comes, with fuel enough, to what every
other sequence for the same time altogether comes to: the same tasks invoked, the same
queue, the same current time, or the same assertion, which there is none of where no task
repeats twice. The tasks are invoked in the order of their ends, and an update invokes none
before its end. -/
theorem updates_insensitive (calls : H → UInt32 → List (ContextCall H))
    (hpos : ∀ h n, ∀ a ∈ calls h n, a.Positive) (s : TaskScheduler H) (hown : AllOwn calls s) :
    (∀ difftimes difftimes' : List Nat, difftimes ≠ [] → difftimes' ≠ [] →
      difftimes.sum = difftimes'.sum →
      ∃ r n, (∀ fuel, n ≤ fuel → updates calls fuel difftimes s = some r ∧
          updates calls fuel difftimes' s = some r) ∧
        ((∀ h n, (calls h n).countP ContextCall.isRepeat ≤ 1) → ∃ s', r = .ok s') ∧
        ∀ s', r = .ok s' → s'.now = s.now + difftimes.sum ∧
          ∃ ts, s'.invoked = s.invoked ++ ts ∧ ts.Pairwise fun t u => t.endTime ≤ u.endTime) ∧
    (∀ fuel difftime s', update calls fuel difftime s = some (.ok s') →
      AllOwn calls s' ∧ s'.now = s.now + difftime ∧
        ∃ ts, s'.invoked = s.invoked ++ ts ∧ ∀ t ∈ ts, t.endTime ≤ s'.now) := by
  constructor
  · intro difftimes difftimes' hne hne' hsum
    obtain ⟨r, hr, n, hn⟩ := updates_eq hpos hown difftimes hne
    obtain ⟨r', hr', n', hn'⟩ := updates_eq hpos hown difftimes' hne'
    rw [← hsum] at hr'
    have hsame : r' = r := LoopEnds.unique hr' hr
    refine ⟨r, max n n', fun fuel hfuel => ⟨hn fuel (by omega), ?_⟩,
      fun honce => ok_of_updated honce hr, fun s' hs' => ?_⟩
    · rw [hn' fuel (by omega), hsame]
    · rw [hs'] at hr
      obtain ⟨ts, hts, hsorted, -⟩ := (invokedSince_of_updated hpos hown hr).inOrder
      exact ⟨now_of_ends hr, ts, hts, hsorted⟩
  · intro fuel difftime s' h
    have hupdated := updated_of_update h
    have hnow : s'.now = s.now + difftime := now_of_ends hupdated
    obtain ⟨ts, hts, -, hends⟩ := (invokedSince_of_updated hpos hown hupdated).inOrder
    exact ⟨hown.updated hpos hupdated, hnow, ts, hts, fun t ht => hnow ▸ (hends t ht).1⟩

/-! A task that repeats itself every two ticks and each time has another one done a tick
later, at first together with one that cancels the group of those after seven ticks. -/

def dripCalls : Nat → UInt32 → List (ContextCall Nat)
  | 0, _ => [.repeatAgain, .scheduleInGroup 1 9 1]
  | 2, _ => [.cancelGroup 9]
  | _, _ => []

def drip : TaskScheduler Nat :=
  ((⟨0, .clear, []⟩ : TaskScheduler Nat).scheduleAt 0 2 0).scheduleAt 0 7 2

theorem drip_in_two_ticks :
    ∃ r n, (∀ fuel, n ≤ fuel → updates dripCalls fuel [3, 0, 5] drip = some r ∧
        updates dripCalls fuel [8] drip = some r) ∧ ∃ s', r = .ok s' := by
  have hpos : ∀ h n, ∀ a ∈ dripCalls h n, a.Positive := by
    intro h n a ha
    unfold dripCalls at ha
    split at ha
    · rcases List.mem_pair.1 ha with rfl | rfl
      · trivial
      · exact Int.one_pos
    · obtain rfl := List.mem_singleton.1 ha
      trivial
    · cases ha
  have hown : AllOwn dripCalls drip := by
    intro t ht
    refine .inl ?_
    rcases List.mem_pair.1 ht with rfl | rfl
    · decide
    · decide
  have honce : ∀ h n, (dripCalls h n).countP ContextCall.isRepeat ≤ 1 := by
    intro h n
    unfold dripCalls
    split
    · decide
    · decide
    · decide
  obtain ⟨r, n, hn, hok, -⟩ := (updates_insensitive dripCalls hpos drip hown).1 [3, 0, 5] [8]
    (List.cons_ne_nil _ _) (List.cons_ne_nil _ _) rfl
  exact ⟨r, n, hn, hok honce⟩

end TaskScheduler

end Sunstrider.Utilities
