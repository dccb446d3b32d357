import Sunstrider.Social.SpamReports

/-!
# What the cleanup leaves

Once a report has been erased the loop only looks at reports behind the first. There it
erases all that have expired: an erasure sends it back, but to the same place. Before that it
has seen the first report and let it stand, or has seen it and erased it, and then the second
is the first from there on. So an expired report is left if and only if the first two have
both expired.

The report that was just made has not expired. So there is always a first report, and moving
on from it does not lead past the end.
-/

namespace Sunstrider.Social

open Lib

/-- Two reports at the beginning that have both expired. -/
def FirstTwoExpired (limit : Int) : List SpamReport → Prop
  | a :: b :: _ => a.time < limit ∧ b.time < limit
  | _ => False

/-- The reports that have not expired. -/
def young (limit : Int) (es : List SpamReport) : List SpamReport :=
  es.filter fun e => decide (limit ≤ e.time)

/-- What the loop leaves. -/
def trashed (limit : Int) : List SpamReport → List SpamReport
  | [] => []
  | [a] => [a]
  | a :: b :: es => if a.time < limit then b :: young limit es else a :: young limit (b :: es)

variable {limit : Int} {e x : SpamReport} {es pre suf : List SpamReport}

theorem mem_young : e ∈ young limit es ↔ e ∈ es ∧ limit ≤ e.time := by
  rw [young, List.mem_filter, decide_eq_true_iff]

theorem young_of_all (h : ∀ e ∈ es, limit ≤ e.time) : young limit es = es :=
  List.filter_eq_self.2 fun e he => decide_eq_true (h e he)

theorem young_append (es es' : List SpamReport) :
    young limit (es ++ es') = young limit es ++ young limit es' := List.filter_append _ _

theorem young_cons_expired (h : e.time < limit) : young limit (e :: es) = young limit es :=
  List.filter_cons_of_neg (by simpa using h)

/-! ## The loop -/

/-- A state of the loop, with any proof that the reports are in order. -/
def Cleanup.At (es : List SpamReport) (itr : Nat) (s : Cleanup) : Prop :=
  s.reports.entries = es ∧ s.itr = itr

theorem Cleanup.At.notAtEnd {s : Cleanup} {itr : Nat} (h : s.At es itr) :
    s.notAtEnd = (itr != es.length) := by
  rw [Cleanup.notAtEnd, h.1, h.2]

/-- A report that has not expired is passed. -/
theorem Cleanup.At.round_young {s : Cleanup} (h : s.At (pre ++ e :: suf) pre.length)
    (he : limit ≤ e.time) :
    ∃ s', s.round limit = .ok s' ∧ s'.At (pre ++ e :: suf) (pre.length + 1) := by
  have hget : s.reports.entries[s.itr]? = some e := by
    rw [h.1, h.2, List.getElem?_append_right (Nat.le_refl _), Nat.sub_self, List.getElem?_cons_zero]
  have hlt : s.itr < s.reports.entries.length := (List.getElem?_eq_some_iff.1 hget).1
  refine ⟨{ s with itr := s.itr + 1 }, ?_, h.1, congrArg (· + 1) h.2⟩
  rw [Cleanup.round, Cleanup.eraseExpired, hget]
  show (if e.time < limit then _ else s).advance = _
  rw [if_neg (Int.not_lt.2 he), Cleanup.advance, if_pos hlt]

/-- An expired one is erased, and the loop is behind the first report. -/
theorem Cleanup.At.round_expired {s : Cleanup} (h : s.At (pre ++ e :: suf) pre.length)
    (he : e.time < limit) (hne : pre ++ suf ≠ []) :
    ∃ s', s.round limit = .ok s' ∧ s'.At (pre ++ suf) 1 := by
  have hget : s.reports.entries[s.itr]? = some e := by
    rw [h.1, h.2, List.getElem?_append_right (Nat.le_refl _), Nat.sub_self, List.getElem?_cons_zero]
  have hleft : (s.reports.erase s.itr).entries = pre ++ suf := by
    show s.reports.entries.eraseIdx s.itr = pre ++ suf
    rw [h.1, h.2, List.eraseIdx_append_of_length_le (Nat.le_refl _), Nat.sub_self,
      List.eraseIdx_cons_zero]
  refine ⟨⟨s.reports.erase s.itr, 1⟩, ?_, hleft, rfl⟩
  rw [Cleanup.round, Cleanup.eraseExpired, hget]
  show (if e.time < limit then _ else s).advance = _
  rw [if_pos he, Cleanup.advance]
  refine if_pos ?_
  show 0 < (s.reports.erase s.itr).entries.length
  rw [hleft]
  exact List.length_pos_iff.2 hne

/-- Behind the first report all that have expired are erased. -/
theorem ends_behind_first (limit : Int) {s : Cleanup}
    (h : s.At (x :: (pre ++ suf)) (pre.length + 1)) (hpre : ∀ e ∈ pre, limit ≤ e.time) :
    ∃ s', LoopEnds Cleanup.notAtEnd (Cleanup.round limit) s (.ok s') ∧
      s'.reports.entries = x :: young limit (pre ++ suf) := by
  -- the reports get fewer with an erasure, and those ahead with any other round
  induction hn : pre.length + suf.length using Nat.strong_induction_on generalizing s pre suf with
  | _ n ihn =>
      induction suf generalizing s pre with
      | nil =>
          rw [List.append_nil] at h ⊢
          refine ⟨s, .exit ?_, ?_⟩
          · rw [h.notAtEnd, List.length_cons, bne_self_eq_false]
          · rw [h.1, young_of_all hpre]
      | cons e suf ih =>
          have hgo : s.notAtEnd = true := by
            rw [h.notAtEnd, List.length_cons, List.length_append, List.length_cons]
            exact bne_iff_ne.2 (by omega)
          have hat : s.At ((x :: pre) ++ e :: suf) (x :: pre).length := h
          rcases Int.lt_or_le e.time limit with he | he
          · obtain ⟨s', hround, hs'⟩ := hat.round_expired he (List.cons_ne_nil _ _)
            rw [List.length_cons] at hn
            have hback : s'.At (x :: ([] ++ (pre ++ suf))) (([] : List SpamReport).length + 1) :=
              hs'
            obtain ⟨s'', hends, hleft⟩ := ihn (pre.length + suf.length) (by omega) hback
              (fun _ he => absurd he List.not_mem_nil)
              (by rw [List.length_append, List.length_nil, Nat.zero_add])
            refine ⟨s'', .round hgo hround hends, ?_⟩
            rw [hleft, List.nil_append, young_append, young_append, young_cons_expired he]
          · obtain ⟨s', hround, hs'⟩ := hat.round_young he
            have happend : pre ++ e :: suf = (pre ++ [e]) ++ suf := by
              rw [List.append_assoc, List.singleton_append]
            have hlength : (pre ++ [e]).length = pre.length + 1 := List.length_append
            have hnext : s'.At (x :: ((pre ++ [e]) ++ suf)) ((pre ++ [e]).length + 1) := by
              rw [← happend, hlength]
              exact hs'
            obtain ⟨s'', hends, hleft⟩ := ih hnext
              (fun e' he' => by
                rcases List.mem_append.1 he' with he' | he'
                · exact hpre e' he'
                · exact List.mem_singleton.1 he' ▸ he)
              (by rw [hlength, ← hn, List.length_cons]; omega)
            exact ⟨s'', .round hgo hround hends, happend ▸ hleft⟩

/-- The whole loop, on reports of which one has not expired. -/
theorem ends_trashExpired (reports : SpamReports) (h : ∃ e ∈ reports.entries, limit ≤ e.time) :
    ∃ s', LoopEnds Cleanup.notAtEnd (Cleanup.round limit) ⟨reports, 0⟩ (.ok s') ∧
      s'.reports.entries = trashed limit reports.entries := by
  obtain ⟨e, he, hyoung⟩ := h
  have hat : Cleanup.At reports.entries 0 ⟨reports, 0⟩ := ⟨rfl, rfl⟩
  generalize (⟨reports, 0⟩ : Cleanup) = s at hat
  generalize reports.entries = es at he hat
  cases es with
  | nil => cases he
  | cons a es =>
      have hgo : s.notAtEnd = true := by
        rw [hat.notAtEnd]
        exact bne_iff_ne.2 (Nat.succ_ne_zero _).symm
      have hfirst : s.At ([] ++ a :: es) ([] : List SpamReport).length := hat
      rcases Int.lt_or_le a.time limit with ha | ha
      · -- the first is erased, and what was the second stays
        have hne : e ≠ a := fun heq => absurd (heq ▸ ha) (Int.not_lt.2 hyoung)
        obtain _ | ⟨b, es⟩ := es
        · exact absurd (List.mem_singleton.1 he) hne
        · obtain ⟨s', hround, hs'⟩ := hfirst.round_expired ha (List.cons_ne_nil _ _)
          have hbehind : s'.At (b :: ([] ++ es)) (([] : List SpamReport).length + 1) := hs'
          obtain ⟨s'', hends, hleft⟩ := ends_behind_first limit hbehind
            fun _ he => absurd he List.not_mem_nil
          refine ⟨s'', .round hgo hround hends, ?_⟩
          rw [hleft, trashed, if_pos ha, List.nil_append]
      · obtain ⟨s', hround, hs'⟩ := hfirst.round_young ha
        have hbehind : s'.At (a :: ([] ++ es)) (([] : List SpamReport).length + 1) := hs'
        obtain ⟨s'', hends, hleft⟩ := ends_behind_first limit hbehind
          fun _ he => absurd he List.not_mem_nil
        refine ⟨s'', .round hgo hround hends, ?_⟩
        rw [hleft, List.nil_append]
        cases es with
        | nil => rfl
        | cons b es => rw [trashed, if_neg (Int.not_lt.2 ha)]

/-! ## What is left -/

theorem mem_trashed_of_young (he : e ∈ es) (hyoung : limit ≤ e.time) : e ∈ trashed limit es := by
  match es with
  | [] => cases he
  | [a] => exact he
  | a :: b :: es =>
      rw [trashed]
      split
      · rename_i ha
        have hne : e ≠ a := fun heq => absurd (heq ▸ ha) (Int.not_lt.2 hyoung)
        rcases List.mem_cons.1 ((List.mem_cons.1 he).resolve_left hne) with rfl | he
        · exact List.mem_cons_self
        · exact List.mem_cons_of_mem _ (mem_young.2 ⟨he, hyoung⟩)
      · rcases List.mem_cons.1 he with rfl | he
        · exact List.mem_cons_self
        · exact List.mem_cons_of_mem _ (mem_young.2 ⟨he, hyoung⟩)

theorem trashed_iff (h : ∃ e ∈ es, limit ≤ e.time) :
    (∀ e ∈ trashed limit es, limit ≤ e.time) ↔ ¬ FirstTwoExpired limit es := by
  obtain ⟨e, he, hyoung⟩ := h
  match es with
  | [] => cases he
  | [a] =>
      refine iff_of_true (fun e' he' => ?_) id
      rw [List.mem_singleton.1 he', ← List.mem_singleton.1 he]
      exact hyoung
  | a :: b :: es =>
      rw [trashed, FirstTwoExpired, not_and, Int.not_lt]
      split
      · rename_i ha
        constructor
        · intro hall _
          exact hall b List.mem_cons_self
        · intro hb e' he'
          rcases List.mem_cons.1 he' with rfl | he'
          · exact hb ha
          · exact (mem_young.1 he').2
      · rename_i ha
        refine iff_of_true (fun e' he' => ?_) fun h => absurd h ha
        rcases List.mem_cons.1 he' with rfl | he'
        · exact Int.not_lt.1 ha
        · exact (mem_young.1 he').2

theorem spamReports_alert (config : SpamConfig) (now : Int) (s : Spammer) :
    (s.alert config now).spamReports = s.spamReports := by
  rw [Spammer.alert]
  split
  · rfl
  · split <;> rfl

/-- With the new report in, the loop comes to its end without moving past it, and every report
that has not expired is kept. None that has expired is left, if and only if the first two
have not both expired. -/
theorem addSpamReport_trashes_iff (config : SpamConfig) (now : Int) (reporterGUID : UInt32)
    (message : String) (s : Spammer) :
    ∃ s' n, (∀ fuel, n ≤ fuel →
        addSpamReport fuel config now reporterGUID message s = some (.ok s')) ∧
      (∀ e ∈ (s.spamReports.put ⟨now, reporterGUID, message⟩).entries,
        config.limit now ≤ e.time → e ∈ s'.spamReports.entries) ∧
      ((∀ e ∈ s'.spamReports.entries, config.limit now ≤ e.time) ↔
        ¬ FirstTwoExpired (config.limit now)
          (s.spamReports.put ⟨now, reporterGUID, message⟩).entries) := by
  have hnew : ∃ e ∈ (s.spamReports.put ⟨now, reporterGUID, message⟩).entries,
      config.limit now ≤ e.time :=
    ⟨⟨now, reporterGUID, message⟩, mem_putReport_self _ _,
      Int.sub_le_self now (Int.natCast_nonneg _)⟩
  obtain ⟨c, hends, hleft⟩ := ends_trashExpired _ hnew
  obtain ⟨n, hn⟩ := loop_of_ends hends
  have hentries :
      (Spammer.alert config now { s with spamReports := c.reports }).spamReports.entries =
      trashed (config.limit now) (s.spamReports.put ⟨now, reporterGUID, message⟩).entries := by
    rw [spamReports_alert]
    exact hleft
  refine ⟨Spammer.alert config now { s with spamReports := c.reports }, n, fun fuel hfuel => ?_,
    fun e he hyoung => ?_, ?_⟩
  · rw [addSpamReport, trashExpired, hn fuel hfuel]
    rfl
  · rw [hentries]
    exact mem_trashed_of_young he hyoung
  · rw [hentries]
    exact trashed_iff hnew

/-- Two reports of long ago: the second is still there after a new one. -/
theorem second_report_stays :
    ∃ s', addSpamReport 9 ⟨120, 3, 120⟩ 1000 3 "gold"
        ⟨⟨[⟨0, 1, "gold"⟩, ⟨0, 2, "gold"⟩], by decide⟩, 0⟩ = some (.ok s') ∧
      ⟨0, 2, "gold"⟩ ∈ s'.spamReports.entries ∧ (0 : Int) < SpamConfig.limit ⟨120, 3, 120⟩ 1000 :=
  ⟨⟨⟨[⟨0, 2, "gold"⟩, ⟨1000, 3, "gold"⟩], by decide⟩, 0⟩, rfl, by decide, by decide⟩

end Sunstrider.Social
