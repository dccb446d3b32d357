import Sunstrider.Lib.Loop

/-!
# Reports of spam

A player has the reports that others made of it as a spammer, one for each reporter, in the
order of their ids. A new report is put in, and then a loop takes out those that have
expired. It begins again at the first report after each one it erases, and then goes on to
the next, as every round does. So the report that is first after the first erasure is never
looked at.

What the loop would do past the end of the reports it must not do; the model says so with
an error.
-/

namespace Sunstrider.Social

open Lib

structure SpamReport where
  time : Int
  reporterGUID : UInt32
  message : String
deriving DecidableEq, Repr

/-- The reports by the ids of the reporters. -/
structure SpamReports where
  entries : List SpamReport
  sorted : entries.Pairwise (·.reporterGUID < ·.reporterGUID)
deriving DecidableEq

/-- The configuration of `World`. -/
structure SpamConfig where
  period : UInt32
  threshold : UInt32
  cooldown : UInt32
deriving DecidableEq, Repr

/-- An iterator at the end was moved on. -/
inductive PastEnd
  | pastEnd
deriving DecidableEq, Repr

/-- A report takes the place of the one by the same reporter, or its own. -/
def putReport (spr : SpamReport) : List SpamReport → List SpamReport
  | [] => [spr]
  | e :: es =>
      if spr.reporterGUID < e.reporterGUID then spr :: e :: es
      else if e.reporterGUID < spr.reporterGUID then e :: putReport spr es
      else spr :: es

theorem mem_putReport {spr e : SpamReport} {es : List SpamReport} (h : e ∈ putReport spr es) :
    e = spr ∨ e ∈ es := by
  induction es with
  | nil => exact .inl (List.mem_singleton.1 h)
  | cons e' es ih =>
      rw [putReport] at h
      split at h
      · exact List.mem_cons.1 h
      · split at h
        · rcases List.mem_cons.1 h with rfl | h
          · exact .inr List.mem_cons_self
          · exact (ih h).imp_right (List.mem_cons_of_mem _)
        · exact (List.mem_cons.1 h).imp_right (List.mem_cons_of_mem _)

theorem mem_putReport_self (spr : SpamReport) (es : List SpamReport) : spr ∈ putReport spr es := by
  induction es with
  | nil => exact List.mem_singleton_self spr
  | cons e es ih =>
      rw [putReport]
      split
      · exact List.mem_cons_self
      · split
        · exact List.mem_cons_of_mem _ ih
        · exact List.mem_cons_self

theorem sorted_putReport (spr : SpamReport) {es : List SpamReport}
    (h : es.Pairwise (·.reporterGUID < ·.reporterGUID)) :
    (putReport spr es).Pairwise (·.reporterGUID < ·.reporterGUID) := by
  induction es with
  | nil => exact List.pairwise_singleton _ _
  | cons e es ih =>
      obtain ⟨he, hes⟩ := List.pairwise_cons.1 h
      rw [putReport]
      split
      · rename_i hlt
        refine List.pairwise_cons.2 ⟨fun e' he' => ?_, h⟩
        rcases List.mem_cons.1 he' with rfl | he'
        · exact hlt
        · exact UInt32.lt_trans hlt (he e' he')
      · rename_i hnot
        split
        · rename_i hlt
          refine List.pairwise_cons.2 ⟨fun e' he' => ?_, ih hes⟩
          rcases mem_putReport he' with rfl | he'
          · exact hlt
          · exact he e' he'
        · rename_i hnot'
          have hsame : e.reporterGUID = spr.reporterGUID :=
            UInt32.le_antisymm (UInt32.not_lt.1 hnot) (UInt32.not_lt.1 hnot')
          exact List.pairwise_cons.2 ⟨fun e' he' => hsame ▸ he e' he', hes⟩

namespace SpamReports

/-- `_spamReports[reporterGUID.GetCounter()] = spr`. -/
def put (reports : SpamReports) (spr : SpamReport) : SpamReports :=
  ⟨putReport spr reports.entries, sorted_putReport spr reports.sorted⟩

/-- `_spamReports.erase(itr)`. -/
def erase (reports : SpamReports) (itr : Nat) : SpamReports :=
  ⟨reports.entries.eraseIdx itr, reports.sorted.sublist (List.eraseIdx_sublist _ _)⟩

end SpamReports

/-! ## The loop -/

/-- The reports and how far the loop is in them. -/
structure Cleanup where
  reports : SpamReports
  itr : Nat
deriving DecidableEq

namespace Cleanup

/-- `itr != _spamReports.end()`. -/
def notAtEnd (s : Cleanup) : Bool := s.itr != s.reports.entries.length

/-- `++itr`. -/
def advance (s : Cleanup) : Except PastEnd Cleanup :=
  if s.itr < s.reports.entries.length then .ok { s with itr := s.itr + 1 } else .error .pastEnd

/-- The body of the loop. -/
def eraseExpired (limit : Int) (s : Cleanup) : Cleanup :=
  match s.reports.entries[s.itr]? with
  | some spr => if spr.time < limit then ⟨s.reports.erase s.itr, 0⟩ else s
  | none => s

def round (limit : Int) (s : Cleanup) : Except PastEnd Cleanup := (s.eraseExpired limit).advance

end Cleanup

/-- The loop that trashes expired reports. -/
def trashExpired (fuel : Nat) (limit : Int) (reports : SpamReports) :
    Option (Except PastEnd Cleanup) :=
  loop Cleanup.notAtEnd (Cleanup.round limit) fuel ⟨reports, 0⟩

/-! ## A report -/

structure Spammer where
  spamReports : SpamReports
  lastSpamAlert : Int
deriving DecidableEq

def SpamConfig.limit (config : SpamConfig) (now : Int) : Int := now - config.period.toNat

/-- Whether the staff hears of it, after the cleanup. -/
def Spammer.alert (config : SpamConfig) (now : Int) (s : Spammer) : Spammer :=
  if now - config.cooldown.toNat < s.lastSpamAlert then s
  else if config.threshold.toNat ≤ s.spamReports.entries.length then { s with lastSpamAlert := now }
  else s

def addSpamReport (fuel : Nat) (config : SpamConfig) (now : Int) (reporterGUID : UInt32)
    (message : String) (s : Spammer) : Option (Except PastEnd Spammer) :=
  (trashExpired fuel (config.limit now) (s.spamReports.put ⟨now, reporterGUID, message⟩)).map
    fun r => r.map fun c => Spammer.alert config now { s with spamReports := c.reports }

end Sunstrider.Social
