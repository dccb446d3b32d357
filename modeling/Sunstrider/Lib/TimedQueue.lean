import Mathlib

/-!
# Queues by time

A multimap from times to what is to happen then, as the list of its entries. A new entry goes
behind those with the same time, so that the list is sorted and entries of one time keep the
order they came in.
-/

namespace Sunstrider.Lib

variable {α κ : Type} [LinearOrder κ]

/-- The entries stand in the order of their times. -/
def InTime (key : α → κ) (queue : List α) : Prop := queue.Pairwise fun x y => key x ≤ key y

/-- `multimap::insert`. -/
def insertTimed (key : α → κ) (x : α) (queue : List α) : List α :=
  queue.orderedInsert (fun x y => key x < key y) x

section

variable {key : α → κ} {x y : α} {queue : List α}

theorem insertTimed_perm (key : α → κ) (x : α) (queue : List α) :
    (insertTimed key x queue).Perm (x :: queue) := List.perm_orderedInsert _ x queue

theorem mem_insertTimed : y ∈ insertTimed key x queue ↔ y = x ∨ y ∈ queue := by
  rw [(insertTimed_perm key x queue).mem_iff, List.mem_cons]

theorem insertTimed_of_lt (h : key x < key y) :
    insertTimed key x (y :: queue) = x :: y :: queue := by
  rw [insertTimed, List.orderedInsert, if_pos h]

theorem insertTimed_of_le (h : key y ≤ key x) :
    insertTimed key x (y :: queue) = y :: insertTimed key x queue := by
  rw [insertTimed, List.orderedInsert, if_neg (not_lt.2 h), insertTimed]

theorem InTime.insertTimed (h : InTime key queue) : InTime key (insertTimed key x queue) := by
  induction queue with
  | nil => exact List.pairwise_singleton _ x
  | cons y ys ih =>
      obtain ⟨hy, hys⟩ := List.pairwise_cons.1 h
      rcases lt_or_ge (key x) (key y) with hlt | hle
      · rw [insertTimed_of_lt hlt]
        refine List.pairwise_cons.2 ⟨fun z hz => ?_, h⟩
        rcases List.mem_cons.1 hz with rfl | hz
        · exact le_of_lt hlt
        · exact (le_of_lt hlt).trans (hy z hz)
      · rw [insertTimed_of_le hle]
        refine List.pairwise_cons.2 ⟨fun z hz => ?_, ih hys⟩
        rcases mem_insertTimed.1 hz with rfl | hz
        · exact hle
        · exact hy z hz

end

end Sunstrider.Lib
