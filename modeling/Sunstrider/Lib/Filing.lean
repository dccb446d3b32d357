import Mathlib

/-!
# Things filed in lists

Lists under keys, and things that each stand in one of them: `place` says under
which key a thing is filed, or that it is not filed. The order within a list does
not matter. A thing comes in, goes out, or is moved; moved is out and in again,
and whether it is put into the one list before it is taken off the other makes no
difference.
-/

namespace Sunstrider

variable {κ α : Type*} [DecidableEq κ] [DecidableEq α]
  {lists lists' : κ → List α} {place : α → Option κ} {a b : α} {k k' : κ} {list list' : List α}

/-- Every thing stands once under the key of its place, and nowhere else. -/
structure Filed (lists : κ → List α) (place : α → Option κ) : Prop where
  nodup : ∀ k, (lists k).Nodup
  mem_iff : ∀ k a, a ∈ lists k ↔ place a = some k

namespace Filed

omit [DecidableEq κ] [DecidableEq α] in
theorem none : Filed (fun _ : κ => ([] : List α)) fun _ => none :=
  ⟨fun _ => List.nodup_nil, fun _ _ => by simp⟩

omit [DecidableEq κ] [DecidableEq α] in
theorem key_eq (h : Filed lists place) (ha : a ∈ lists k) (ha' : a ∈ lists k') : k = k' :=
  Option.some.inj (((h.mem_iff k a).1 ha).symm.trans ((h.mem_iff k' a).1 ha'))

omit [DecidableEq κ] in
theorem count_eq_one (h : Filed lists place) (ha : place a = some k) : (lists k).count a = 1 :=
  List.count_eq_one_of_mem (h.nodup k) ((h.mem_iff k a).2 ha)

/-- A thing that was not filed comes into a list. -/
theorem insert (h : Filed lists place) (ha : place a = .none) (hperm : list.Perm (a :: lists k)) :
    Filed (Function.update lists k list) (Function.update place a (some k)) := by
  have hnot : ∀ k, a ∉ lists k := by
    intro k hk
    rw [(h.mem_iff k a).1 hk] at ha
    cases ha
  refine ⟨?_, ?_⟩
  · intro k'
    by_cases hk : k' = k
    · subst hk
      rw [Function.update_self]
      exact hperm.nodup_iff.2 (List.nodup_cons.2 ⟨hnot k', h.nodup k'⟩)
    · rw [Function.update_of_ne hk]
      exact h.nodup k'
  · intro k' b
    by_cases hb : b = a
    · subst hb
      rw [Function.update_self]
      by_cases hk : k' = k
      · subst hk
        simp [hperm.mem_iff]
      · rw [Function.update_of_ne hk]
        simp only [hnot k', Option.some.injEq, false_iff]
        exact fun heq => hk heq.symm
    · rw [Function.update_of_ne hb, ← h.mem_iff]
      by_cases hk : k' = k
      · subst hk
        simp [hperm.mem_iff, hb]
      · rw [Function.update_of_ne hk]

/-- A thing is taken off its list. -/
theorem erase (h : Filed lists place) (hperm : list.Perm ((lists k).erase a))
    (ha : place a = some k) :
    Filed (Function.update lists k list) (Function.update place a .none) := by
  have hnodup := (h.nodup k).erase a
  refine ⟨?_, ?_⟩
  · intro k'
    by_cases hk : k' = k
    · subst hk
      rw [Function.update_self]
      exact hperm.nodup_iff.2 hnodup
    · rw [Function.update_of_ne hk]
      exact h.nodup k'
  · intro k' b
    by_cases hb : b = a
    · subst hb
      rw [Function.update_self]
      by_cases hk : k' = k
      · subst hk
        simp [hperm.mem_iff, (h.nodup k').mem_erase_iff]
      · rw [Function.update_of_ne hk, h.mem_iff, ha]
        simp only [Option.some.injEq, reduceCtorEq, iff_false]
        exact fun heq => hk heq.symm
    · rw [Function.update_of_ne hb, ← h.mem_iff]
      by_cases hk : k' = k
      · subst hk
        simp [hperm.mem_iff, List.mem_erase_of_ne hb]
      · rw [Function.update_of_ne hk]

/-- A thing is put into another list, and then taken off the one it was in. -/
theorem move (h : Filed lists place) (ha : place a = some k) (hne : k ≠ k')
    (hperm' : list'.Perm (a :: lists k')) (hperm : list.Perm ((lists k).erase a)) :
    Filed (Function.update (Function.update lists k' list') k list)
      (Function.update place a (some k')) := by
  rw [Function.update_comm (Ne.symm hne)]
  have hout := h.erase hperm ha
  have hin : list'.Perm (a :: Function.update lists k list k') := by
    rwa [Function.update_of_ne (Ne.symm hne)]
  have hmoved := hout.insert (Function.update_self ..) hin
  rwa [Function.update_idem] at hmoved

end Filed

end Sunstrider
