import Mathlib

/-!
# Filling slots in order

A quantity is spread over slots that each have some room: every slot takes what
it can until nothing is left. `fill` is that walk, with the share of each slot
it used. The facts about it are about three things only: which slots it uses
(an initial run of them, in order), how much it places in all (the quantity or
the total room, whichever is smaller), and how large a single share gets, in
terms of the room before it.
-/

namespace Sunstrider.Lib

variable {α : Type}

/-- The room of all slots together. -/
def room (slots : List (α × Nat)) : Nat :=
  (slots.map Prod.snd).sum

/-- Place `n` in the slots from left to right, with the share of each slot used.
The walk stops with the slot that takes the rest. -/
def fill : List (α × Nat) → Nat → List (α × Nat)
  | [], _ => []
  | s :: slots, n =>
      (s.1, min s.2 n) :: if n ≤ s.2 then [] else fill slots (n - s.2)

@[simp] theorem room_nil : room ([] : List (α × Nat)) = 0 := rfl

@[simp] theorem room_cons (s : α × Nat) (slots : List (α × Nat)) :
    room (s :: slots) = s.2 + room slots := by
  simp [room]

@[simp] theorem room_append (xs ys : List (α × Nat)) :
    room (xs ++ ys) = room xs + room ys := by
  simp [room]

theorem le_room {slots : List (α × Nat)} {s : α × Nat} (hs : s ∈ slots) : s.2 ≤ room slots := by
  induction slots with
  | nil => simp at hs
  | cons t slots ih =>
      rw [room_cons]
      rcases List.mem_cons.1 hs with rfl | hs
      · omega
      · have := ih hs
        omega

@[simp] theorem fill_singleton (s : α × Nat) (n : Nat) : fill [s] n = [(s.1, min s.2 n)] := by
  simp [fill]

@[simp] theorem room_fill (slots : List (α × Nat)) (n : Nat) :
    room (fill slots n) = min (room slots) n := by
  induction slots generalizing n with
  | nil => simp [fill]
  | cons s slots ih =>
      rw [fill, room_cons, room_cons]
      split
      · rename_i h
        show min s.2 n + 0 = _
        omega
      · rename_i h
        rw [ih]
        omega

/-- Two runs of slots are filled one after the other. -/
theorem fill_append (xs ys : List (α × Nat)) (n : Nat) (hn : 0 < n) :
    fill (xs ++ ys) n =
      fill xs n ++ if n ≤ room xs then [] else fill ys (n - room xs) := by
  induction xs generalizing n with
  | nil =>
      have h : ¬ n ≤ 0 := by omega
      simp [fill, h]
  | cons x xs ih =>
      rw [List.cons_append, fill, fill, room_cons]
      by_cases h : n ≤ x.2
      · have h' : n ≤ x.2 + room xs := by omega
        simp [h, h']
      · rw [if_neg h, if_neg h, ih (n - x.2) (by omega), List.cons_append]
        congr 2
        by_cases h' : n ≤ x.2 + room xs
        · rw [if_pos h', if_pos (by omega)]
        · rw [if_neg h', if_neg (by omega), Nat.sub_sub]

/-- The slots used, in their order. -/
theorem fill_sublist (slots : List (α × Nat)) (n : Nat) :
    ((fill slots n).map Prod.fst).Sublist (slots.map Prod.fst) := by
  induction slots generalizing n with
  | nil => simp [fill]
  | cons s slots ih =>
      rw [fill, List.map_cons, List.map_cons]
      refine List.Sublist.cons_cons _ ?_
      split
      · simp
      · exact ih _

theorem nodup_fill {slots : List (α × Nat)} (h : (slots.map Prod.fst).Nodup) (n : Nat) :
    ((fill slots n).map Prod.fst).Nodup :=
  List.Sublist.nodup (fill_sublist slots n) h

/-- A share never exceeds the room of its slot. -/
theorem mem_fill {slots : List (α × Nat)} {n : Nat} {e : α × Nat} (he : e ∈ fill slots n) :
    ∃ s ∈ slots, s.1 = e.1 ∧ e.2 ≤ s.2 ∧ e.2 ≤ n := by
  induction slots generalizing n with
  | nil => simp [fill] at he
  | cons s slots ih =>
      rw [fill, List.mem_cons] at he
      rcases he with rfl | he
      · exact ⟨s, by simp, rfl, Nat.min_le_left .., Nat.min_le_right ..⟩
      · split at he
        · simp at he
        · obtain ⟨t, ht, h₁, h₂, h₃⟩ := ih he
          exact ⟨t, by simp [ht], h₁, h₂, by omega⟩

/-- Every share stays below `b` when no slot is asked for `b` or more: slot `i`
is asked for what the slots before it have left, up to its own room. -/
theorem fill_lt_iff (slots : List (α × Nat)) (n b : Nat) (hb : 0 < b) :
    (∀ e ∈ fill slots n, e.2 < b) ↔
      ∀ xs s ys, slots = xs ++ s :: ys → min s.2 (n - room xs) < b := by
  induction slots generalizing n with
  | nil => simp [fill]
  | cons s slots ih =>
      constructor
      · intro h xs t ys hsplit
        cases xs with
        | nil =>
            obtain ⟨rfl, rfl⟩ : s = t ∧ slots = ys := by simpa using hsplit
            simpa using h (s.1, min s.2 n) (by simp [fill])
        | cons x xs =>
            obtain ⟨rfl, hrest⟩ : s = x ∧ slots = xs ++ t :: ys := by simpa using hsplit
            rw [room_cons]
            by_cases hle : n ≤ s.2
            · omega
            · have := (ih (n - s.2)).1 (fun e he => h e (by simp [fill, hle, he])) xs t ys hrest
              rwa [Nat.sub_sub] at this
      · intro h e he
        rw [fill, List.mem_cons] at he
        rcases he with rfl | he
        · simpa using h [] s slots rfl
        · split at he
          · simp at he
          · refine (ih (n - s.2)).2 (fun xs t ys hsplit => ?_) e he
            have := h (s :: xs) t ys (by simp [hsplit])
            rwa [room_cons, ← Nat.sub_sub] at this

end Sunstrider.Lib
