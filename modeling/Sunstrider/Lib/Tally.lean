import Mathlib

/-!
# Counting again after one change

How many members of a list have a property, when the property has changed for one
of them. As with the sums over a ledger, the statement is a balance.

Then an array of counts, one for each label below a bound. `Counts` says that it
holds what a function says; a cell is written together with the function, and the
labels of a list that gains, loses or replaces a member are counted again.
-/

namespace Sunstrider.Lib

variable {α : Type}

theorem countP_change {l : List α} (hl : l.Nodup) {a : α} (ha : a ∈ l) {p q : α → Bool}
    (hpq : ∀ b ∈ l, b ≠ a → q b = p b) :
    l.countP q + (p a).toNat = l.countP p + (q a).toNat := by
  induction l with
  | nil => cases ha
  | cons b l ih =>
      obtain ⟨hb, hl⟩ := List.nodup_cons.1 hl
      rw [List.countP_cons, List.countP_cons]
      have htoNat : ∀ x : Bool, (if x = true then 1 else 0) = x.toNat := by
        intro x
        cases x <;> rfl
      rw [htoNat, htoNat]
      rcases List.mem_cons.1 ha with hab | ha
      · subst hab
        have hrest : l.countP q = l.countP p := by
          refine List.countP_congr fun c hc => ?_
          rw [hpq c (List.mem_cons_of_mem _ hc) (fun he => hb (he ▸ hc))]
        omega
      · have hself : q b = p b := hpq b List.mem_cons_self fun he => hb (he ▸ ha)
        have hrest := ih hl ha fun c hc => hpq c (List.mem_cons_of_mem _ hc)
        rw [hself]
        omega

/-! ## Arrays of counts -/

/-- The array has a cell for each label below `n`, with its count. -/
structure Counts (n : Nat) (cells : List Nat) (c : Nat → Nat) : Prop where
  length : cells.length = n
  cell : ∀ g, g < n → cells[g]? = some (c g)

namespace Counts

variable {n : Nat} {cells : List Nat} {c c' : Nat → Nat}

theorem getD (h : Counts n cells c) {g : Nat} (hg : g < n) : cells.getD g 0 = c g := by
  rw [List.getD_eq_getElem?_getD, h.cell g hg]
  rfl

theorem zero (n : Nat) : Counts n (List.replicate n 0) fun _ => 0 := by
  refine ⟨List.length_replicate, ?_⟩
  intro g hg
  rw [List.getElem?_replicate, if_pos hg]

/-- One cell is written. -/
theorem modify (h : Counts n cells c) {g : Nat} {f : Nat → Nat}
    (hself : g < n → f (c g) = c' g) (hother : ∀ k, k ≠ g → c' k = c k) :
    Counts n (cells.modify g f) c' := by
  refine ⟨by rw [List.length_modify, h.length], ?_⟩
  intro k hk
  rw [List.getElem?_modify]
  split <;> rename_i hgk
  · subst hgk
    rw [h.cell g hk, ← hself hk]
    rfl
  · rw [h.cell k hk, hother k (Ne.symm hgk)]
    rfl

end Counts

/-- A label more. -/
theorem count_concat [DecidableEq α] (l : List α) (a b : α) :
    (l ++ [a]).count b = l.count b + if a = b then 1 else 0 := by
  rw [List.count_append, List.count_singleton]
  simp

/-- A label less. -/
theorem count_perm_cons [DecidableEq α] {l l' : List α} {a : α} (h : l.Perm (a :: l')) (b : α) :
    l.count b = l'.count b + if a = b then 1 else 0 := by
  rw [h.count_eq, List.count_cons]
  simp

/-- A label replaced. -/
theorem count_set_balance [DecidableEq α] {l : List α} {i : Nat} (hi : i < l.length) (a b : α) :
    (l.set i a).count b + (if l[i] = b then 1 else 0) = l.count b + if a = b then 1 else 0 := by
  have hpos : l[i] = b → 0 < l.count b := by
    intro h
    exact List.count_pos_iff.2 (h ▸ List.getElem_mem hi)
  rw [List.count_set hi]
  by_cases hlb : l[i] = b
  · have hp := hpos hlb
    simp only [hlb, beq_self_eq_true, if_true, beq_iff_eq]
    omega
  · simp only [hlb, beq_iff_eq, if_false]
    omega

theorem perm_cons_eraseP {p : α → Bool} {l : List α} {a : α} (h : l.find? p = some a) :
    l.Perm (a :: l.eraseP p) := by
  induction l with
  | nil => cases h
  | cons b l ih =>
      rw [List.find?_cons] at h
      cases hb : p b with
      | true =>
          rw [hb] at h
          obtain rfl := Option.some.inj h
          rw [List.eraseP_cons_of_pos hb]
      | false =>
          rw [hb] at h
          rw [List.eraseP_cons_of_neg (by simp [hb])]
          exact ((ih h).cons b).trans (List.Perm.swap a b _)

/-- With few of each of few labels the list is short. -/
theorem length_le_of_count {l : List Nat} {n k : Nat} (hlt : ∀ a ∈ l, a < n)
    (hk : ∀ a, l.count a ≤ k) : l.length ≤ n * k := by
  induction n generalizing l with
  | zero =>
      cases l with
      | nil => exact Nat.zero_le _
      | cons a l => exact absurd (hlt a List.mem_cons_self) (by omega)
  | succ n ih =>
      have hsplit : l.length = (l.filter (· ≠ n)).length + l.count n := by
        rw [List.count_eq_length_filter, ← List.countP_eq_length_filter,
          ← List.countP_eq_length_filter, List.length_eq_countP_add_countP fun a => a = n,
          Nat.add_comm]
        congr 1
        exact List.countP_congr fun a _ => by simp
      have hrest : (l.filter (· ≠ n)).length ≤ n * k := by
        refine ih ?_ fun a => ?_
        · intro a ha
          have hmem := List.mem_filter.1 ha
          have hne : a ≠ n := by simpa using hmem.2
          have hlt' := hlt a hmem.1
          omega
        · exact Nat.le_trans (List.filter_sublist.count_le a) (hk a)
      have hn := hk n
      rw [Nat.succ_mul]
      omega

/-- A change to one element that leaves what is read of each. -/
theorem map_modify_of_same {α β : Type} {read : α → β} {f : α → α}
    (hf : ∀ a, read (f a) = read a) (l : List α) (i : Nat) :
    (l.modify i f).map read = l.map read := by
  refine List.ext_getElem? fun j => ?_
  rw [List.getElem?_map, List.getElem?_modify, List.getElem?_map]
  cases l[j]? with
  | none => rfl
  | some a =>
      show some (read (if _ then f a else a)) = some (read a)
      split
      · rw [hf]
      · rfl

end Sunstrider.Lib
