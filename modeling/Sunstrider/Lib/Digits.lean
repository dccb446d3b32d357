import Mathlib

/-!
# Digits

A number as its bytes, the lowest first, `littleEndian` one way and `value` the other way.

Where many of the entries of a list are zero it can be written down as two: which of the
entries are there, `marks`, and those that are, `stored`. `fill` puts them together again.
It also takes a list of entries with zeros in it, which `stored` would never have written;
then it is another pair that `marks` and `stored` give for the result, and a shorter one.
-/

namespace Sunstrider.Lib.Digits

/-! ## Bytes -/

def littleEndian : Nat → Nat → List UInt8
  | 0, _ => []
  | width + 1, v => .ofNat v :: littleEndian width (v / 256)

def value (bytes : List UInt8) : Nat := Nat.ofDigits 256 (bytes.map UInt8.toNat)

variable {v width : Nat} {b : UInt8} {bs : List UInt8}

@[simp] theorem value_nil : value [] = 0 := rfl

theorem value_cons : value (b :: bs) = b.toNat + 256 * value bs := by
  rw [value, List.map_cons, Nat.ofDigits_cons]
  rfl

theorem length_littleEndian : (littleEndian width v).length = width := by
  induction width generalizing v with
  | zero => rfl
  | succ width ih => rw [littleEndian, List.length_cons, ih]

theorem value_littleEndian : value (littleEndian width v) = v % 256 ^ width := by
  induction width generalizing v with
  | zero => rw [littleEndian, value_nil, Nat.pow_zero, Nat.mod_one]
  | succ width ih =>
      have hlow : (UInt8.ofNat v).toNat = v % 256 := UInt8.toNat_ofNat'
      rw [littleEndian, value_cons, ih, hlow, Nat.pow_succ', Nat.mod_mul]

theorem value_littleEndian_of_lt (h : v < 256 ^ width) : value (littleEndian width v) = v := by
  rw [value_littleEndian, Nat.mod_eq_of_lt h]

/-! ## The entries that are there -/

section Sparse

variable {α : Type*} [Zero α] [DecidableEq α]

def marks (ds : List α) : List Bool := ds.map fun d => decide (d ≠ 0)

def stored (ds : List α) : List α := ds.filter fun d => decide (d ≠ 0)

def fill : List Bool → List α → List α
  | [], _ => []
  | true :: ms, d :: ds => d :: fill ms ds
  | true :: ms, [] => 0 :: fill ms []
  | false :: ms, ds => 0 :: fill ms ds

variable {ms : List Bool} {d : α} {ds : List α}

theorem length_marks : (marks ds).length = ds.length := List.length_map _

theorem marks_cons : marks (d :: ds) = decide (d ≠ 0) :: marks ds := rfl

theorem stored_cons_zero : stored (0 :: ds) = stored ds :=
  List.filter_cons_of_neg (by simp)

theorem stored_cons_of_ne (h : d ≠ 0) : stored (d :: ds) = d :: stored ds :=
  List.filter_cons_of_pos (decide_eq_true h)

theorem zero_notMem_stored : (0 : α) ∉ stored ds := by
  intro h
  exact of_decide_eq_true (List.mem_filter.1 h).2 rfl

theorem length_stored : (stored ds).length = (marks ds).count true := by
  rw [stored, marks, ← List.countP_eq_length_filter, List.count, List.countP_map]
  congr 1
  funext d
  simp

/-- What was left out comes back as the zero it was. -/
theorem fill_marks : fill (marks ds) (stored ds) = ds := by
  induction ds with
  | nil => rfl
  | cons d ds ih =>
      rw [marks_cons]
      by_cases hd : d = 0
      · subst hd
        rw [decide_eq_false (fun h => h rfl), stored_cons_zero, fill, ih]
      · rw [decide_eq_true hd, stored_cons_of_ne hd, fill, ih]

theorem length_stored_fill_le (h : ds.length = ms.count true) :
    (stored (fill ms ds)).length ≤ ds.length := by
  induction ms, ds using fill.induct with
  | case1 => exact Nat.zero_le _
  | case2 ms d ds ih =>
      rw [List.count_cons_self, List.length_cons] at h
      have := ih (by omega)
      rw [fill, List.length_cons]
      by_cases hd : d = 0
      · rw [hd, stored_cons_zero]
        omega
      · rw [stored_cons_of_ne hd, List.length_cons]
        omega
  | case3 ms ih =>
      rw [List.count_cons_self, List.length_nil] at h
      omega
  | case4 ms ds ih =>
      rw [List.count_cons_of_ne (by decide)] at h
      rw [fill, stored_cons_zero]
      exact ih h

/-- Without a zero among the entries the same two lists are written down again. -/
theorem marks_stored_fill (h : ds.length = ms.count true) (hzero : (0 : α) ∉ ds) :
    marks (fill ms ds) = ms ∧ stored (fill ms ds) = ds := by
  induction ms, ds using fill.induct with
  | case1 ds =>
      rw [List.count_nil, List.length_eq_zero_iff] at h
      rw [h]
      exact ⟨rfl, rfl⟩
  | case2 ms d ds ih =>
      rw [List.count_cons_self, List.length_cons] at h
      rw [List.mem_cons, not_or] at hzero
      have hd : d ≠ 0 := Ne.symm hzero.1
      obtain ⟨hmarks, hstored⟩ := ih (by omega) hzero.2
      rw [fill, marks_cons, stored_cons_of_ne hd, hmarks, hstored, decide_eq_true hd]
      exact ⟨rfl, rfl⟩
  | case3 ms ih =>
      rw [List.count_cons_self, List.length_nil] at h
      omega
  | case4 ms ds ih =>
      rw [List.count_cons_of_ne (by decide)] at h
      obtain ⟨hmarks, hstored⟩ := ih h hzero
      rw [fill, marks_cons, stored_cons_zero, hmarks, hstored, decide_eq_false fun h => h rfl]
      exact ⟨rfl, rfl⟩

end Sparse

end Sunstrider.Lib.Digits
