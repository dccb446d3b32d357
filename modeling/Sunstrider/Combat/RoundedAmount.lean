import Sunstrider.Combat.ThreatManager
import Sunstrider.Lib.FloatingPoint

/-!
# Threat in rounded arithmetic

`ThreatAmount` knows the order of the amounts and nothing of their size. Where
parts of an amount are added up, the size of the rounding error matters:
`RoundedAmount` gives every amount its exact value and bounds what one
operation may be off. The C++ `float` is the instance with errors, exact
arithmetic the one without.

A difference of two amounts is never too small for the format, so its error is
a share of the result; a product or a quotient may be, and has a fixed part
besides.
-/

namespace Sunstrider.Combat

open Lib FloatingPoint

/-- Amounts with a value, a division, and a bound on the error of each
operation the split of threat uses. -/
class RoundedAmount (F : Type) extends ThreatAmount F, Div F where
  value : F → ℚ
  /-- The share of a result an operation may be off. -/
  roundoff : ℚ
  /-- What a product or quotient may be off besides. -/
  tiny : ℚ
  roundoff_nonneg : 0 ≤ roundoff
  roundoff_le : roundoff ≤ 1 / 1000
  tiny_nonneg : 0 ≤ tiny
  value_le_iff {x y : F} : value x ≤ value y ↔ x ≤ y
  value_zero : value 0 = 0
  value_percent {n : ℕ} : n ≤ 100 → value ((n : ℤ) : F) = n
  sub_le {x y : F} : 0 ≤ y → x - y ≤ x
  div_nonneg {x y : F} : 0 ≤ x → 0 ≤ y → 0 ≤ x / y
  sub_error (x y : F) :
    |value (x - y) - (value x - value y)| ≤ roundoff * |value (x - y)|
  mul_error (x y : F) :
    |value (x * y) - value x * value y| ≤ roundoff * |value x * value y| + tiny
  div_error (x y : F) :
    |value (x / y) - value x / value y| ≤ roundoff * |value x / value y| + tiny

/-- Exact arithmetic. -/
scoped instance : RoundedAmount ℚ where
  value := id
  roundoff := 0
  tiny := 0
  roundoff_nonneg := le_refl 0
  roundoff_le := by norm_num
  tiny_nonneg := le_refl 0
  value_le_iff := Iff.rfl
  value_zero := rfl
  value_percent _ := by simp
  sub_le h := sub_le_self _ h
  div_nonneg := div_nonneg
  sub_error x y := by simp
  mul_error x y := by simp
  div_error x y := by simp

variable {d s : ℕ}

/-- Rounding keeps the order and fixes the numbers of the format; that is all
`ThreatAmount` asks. -/
instance : ThreatAmount (Floating d s) where
  mul_one' x := by
    rw [Floating.mul_def, Floating.units_one]
    have hcancel : (x.units : ℚ) * ((2 ^ s : ℤ) : ℚ) / 2 ^ s = x.units := by
      push_cast
      field_simp
    rw [hcancel, Floating.ofUnits_units]
  zero_mul' x := by
    rw [Floating.mul_def, Floating.units_zero]
    simp only [Int.cast_zero, zero_mul, zero_div]
    rfl
  le_add {x y} h := by
    have hy : (0 : ℚ) ≤ y.units := by exact_mod_cast Floating.nonneg_iff.1 h
    conv_lhs => rw [← Floating.ofUnits_units x]
    exact Floating.ofUnits_mono (by linarith)
  add_le {x y} h := by
    have hy : (y.units : ℚ) ≤ 0 := by
      have := Floating.le_iff.1 h
      rw [Floating.units_zero] at this
      exact_mod_cast this
    conv_rhs => rw [← Floating.ofUnits_units x]
    exact Floating.ofUnits_mono (by linarith)
  add_mono {x x' y y'} h h' := by
    have hx : (x.units : ℚ) ≤ x'.units := by exact_mod_cast Floating.le_iff.1 h
    have hy : (y.units : ℚ) ≤ y'.units := by exact_mod_cast Floating.le_iff.1 h'
    exact Floating.ofUnits_mono (by linarith)
  mul_nonneg' {x y} h h' := by
    have hx : (0 : ℚ) ≤ x.units := by exact_mod_cast Floating.nonneg_iff.1 h
    have hy : (0 : ℚ) ≤ y.units := by exact_mod_cast Floating.nonneg_iff.1 h'
    exact Floating.ofUnits_mono (by positivity)
  le_mul {x y} h h' := by
    have hx : (0 : ℚ) ≤ x.units := by exact_mod_cast Floating.nonneg_iff.1 h
    have hy : (2 : ℚ) ^ s ≤ y.units := by
      have := Floating.le_iff.1 h'
      rw [Floating.units_one] at this
      exact_mod_cast this
    conv_lhs => rw [← Floating.ofUnits_units x]
    refine Floating.ofUnits_mono ?_
    rw [le_div_iff₀ (by positivity)]
    exact mul_le_mul_of_nonneg_left hy hx
  mul_le {x y} h h' := by
    have hx : (0 : ℚ) ≤ x.units := by exact_mod_cast Floating.nonneg_iff.1 h
    have hy : (y.units : ℚ) ≤ 2 ^ s := by
      have := Floating.le_iff.1 h'
      rw [Floating.units_one] at this
      exact_mod_cast this
    conv_rhs => rw [← Floating.ofUnits_units x]
    refine Floating.ofUnits_mono ?_
    rw [div_le_iff₀ (by positivity)]
    exact mul_le_mul_of_nonneg_left hy hx
  intCast_mono {m n} h := by
    have : (m : ℚ) ≤ n := by exact_mod_cast h
    exact Floating.ofUnits_mono (mul_le_mul_of_nonneg_right this (by positivity))

/-- What a number of the format stands for. -/
def valueOf (x : Floating d s) : ℚ := x.units / 2 ^ s

/-- The error of an operation that computes `q` units. -/
theorem valueOf_ofUnits_error (q : ℚ) :
    |valueOf (Floating.ofUnits q : Floating d s) - q / 2 ^ s| ≤
      1 / 2 ^ (d + 1) * |q / 2 ^ s| + 1 / 2 ^ (s + 1) := by
  have herror := abs_nearest_sub_le (d := d) q
  have hpos : (0 : ℚ) < 2 ^ s := by positivity
  have hsplit : valueOf (Floating.ofUnits q : Floating d s) - q / 2 ^ s =
      ((nearest d q : ℚ) - q) / 2 ^ s := by
    rw [sub_div]
    rfl
  rw [hsplit, abs_div, abs_div, abs_of_pos hpos, div_le_iff₀ hpos]
  refine le_trans herror (le_of_eq ?_)
  field_simp
  ring

/-- Single precision. -/
instance : RoundedAmount Binary32 where
  value := valueOf
  roundoff := 1 / 2 ^ 24
  tiny := 1 / 2 ^ 150
  roundoff_nonneg := by norm_num
  roundoff_le := by norm_num
  tiny_nonneg := by norm_num
  value_le_iff {x y} := by
    rw [valueOf, valueOf, div_le_div_iff_of_pos_right (by positivity), Floating.le_iff]
    exact Int.cast_le
  value_zero := by simp [valueOf]
  value_percent {n} h := by
    have hn : |(n : ℤ)| ≤ 2 ^ 24 := by rw [Nat.abs_cast]; omega
    rw [valueOf, Floating.units_intCast hn, div_eq_iff (by positivity)]
    push_cast
    norm_num
  sub_le {x y} h := by
    have hy : (0 : ℚ) ≤ y.units := by exact_mod_cast Floating.nonneg_iff.1 h
    conv_rhs => rw [← Floating.ofUnits_units x]
    exact Floating.ofUnits_mono (by linarith)
  div_nonneg {x y} h h' := by
    have hx : (0 : ℚ) ≤ x.units := by exact_mod_cast Floating.nonneg_iff.1 h
    have hy : (0 : ℚ) ≤ y.units := by exact_mod_cast Floating.nonneg_iff.1 h'
    exact Floating.ofUnits_mono (by positivity)
  sub_error x y := by
    have herror := abs_nearest_sub_intCast (d := 23) (x.units - y.units)
    push_cast at herror
    have hpos : (0 : ℚ) < 2 ^ 149 := by positivity
    have hsplit : valueOf (x - y) - (valueOf x - valueOf y) =
        ((nearest 23 ((x.units : ℚ) - y.units) : ℚ) - (x.units - y.units)) / 2 ^ 149 := by
      rw [sub_div, sub_div]
      rfl
    have hvalue : valueOf (x - y) = (nearest 23 ((x.units : ℚ) - y.units) : ℚ) / 2 ^ 149 := rfl
    rw [hsplit, hvalue, abs_div, abs_div, abs_of_pos hpos, div_le_iff₀ hpos]
    refine le_trans herror (le_of_eq ?_)
    field_simp
  mul_error x y := by
    have herror := valueOf_ofUnits_error (d := 23) (s := 149) (x.units * y.units / 2 ^ 149)
    have heq : (x.units * y.units / 2 ^ 149 : ℚ) / 2 ^ 149 = valueOf x * valueOf y := by
      unfold valueOf
      field_simp
    rwa [heq] at herror
  div_error x y := by
    have herror := valueOf_ofUnits_error (d := 23) (s := 149) (x.units / y.units * 2 ^ 149)
    have heq : (x.units / y.units * 2 ^ 149 : ℚ) / 2 ^ 149 = valueOf x / valueOf y := by
      unfold valueOf
      field_simp
    rwa [heq] at herror

end Sunstrider.Combat
