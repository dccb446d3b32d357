import Mathlib

/-!
# Binary floating point

The finite numbers of a binary format, counted in units of its smallest
positive number. A format has `d + 1` significant digits: a number of size at
least `2 ^ d` units is a multiple of the power of two that leaves `d + 1`
digits, and below that every whole number of units is there. Every operation
is the exact one, rounded to the nearest number of the format and to the even
one of two equally near.

Two facts about rounding carry all uses. It is monotone and fixes the numbers
of the format, which gives the order properties of the operations. And it is
off by half a unit of the last digit at most, which is a share of the number
itself unless the number is below the digits' range, and then half a unit of
the format.

There is no largest number here: an operation whose result the format would
turn into an infinity is outside this description.
-/

namespace Sunstrider.Lib.FloatingPoint

variable {q r : ℚ} {e : ℕ}

/-! ## To whole numbers -/

/-- The nearest whole number, the even one of two. -/
def roundEven (q : ℚ) : ℤ :=
  if q - ⌊q⌋ < 1 / 2 then ⌊q⌋
  else if 1 / 2 < q - ⌊q⌋ then ⌊q⌋ + 1
  else if ⌊q⌋ % 2 = 0 then ⌊q⌋
  else ⌊q⌋ + 1

theorem abs_roundEven_sub (q : ℚ) : |(roundEven q : ℚ) - q| ≤ 1 / 2 := by
  have hlow := Int.floor_le q
  have hhigh := Int.lt_floor_add_one q
  rw [abs_le]
  unfold roundEven
  split
  · constructor <;> linarith
  · split
    · push_cast
      constructor <;> linarith
    · split
      · constructor <;> linarith
      · push_cast
        constructor <;> linarith

@[simp] theorem roundEven_intCast (n : ℤ) : roundEven (n : ℚ) = n := by
  simp [roundEven]

theorem roundEven_eq_or (q : ℚ) : roundEven q = ⌊q⌋ ∨ roundEven q = ⌊q⌋ + 1 := by
  unfold roundEven
  split
  · exact .inl rfl
  · split
    · exact .inr rfl
    · split
      · exact .inl rfl
      · exact .inr rfl

theorem roundEven_mono (h : q ≤ r) : roundEven q ≤ roundEven r := by
  have hfloor := Int.floor_mono h
  rcases lt_or_eq_of_le hfloor with hlt | heq
  · rcases roundEven_eq_or q with hq | hq <;> rcases roundEven_eq_or r with hr | hr <;> omega
  · -- the same floor: the fraction of `r` is at least that of `q`
    unfold roundEven
    rw [heq]
    split <;> split <;> (try split) <;> (try split) <;> first | omega | linarith

theorem le_roundEven {n : ℤ} (h : (n : ℚ) ≤ q) : n ≤ roundEven q := by
  have := roundEven_mono h
  rwa [roundEven_intCast] at this

theorem roundEven_le {n : ℤ} (h : q ≤ (n : ℚ)) : roundEven q ≤ n := by
  have := roundEven_mono h
  rwa [roundEven_intCast] at this

theorem roundEven_neg (q : ℚ) : roundEven (-q) = -roundEven q := by
  by_cases hint : ((⌊q⌋ : ℤ) : ℚ) = q
  · rw [← hint]
    have := roundEven_intCast (-⌊q⌋)
    push_cast at this
    rw [this, roundEven_intCast]
  · have hlow : (⌊q⌋ : ℚ) < q := lt_of_le_of_ne (Int.floor_le q) hint
    have hhigh := Int.lt_floor_add_one q
    have hneg : ⌊-q⌋ = -⌊q⌋ - 1 := by
      rw [Int.floor_eq_iff]
      push_cast
      constructor <;> linarith
    unfold roundEven
    rw [hneg]
    push_cast
    split_ifs <;> first | omega | linarith

/-! ## To the format -/

/-- The power of two a number's last digit stands for. -/
def exponent (d : ℕ) (q : ℚ) : ℕ := Nat.log2 ⌊|q|⌋₊ - d

/-- The nearest number of the format with `d + 1` digits. -/
def nearest (d : ℕ) (q : ℚ) : ℤ :=
  roundEven (q / 2 ^ exponent d q) * 2 ^ exponent d q

variable {d : ℕ}

theorem exponent_neg (q : ℚ) : exponent d (-q) = exponent d q := by
  rw [exponent, abs_neg, exponent]

theorem nearest_neg (q : ℚ) : nearest d (-q) = -nearest d q := by
  rw [nearest, exponent_neg, neg_div, roundEven_neg, nearest, neg_mul]

theorem exponent_mono (h : |q| ≤ |r|) : exponent d q ≤ exponent d r := by
  have hfloor : ⌊|q|⌋₊ ≤ ⌊|r|⌋₊ := Nat.floor_mono h
  have hlog : Nat.log2 ⌊|q|⌋₊ ≤ Nat.log2 ⌊|r|⌋₊ := by
    rw [Nat.log2_eq_log_two, Nat.log2_eq_log_two]
    exact Nat.log_mono_right hfloor
  unfold exponent
  omega

theorem abs_lt_of_exponent (q : ℚ) : |q| < 2 ^ (exponent d q + d + 1) := by
  have hnat : ⌊|q|⌋₊ < 2 ^ (exponent d q + d + 1) :=
    lt_of_lt_of_le Nat.lt_log2_self
      (Nat.pow_le_pow_right (by decide) (by unfold exponent; omega))
  have := (Nat.floor_lt (abs_nonneg q)).1 hnat
  exact_mod_cast this

/-- Above the range where every whole number is in the format, the digits are
all used. -/
theorem le_abs_of_exponent (h : exponent d q ≠ 0) : 2 ^ (exponent d q + d) ≤ |q| := by
  have hne : ⌊|q|⌋₊ ≠ 0 := by
    intro hzero
    simp [exponent, hzero] at h
  have hnat : 2 ^ (exponent d q + d) ≤ ⌊|q|⌋₊ := by
    refine le_trans (Nat.pow_le_pow_right (by decide) ?_) (Nat.log2_self_le hne)
    unfold exponent at h ⊢
    omega
  have := (Nat.le_floor_iff (abs_nonneg q)).1 hnat
  exact_mod_cast this

@[simp] theorem nearest_zero : nearest d 0 = 0 := by
  simp [nearest, roundEven]

theorem nearest_nonneg (h : 0 ≤ q) : 0 ≤ nearest d q := by
  have := le_roundEven (n := 0) (q := q / 2 ^ exponent d q) (by push_cast; positivity)
  exact mul_nonneg this (by positivity)

/-- The largest a number of that exponent can be rounded to. -/
theorem nearest_le_pow (h : 0 ≤ q) : nearest d q ≤ 2 ^ (exponent d q + d + 1) := by
  have hlt := abs_lt_of_exponent (d := d) q
  rw [abs_of_nonneg h] at hlt
  have hround : roundEven (q / 2 ^ exponent d q) ≤ 2 ^ (d + 1) := by
    refine roundEven_le ?_
    rw [div_le_iff₀ (by positivity)]
    push_cast
    rw [← pow_add]
    refine le_of_lt (lt_of_lt_of_eq hlt ?_)
    ring
  calc nearest d q ≤ 2 ^ (d + 1) * 2 ^ exponent d q :=
        mul_le_mul_of_nonneg_right hround (by positivity)
    _ = 2 ^ (exponent d q + d + 1) := by ring

/-- The least a number of that exponent can be rounded to. -/
theorem pow_le_nearest (h : 0 ≤ q) (hexp : exponent d q ≠ 0) :
    2 ^ (exponent d q + d) ≤ nearest d q := by
  have hle := le_abs_of_exponent hexp
  rw [abs_of_nonneg h] at hle
  have hround : 2 ^ d ≤ roundEven (q / 2 ^ exponent d q) := by
    refine le_roundEven ?_
    rw [le_div_iff₀ (by positivity)]
    push_cast
    rw [← pow_add]
    refine le_trans (le_of_eq ?_) hle
    ring
  calc (2 : ℤ) ^ (exponent d q + d) = 2 ^ d * 2 ^ exponent d q := by ring
    _ ≤ nearest d q := mul_le_mul_of_nonneg_right hround (by positivity)

theorem nearest_mono_of_nonneg (hq : 0 ≤ q) (h : q ≤ r) : nearest d q ≤ nearest d r := by
  have hr : 0 ≤ r := le_trans hq h
  have hexp : exponent d q ≤ exponent d r :=
    exponent_mono (by rwa [abs_of_nonneg hq, abs_of_nonneg hr])
  rcases lt_or_eq_of_le hexp with hlt | heq
  · -- a power of two lies between the two results
    calc nearest d q ≤ 2 ^ (exponent d q + d + 1) := nearest_le_pow hq
      _ ≤ 2 ^ (exponent d r + d) := pow_le_pow_right₀ (by decide) (by omega)
      _ ≤ nearest d r := pow_le_nearest hr (by omega)
  · unfold nearest
    rw [heq]
    refine mul_le_mul_of_nonneg_right (roundEven_mono ?_) (by positivity)
    exact div_le_div_of_nonneg_right h (by positivity)

theorem nearest_mono (h : q ≤ r) : nearest d q ≤ nearest d r := by
  rcases le_total 0 q with hq | hq
  · exact nearest_mono_of_nonneg hq h
  · have hnegq : nearest d q ≤ 0 := by
      have := nearest_nonneg (d := d) (neg_nonneg.2 hq)
      rw [nearest_neg] at this
      omega
    rcases le_total 0 r with hr | hr
    · exact le_trans hnegq (nearest_nonneg hr)
    · have := nearest_mono_of_nonneg (d := d) (neg_nonneg.2 hr) (neg_le_neg h)
      rw [nearest_neg, nearest_neg] at this
      omega

/-! ## The rounding error -/

theorem abs_nearest_sub (q : ℚ) :
    |(nearest d q : ℚ) - q| ≤ 2 ^ exponent d q / 2 := by
  have hpos : (0 : ℚ) < 2 ^ exponent d q := by positivity
  have herror := abs_roundEven_sub (q / 2 ^ exponent d q)
  have heq : (nearest d q : ℚ) - q =
      ((roundEven (q / 2 ^ exponent d q) : ℚ) - q / 2 ^ exponent d q) * 2 ^ exponent d q := by
    unfold nearest
    push_cast
    field_simp
  rw [heq, abs_mul, abs_of_pos hpos]
  calc _ ≤ 1 / 2 * 2 ^ exponent d q := mul_le_mul_of_nonneg_right herror (le_of_lt hpos)
    _ = 2 ^ exponent d q / 2 := by ring

/-- Half a unit of the last digit is a share of the number, or half a unit of
the format. -/
theorem abs_nearest_sub_le (q : ℚ) :
    |(nearest d q : ℚ) - q| ≤ |q| / 2 ^ (d + 1) + 1 / 2 := by
  have herror := abs_nearest_sub (d := d) q
  by_cases hexp : exponent d q = 0
  · rw [hexp, pow_zero] at herror
    have : 0 ≤ |q| / 2 ^ (d + 1) := by positivity
    linarith
  · have hle := le_abs_of_exponent hexp
    have : (2 : ℚ) ^ exponent d q / 2 ≤ |q| / 2 ^ (d + 1) := by
      rw [div_le_div_iff₀ (by positivity) (by positivity)]
      calc (2 : ℚ) ^ exponent d q * 2 ^ (d + 1) = 2 ^ (exponent d q + d) * 2 := by ring
        _ ≤ |q| * 2 := mul_le_mul_of_nonneg_right hle (by positivity)
    linarith

theorem abs_nearest (q : ℚ) : |nearest d q| = nearest d |q| := by
  rcases le_total 0 q with hq | hq
  · rw [abs_of_nonneg hq, abs_of_nonneg (nearest_nonneg hq)]
  · have hneg := nearest_nonneg (d := d) (neg_nonneg.2 hq)
    rw [abs_of_nonpos hq, nearest_neg]
    rw [nearest_neg] at hneg
    exact abs_of_nonpos (by omega)

/-- For a whole number the error is a share of the result alone. -/
theorem abs_nearest_sub_intCast (n : ℤ) :
    |(nearest d (n : ℚ) : ℚ) - n| ≤ |(nearest d (n : ℚ) : ℚ)| / 2 ^ (d + 1) := by
  by_cases hexp : exponent d (n : ℚ) = 0
  · have : nearest d (n : ℚ) = n := by simp [nearest, hexp]
    rw [this]
    simp only [sub_self, abs_zero]
    positivity
  · have herror := abs_nearest_sub (d := d) (n : ℚ)
    have hexp' : exponent d |(n : ℚ)| = exponent d (n : ℚ) := by rw [exponent, abs_abs, exponent]
    have hle := pow_le_nearest (d := d) (abs_nonneg (n : ℚ)) (by rwa [hexp'])
    rw [hexp', ← abs_nearest] at hle
    have hle' : (2 : ℚ) ^ (exponent d (n : ℚ) + d) ≤ |(nearest d (n : ℚ) : ℚ)| := by
      exact_mod_cast hle
    refine le_trans herror ?_
    rw [div_le_div_iff₀ (by positivity) (by positivity)]
    calc (2 : ℚ) ^ exponent d (n : ℚ) * 2 ^ (d + 1) = 2 ^ (exponent d (n : ℚ) + d) * 2 := by ring
      _ ≤ _ := mul_le_mul_of_nonneg_right hle' (by positivity)

/-! ## The numbers of the format -/

theorem exponent_le (h : |q| < 2 ^ (e + d + 1)) : exponent d q ≤ e := by
  by_cases hzero : ⌊|q|⌋₊ = 0
  · simp [exponent, hzero]
  · have hnat : ⌊|q|⌋₊ < 2 ^ (e + d + 1) := by
      rw [Nat.floor_lt (abs_nonneg q)]
      exact_mod_cast h
    have := (Nat.log2_lt hzero).2 hnat
    unfold exponent
    omega

theorem nearest_of_lt {m : ℤ} (h : |m| < 2 ^ (d + 1)) :
    nearest d ((m * 2 ^ e : ℤ) : ℚ) = m * 2 ^ e := by
  have hcast : |((m * 2 ^ e : ℤ) : ℚ)| < 2 ^ (e + d + 1) := by
    push_cast
    rw [abs_mul, abs_of_pos (show (0 : ℚ) < 2 ^ e by positivity)]
    have hm : |(m : ℚ)| < 2 ^ (d + 1) := by exact_mod_cast h
    calc |(m : ℚ)| * 2 ^ e < 2 ^ (d + 1) * 2 ^ e := mul_lt_mul_of_pos_right hm (by positivity)
      _ = 2 ^ (e + d + 1) := by ring
  obtain ⟨k, hk⟩ := Nat.exists_eq_add_of_le (exponent_le hcast)
  unfold nearest
  generalize exponent d ((m * 2 ^ e : ℤ) : ℚ) = x at hk
  -- the last digit's unit divides the number
  have hdiv : ((m * 2 ^ e : ℤ) : ℚ) / 2 ^ x = ((m * 2 ^ k : ℤ) : ℚ) := by
    rw [hk]
    push_cast
    field_simp
    ring
  rw [hdiv, roundEven_intCast, hk]
  ring

theorem nearest_of_le {m : ℤ} (h : |m| ≤ 2 ^ (d + 1)) :
    nearest d ((m * 2 ^ e : ℤ) : ℚ) = m * 2 ^ e := by
  rcases lt_or_eq_of_le h with hlt | heq
  · exact nearest_of_lt hlt
  · -- one digit more is a power of two, which has one digit
    have hhalf : ∀ s : ℤ, |s| = 1 → m = s * 2 ^ (d + 1) →
        nearest d ((m * 2 ^ e : ℤ) : ℚ) = m * 2 ^ e := by
      intro s hs hm
      have hrw : m * 2 ^ e = s * 2 ^ d * 2 ^ (e + 1) := by rw [hm]; ring
      rw [hrw]
      refine nearest_of_lt ?_
      rw [abs_mul, hs, one_mul, abs_of_pos (by positivity)]
      exact pow_lt_pow_right₀ (by decide) (by omega)
    rcases abs_cases m with ⟨hm, _⟩ | ⟨hm, _⟩
    · exact hhalf 1 (by decide) (by omega)
    · exact hhalf (-1) (by decide) (by omega)

theorem nearest_nearest (q : ℚ) : nearest d ((nearest d q : ℤ) : ℚ) = nearest d q := by
  refine nearest_of_le ?_
  have hlt := abs_lt_of_exponent (d := d) q
  rw [abs_le]
  have hbound : |q / 2 ^ exponent d q| ≤ 2 ^ (d + 1) := by
    rw [abs_div, abs_of_pos (show (0 : ℚ) < 2 ^ exponent d q by positivity),
      div_le_iff₀ (by positivity)]
    refine le_of_lt (lt_of_lt_of_eq hlt ?_)
    ring
  rw [abs_le] at hbound
  constructor
  · exact le_roundEven (by push_cast; exact hbound.1)
  · exact roundEven_le (by push_cast; exact hbound.2)

/-- A number of the format with `d + 1` digits and unit `2 ^ -s`. -/
structure Floating (d s : ℕ) where
  units : ℤ
  rounded : nearest d (units : ℚ) = units
deriving DecidableEq

/-- Single precision. -/
abbrev Binary32 := Floating 23 149

namespace Floating

variable {s : ℕ}

theorem units_injective : Function.Injective (Floating.units (d := d) (s := s)) := by
  intro x y h
  cases x
  cases y
  cases h
  rfl

instance : LinearOrder (Floating d s) := LinearOrder.lift' units units_injective

theorem le_iff {x y : Floating d s} : x ≤ y ↔ x.units ≤ y.units := Iff.rfl

/-- The number a count of units is rounded to. -/
def ofUnits (q : ℚ) : Floating d s := ⟨nearest d q, nearest_nearest q⟩

theorem ofUnits_mono {q r : ℚ} (h : q ≤ r) : (ofUnits q : Floating d s) ≤ ofUnits r :=
  nearest_mono h

theorem ofUnits_units (x : Floating d s) : ofUnits (x.units : ℚ) = x :=
  units_injective x.rounded

instance : Zero (Floating d s) := ⟨ofUnits 0⟩
instance : One (Floating d s) := ⟨ofUnits (2 ^ s)⟩
instance : IntCast (Floating d s) := ⟨fun n => ofUnits (n * 2 ^ s)⟩
instance : Add (Floating d s) := ⟨fun x y => ofUnits (x.units + y.units)⟩
instance : Sub (Floating d s) := ⟨fun x y => ofUnits (x.units - y.units)⟩
instance : Mul (Floating d s) := ⟨fun x y => ofUnits (x.units * y.units / 2 ^ s)⟩
instance : Div (Floating d s) := ⟨fun x y => ofUnits (x.units / y.units * 2 ^ s)⟩

theorem mul_def (x y : Floating d s) : x * y = ofUnits (x.units * y.units / 2 ^ s) := rfl

@[simp] theorem units_zero : (0 : Floating d s).units = 0 := nearest_zero

theorem nonneg_iff {x : Floating d s} : 0 ≤ x ↔ 0 ≤ x.units := by
  rw [le_iff, units_zero]

/-- Powers of two from the unit on are in the format. -/
theorem units_one : (1 : Floating d s).units = 2 ^ s := by
  have := nearest_of_lt (d := d) (m := 1) (e := s)
    (by rw [abs_one]; exact one_lt_pow₀ (by decide) (by omega))
  rw [one_mul] at this
  push_cast at this
  exact this

/-- So are the whole numbers the digits reach. -/
theorem units_intCast {n : ℤ} (h : |n| ≤ 2 ^ (d + 1)) :
    (n : Floating d s).units = n * 2 ^ s := by
  have := nearest_of_le (e := s) h
  push_cast at this
  exact this

end Floating

end Sunstrider.Lib.FloatingPoint
