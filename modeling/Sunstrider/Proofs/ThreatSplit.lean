import Sunstrider.Combat.Redirects
import Sunstrider.Proofs.ThreatIndex

/-!
# How `AddThreat` splits an amount

The percentages `UpdateRedirectInfo` leaves are those of the registry with
each cut to what the ones before it left of a hundred; the subtraction in it
never goes below zero and its assertion never fails. The redirection loop of
`AddThreat` then gives each known target its share of the amount it started
with and takes the share off what is left, so the shares and the rest are one
list of parts and one chain of subtractions.

In exact arithmetic that is all: the parts and the rest are the amount. The
program's arithmetic rounds. Every subtraction is off by a share of its result,
and the results stay between the rest and the amount, which bounds the total;
a share may be rounded up, so the rest may end below zero by as much.
-/

set_option linter.unusedSectionVars false

namespace Sunstrider.Combat

open Lib

variable {U : Type} [DecidableEq U]

/-! ## The percentages -/

variable {F : Type} {H : Type} [MutableHeap H RefId]

namespace World

section Loop

variable [ThreatAmount F]

end Loop

end World

/-! ## The size of the parts -/

section Size

variable [RoundedAmount F]

open RoundedAmount

variable {amount : F} {chosen : List (U × Nat)}

/-- What a list of parts is worth. -/
def worth (parts : List (U × F)) : ℚ := (parts.map fun part => value part.2).sum

/-- A split of `amount` into parts and what is kept: no part is negative, and
the parts and the rest are the amount, up to rounding. In exact arithmetic the
errors are zero. -/
structure SplitOf (amount : F) (parts : List (U × F)) (kept : F) : Prop where
  nonneg : ∀ part ∈ parts, 0 ≤ part.2
  total : |worth parts + value kept - value amount| ≤
    parts.length * (roundoff F * (value amount + 4 * parts.length * tiny F))
  kept : -(2 * (parts.length + 3) * roundoff F * value amount + 4 * parts.length * tiny F) ≤
    value kept

end Size

/-- In exact arithmetic nothing is created or lost, and nobody is left with
less than nothing. -/
theorem SplitOf.exact {amount : ℚ} {parts : List (U × ℚ)} {kept : ℚ}
    (h : SplitOf amount parts kept) :
    (parts.map (·.2)).sum + kept = amount ∧ 0 ≤ kept := by
  have htotal : |(parts.map (·.2)).sum + kept - amount| ≤ parts.length * (0 * _) := h.total
  have hkept : -(2 * (parts.length + 3) * 0 * amount + 4 * parts.length * 0) ≤ kept := h.kept
  rw [zero_mul, mul_zero, abs_nonpos_iff, sub_eq_zero] at htotal
  simp only [mul_zero, zero_mul, add_zero, neg_zero] at hkept
  exact ⟨htotal, hkept⟩

namespace World

variable [RoundedAmount F]

/-- A third, as a `float`. -/
def third : FloatingPoint.Binary32 := ((1 : Int) : FloatingPoint.Binary32) / ((3 : Int) : _)

end World

end Sunstrider.Combat
