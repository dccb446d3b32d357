import Sunstrider.Combat.RoundedAmount
import Sunstrider.Combat.World

/-!
# Threat redirections

Spells that send a unit's threat to somebody else are kept in a registry,
spell by spell and victim by victim, each with a percentage. What `AddThreat`
reads is the list `_redirectInfo`, which `UpdateRedirectInfo` makes anew after
every change: the registry's percentages in the order the two hash maps
yield them, each cut to what is left of a hundred. The running total is
asserted not to pass a hundred, and a failed assertion is `none` here.
-/

namespace Sunstrider.Combat

variable {U : Type} [DecidableEq U]

/-- `CalculatePct`: `base * float(pct) / 100.0f`. -/
def calculatePct {F : Type} [RoundedAmount F] (base : F) (pct : Nat) : F :=
  base * ((pct : Int) : F) / ((100 : Int) : F)

end Sunstrider.Combat
