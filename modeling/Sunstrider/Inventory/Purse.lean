import Mathlib

/-!
# The purse

`PLAYER_FIELD_COINAGE` is an unsigned 32-bit field, and `ModifyMoney` takes a
signed 32-bit amount. The two meet because a purse never holds more than the
greatest signed number: it is clamped to `MAX_MONEY_AMOUNT` when it is loaded, and
`ModifyMoney` refuses what would pass it. The structure carries that bound.
-/

namespace Sunstrider.Inventory

/-- The conversion of a value to `uint32`. -/
def uint32 (n : Int) : Nat := (n % 2 ^ 32).toNat

/-- The conversion of a `uint32` to `int32`. -/
def int32 (n : Nat) : Int := Int.bmod n (2 ^ 32)

theorem uint32_of_lt {n : Int} (hpos : 0 ≤ n) (hlt : n < 2 ^ 32) : uint32 n = n.toNat := by
  unfold uint32
  rw [Int.emod_eq_of_lt hpos hlt]

theorem int32_of_lt {n : Nat} (hlt : n < 2 ^ 31) : int32 n = n := by
  unfold int32
  rw [Int.bmod_eq_of_le] <;> omega

theorem int32_le (n : Nat) : int32 n ≤ n := by
  have hmod : (n : Int) % (2 ^ 32 : Nat) ≤ n := by omega
  unfold int32 Int.bmod
  dsimp only
  split <;> omega

def maxMoneyAmount : Nat := 2 ^ 31 - 1

structure Purse where
  money : Nat
  money_le : money ≤ maxMoneyAmount

namespace Purse

/-- `Player::HasEnoughMoney`. -/
def hasEnoughMoney (p : Purse) (amount : Int) : Bool :=
  if 0 < amount then amount.toNat ≤ p.money else true

/-- `Player::ModifyMoney`, with what it returns. -/
def modifyMoney (p : Purse) (amount : Int) : Purse × Bool :=
  if amount = 0 then (p, true)
  else if amount < 0 then
    if p.money > amount.natAbs then
      (⟨p.money - amount.natAbs, Nat.le_trans (Nat.sub_le _ _) p.money_le⟩, true)
    else (⟨0, Nat.zero_le _⟩, true)
  else if h : p.money < maxMoneyAmount - amount.toNat then
    (⟨p.money + amount.toNat, by omega⟩, true)
  else (p, false)

/-- What the purse can pay is taken off it. -/
theorem modifyMoney_pay {p : Purse} {price : Nat} (hle : price ≤ p.money) :
    (p.modifyMoney (-(int32 price))).1.money = p.money - price := by
  have hmax := p.money_le
  unfold maxMoneyAmount at hmax
  rw [int32_of_lt (by omega)]
  unfold modifyMoney
  split <;> rename_i hzero
  · show p.money = _
    omega
  · rw [if_pos (by omega)]
    split <;> rename_i hmore
    · show p.money - _ = _
      omega
    · show 0 = _
      omega

/-- Nobody gets more than he is given. -/
theorem modifyMoney_le (p : Purse) (amount : Nat) :
    (p.modifyMoney (int32 amount)).1.money ≤ p.money + amount := by
  have hamount := int32_le amount
  unfold modifyMoney
  split
  · exact Nat.le_add_right _ _
  · split
    · split
      · show p.money - _ ≤ _
        omega
      · exact Nat.zero_le _
    · split
      · show p.money + _ ≤ _
        omega
      · exact Nat.le_add_right _ _

end Purse

end Sunstrider.Inventory
