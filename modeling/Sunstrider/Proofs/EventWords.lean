import Sunstrider.Utilities.EventMap

/-!
# The words of the event map

A word is read as three numbers: its lower half, the byte above it and the byte above that.
`scheduleEvent` leaves at most one bit in each of the two bytes, so that it is a `Word`, and
the number of that bit is the group or the phase. The tests of the code look at bits; on a
`Word` they compare numbers.
-/

namespace Sunstrider.Utilities.EventMap

/-- The byte with the bit of a group or a phase, zero for none. -/
def bit (n : Nat) : Nat := if n = 0 then 0 else 2 ^ (n - 1)

/-- The group or the phase of a byte. -/
def bitIndex (byte : Nat) : Nat := if byte = 0 then 0 else byte.log2 + 1

def idOf (word : UInt32) : Nat := word.toNat % 2 ^ 16

def groupByte (word : UInt32) : Nat := word.toNat / 2 ^ 16 % 2 ^ 8

def phaseByte (word : UInt32) : Nat := word.toNat / 2 ^ 24

def groupOf (word : UInt32) : Nat := bitIndex (groupByte word)

def phaseOf (word : UInt32) : Nat := bitIndex (phaseByte word)

/-- A word that `scheduleEvent` may have made. -/
structure Word (word : UInt32) : Prop where
  group : ∃ g ≤ 8, groupByte word = bit g
  phase : ∃ p ≤ 8, phaseByte word = bit p

variable {word eventId group : UInt32} {phase : UInt8} {g p : Nat}

theorem bit_zero : bit 0 = 0 := rfl

theorem bitIndex_bit (h : g ≤ 8) : bitIndex (bit g) = g := by
  revert g
  decide

theorem bit_lt (h : g ≤ 8) : bit g < 2 ^ 8 := by
  revert g
  decide

theorem Word.groupByte_eq (h : Word word) : groupByte word = bit (groupOf word) := by
  obtain ⟨g, hg, heq⟩ := h.group
  rw [groupOf, heq, bitIndex_bit hg]

theorem Word.phaseByte_eq (h : Word word) : phaseByte word = bit (phaseOf word) := by
  obtain ⟨p, hp, heq⟩ := h.phase
  rw [phaseOf, heq, bitIndex_bit hp]

theorem Word.groupOf_le (h : Word word) : groupOf word ≤ 8 := by
  obtain ⟨g, hg, heq⟩ := h.group
  rw [groupOf, heq, bitIndex_bit hg]
  exact hg

theorem Word.phaseOf_le (h : Word word) : phaseOf word ≤ 8 := by
  obtain ⟨p, hp, heq⟩ := h.phase
  rw [phaseOf, heq, bitIndex_bit hp]
  exact hp

theorem word_zero : Word 0 := ⟨⟨0, by decide, rfl⟩, ⟨0, by decide, rfl⟩⟩

/-! ## Making words -/

theorem or_two_pow {n k : Nat} (h : n < 2 ^ k) : n ||| 2 ^ k = 2 ^ k + n := by
  have hor := Nat.two_pow_add_eq_or_of_lt h 1
  rw [Nat.mul_one] at hor
  rw [Nat.or_comm, hor]

theorem toNat_one_shiftLeft {n : UInt32} (h : n.toNat < 32) :
    ((1 : UInt32) <<< n).toNat = 2 ^ n.toNat := by
  rw [UInt32.toNat_shiftLeft, UInt32.toNat_one, Nat.mod_eq_of_lt h, Nat.one_shiftLeft]
  exact Nat.mod_eq_of_lt (Nat.pow_lt_pow_right (by decide) h)

theorem toNat_groupBit (h : group.toNat ≤ 8) (hne : group ≠ 0) :
    ((1 : UInt32) <<< (group + 15)).toNat = bit group.toNat * 2 ^ 16 := by
  have hpos : group.toNat ≠ 0 := fun hzero => hne (UInt32.toNat_inj.1 hzero)
  have hadd : (group + 15).toNat = group.toNat + 15 := by
    rw [UInt32.toNat_add]
    exact Nat.mod_eq_of_lt (Nat.lt_of_le_of_lt (Nat.add_le_add_right h 15) (by decide))
  rw [toNat_one_shiftLeft (by omega), hadd, bit, if_neg hpos, ← Nat.pow_add]
  congr 1
  omega

theorem toNat_phaseBit (h : phase.toNat ≤ 8) (hne : phase ≠ 0) :
    ((1 : UInt32) <<< (phase.toUInt32 + 23)).toNat = bit phase.toNat * 2 ^ 24 := by
  have hpos : phase.toNat ≠ 0 := fun hzero => hne (UInt8.toNat_inj.1 hzero)
  have hadd : (phase.toUInt32 + 23).toNat = phase.toNat + 23 := by
    rw [UInt32.toNat_add, UInt8.toNat_toUInt32]
    exact Nat.mod_eq_of_lt (Nat.lt_of_le_of_lt (Nat.add_le_add_right h 23) (by decide))
  rw [toNat_one_shiftLeft (by omega), hadd, bit, if_neg hpos, ← Nat.pow_add]
  congr 1
  omega

/-- A word is the sum of its parts. -/
theorem toNat_withBits (hid : eventId.toNat < 2 ^ 16) (hgroup : group.toNat ≤ 8)
    (hphase : phase.toNat ≤ 8) :
    (withBits eventId group phase).toNat =
      eventId.toNat + bit group.toNat * 2 ^ 16 + bit phase.toNat * 2 ^ 24 := by
  have hwithGroup : (if group ≠ 0 ∧ group ≤ 8 then eventId ||| (1 <<< (group + 15))
      else eventId).toNat = eventId.toNat + bit group.toNat * 2 ^ 16 := by
    by_cases hzero : group = 0
    · rw [if_neg (fun h => h.1 hzero), hzero, UInt32.toNat_zero, bit_zero, Nat.zero_mul,
        Nat.add_zero]
    · rw [if_pos ⟨hzero, UInt32.le_iff_toNat_le.2 hgroup⟩, UInt32.toNat_or,
        toNat_groupBit hgroup hzero]
      have hpos : group.toNat ≠ 0 := fun h => hzero (UInt32.toNat_inj.1 h)
      rw [bit, if_neg hpos, ← Nat.pow_add, or_two_pow, Nat.add_comm]
      exact Nat.lt_of_lt_of_le hid (Nat.pow_le_pow_right (by decide) (by omega))
  have hlow : eventId.toNat + bit group.toNat * 2 ^ 16 < 2 ^ 24 := by
    have := bit_lt hgroup
    omega
  unfold withBits
  dsimp only
  by_cases hzero : phase = 0
  · rw [if_neg (fun h => h.1 hzero), hwithGroup, hzero, UInt8.toNat_zero, bit_zero, Nat.zero_mul,
      Nat.add_zero]
  · rw [if_pos ⟨hzero, UInt8.le_iff_toNat_le.2 hphase⟩, UInt32.toNat_or, hwithGroup,
      toNat_phaseBit hphase hzero]
    have hpos : phase.toNat ≠ 0 := fun h => hzero (UInt8.toNat_inj.1 h)
    have hbit : bit phase.toNat * 2 ^ 24 = 2 ^ (phase.toNat - 1 + 24) := by
      rw [bit, if_neg hpos, ← Nat.pow_add]
    rw [hbit, or_two_pow, Nat.add_comm]
    exact Nat.lt_of_lt_of_le hlow (Nat.pow_le_pow_right (by decide) (by omega))

section

variable (hid : eventId.toNat < 2 ^ 16) (hgroup : group.toNat ≤ 8) (hphase : phase.toNat ≤ 8)

include hid hgroup hphase

theorem idOf_withBits : idOf (withBits eventId group phase) = eventId.toNat := by
  rw [idOf, toNat_withBits hid hgroup hphase]
  omega

theorem groupByte_withBits : groupByte (withBits eventId group phase) = bit group.toNat := by
  have := bit_lt hgroup
  rw [groupByte, toNat_withBits hid hgroup hphase]
  omega

theorem phaseByte_withBits : phaseByte (withBits eventId group phase) = bit phase.toNat := by
  have := bit_lt hgroup
  rw [phaseByte, toNat_withBits hid hgroup hphase]
  omega

theorem word_withBits : Word (withBits eventId group phase) :=
  ⟨⟨_, hgroup, groupByte_withBits hid hgroup hphase⟩,
    ⟨_, hphase, phaseByte_withBits hid hgroup hphase⟩⟩

theorem groupOf_withBits : groupOf (withBits eventId group phase) = group.toNat := by
  rw [groupOf, groupByte_withBits hid hgroup hphase, bitIndex_bit hgroup]

theorem phaseOf_withBits : phaseOf (withBits eventId group phase) = phase.toNat := by
  rw [phaseOf, phaseByte_withBits hid hgroup hphase, bitIndex_bit hphase]

end

/-! ## Reading words -/

theorem toNat_and_ffff : (word &&& 0x0000FFFF).toNat = idOf word := by
  rw [UInt32.toNat_and]
  exact Nat.and_two_pow_sub_one_eq_mod word.toNat 16

theorem hasId_iff : hasId eventId word = true ↔ eventId.toNat = idOf word := by
  rw [hasId, beq_iff_eq, ← UInt32.toNat_inj, toNat_and_ffff]

/-- No bit is set in two bytes unless they are the bytes of one number. -/
theorem bit_and_bit : ∀ g ≤ 8, ∀ m ≤ 8, (bit g &&& bit m ≠ 0 ↔ g = m ∧ m ≠ 0) := by
  decide

theorem inGroup_iff (hword : Word word) (h : group.toNat ≤ 8) (hne : group ≠ 0) :
    inGroup group word = true ↔ groupOf word = group.toNat := by
  have hpos : group.toNat ≠ 0 := fun hzero => hne (UInt32.toNat_inj.1 hzero)
  have hbyte : groupByte word &&& bit group.toNat ≠ 0 ↔ groupOf word = group.toNat := by
    rw [hword.groupByte_eq, bit_and_bit _ hword.groupOf_le _ h, and_iff_left hpos]
  rw [← hbyte, inGroup, bne_iff_ne, Ne, ← UInt32.toNat_inj, UInt32.toNat_and, UInt32.toNat_zero,
    toNat_groupBit h hne, bit, if_neg hpos, ← Nat.pow_add, Nat.and_comm, Nat.two_pow_and,
    Nat.and_comm, Nat.two_pow_and]
  have htest : word.toNat.testBit (group.toNat - 1 + 16) =
      (groupByte word).testBit (group.toNat - 1) := by
    rw [groupByte, Nat.testBit_mod_two_pow, Nat.testBit_div_two_pow, decide_eq_true (by omega),
      Bool.true_and]
  rw [htest]
  cases (groupByte word).testBit (group.toNat - 1) with
  | false => simp
  | true => simp

theorem toNat_and_high : (word &&& 0xFF000000).toNat = phaseByte word * 2 ^ 24 := by
  have hconst : (0xFF000000 : UInt32).toNat = (2 ^ 8 - 1) <<< 24 := rfl
  rw [UInt32.toNat_and, hconst, ← Nat.shiftLeft_eq]
  refine Nat.eq_of_testBit_eq fun i => ?_
  rw [Nat.testBit_and, Nat.testBit_shiftLeft, Nat.testBit_shiftLeft, Nat.testBit_two_pow_sub_one,
    phaseByte, Nat.testBit_div_two_pow]
  by_cases hlow : 24 ≤ i
  · rw [decide_eq_true hlow, Bool.true_and, Bool.true_and, Nat.sub_add_cancel hlow]
    by_cases hhigh : i < 32
    · rw [decide_eq_true (by omega), Bool.and_true]
    · have hpow : 2 ^ 32 ≤ 2 ^ i := Nat.pow_le_pow_right (by decide) (by omega)
      rw [Nat.testBit_lt_two_pow (Nat.lt_of_lt_of_le word.toNat_lt hpow), Bool.false_and]
  · rw [decide_eq_false hlow, Bool.false_and, Bool.false_and, Bool.and_false]

theorem toNat_shiftRight_phase : (word >>> 24).toNat = phaseByte word := by
  rw [UInt32.toNat_shiftRight]
  exact Nat.shiftRight_eq_div_pow _ _

theorem ofOtherPhase_iff (hword : Word word) (hp : p ≤ 8) (hphase : phase.toNat = bit p) :
    ofOtherPhase phase word = true ↔ p ≠ 0 ∧ phaseOf word ≠ 0 ∧ phaseOf word ≠ p := by
  have hzero {n : Nat} (hn : n ≤ 8) : bit n = 0 ↔ n = 0 := by
    revert n
    decide
  have hset : phase ≠ 0 ↔ p ≠ 0 := by
    rw [Ne, ← UInt8.toNat_inj, hphase, UInt8.toNat_zero, hzero hp]
  have hhigh : word &&& 0xFF000000 ≠ 0 ↔ phaseOf word ≠ 0 := by
    rw [Ne, ← UInt32.toNat_inj, toNat_and_high, hword.phaseByte_eq, UInt32.toNat_zero,
      Nat.mul_eq_zero, or_iff_left (by decide), hzero hword.phaseOf_le]
  have hapart : (word >>> 24) &&& phase.toUInt32 = 0 ↔ ¬ (phaseOf word = p ∧ p ≠ 0) := by
    rw [← bit_and_bit _ hword.phaseOf_le _ hp, not_not, ← UInt32.toNat_inj, UInt32.toNat_and,
      toNat_shiftRight_phase, UInt8.toNat_toUInt32, hphase, hword.phaseByte_eq, UInt32.toNat_zero]
  rw [ofOtherPhase, Bool.and_eq_true, Bool.and_eq_true, bne_iff_ne, bne_iff_ne, beq_iff_eq, hset,
    hhigh, hapart]
  constructor
  · rintro ⟨⟨hpne, hword⟩, hother⟩
    exact ⟨hpne, hword, fun h => hother ⟨h, hpne⟩⟩
  · rintro ⟨hpne, hword, hother⟩
    exact ⟨⟨hpne, hword⟩, fun h => hother h.1⟩

end Sunstrider.Utilities.EventMap
