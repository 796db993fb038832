import Mathlib.Tactic.Ring
import Missive.Numeric.Binary64

/-!
# Integers as floating-point numbers

The floating-point number nearest to an integer, a tie going to the even significand.  The
conversion keeps the order of integers but not the strict order: two integers can become the same
number.  Integers below `2 ^ 53` are told apart, from one another and from all larger ones.
-/

namespace Missive

namespace Binary64

/-! ## Rounded quotients -/

section Quotients

variable {numerator other denominator : Nat}

theorem div_le_divNearestEven : numerator / denominator ≤ divNearestEven numerator denominator := by
  simp only [divNearestEven]
  split
  · exact le_refl _
  · split <;> omega

theorem divNearestEven_le :
    divNearestEven numerator denominator ≤ numerator / denominator + 1 := by
  have parity := Nat.mod_lt (numerator / denominator) (show 0 < 2 by decide)
  simp only [divNearestEven]
  split
  · omega
  · split <;> omega

theorem divNearestEven_mono (ordered : numerator ≤ other) :
    divNearestEven numerator denominator ≤ divNearestEven other denominator := by
  rcases (Nat.div_le_div_right (c := denominator) ordered).lt_or_eq with less | same
  · exact divNearestEven_le.trans (Nat.succ_le_of_lt less |>.trans div_le_divNearestEven)
  · -- in the same interval the remainders are ordered as the numerators are
    have split := Nat.div_add_mod numerator denominator
    have splitOther := Nat.div_add_mod other denominator
    rw [same] at split
    have remainders : numerator % denominator ≤ other % denominator := by omega
    have parity := Nat.mod_lt (other / denominator) (show 0 < 2 by decide)
    simp only [divNearestEven, same]
    repeat' split
    all_goals omega

end Quotients

/-! ## Words -/

/-- The significand of the number nearest to a positive integer, before a carry. -/
def nearestSignificand (n : Nat) : Nat :=
  if n.log2 ≤ 52 then n * twoTo (52 - n.log2) else divNearestEven n (twoTo (n.log2 - 52))

theorem wordOfNat_of_pos {n : Nat} (positive : 0 < n) :
    wordOfNat n = (1022 + n.log2) * 2 ^ 52 + nearestSignificand n :=
  if_neg positive.ne'

section Significands

variable {n m : Nat}

theorem nearestSignificand_of_short (short : n.log2 ≤ 52) :
    nearestSignificand n = n * 2 ^ (52 - n.log2) :=
  if_pos short

theorem nearestSignificand_of_long (long : ¬ n.log2 ≤ 52) :
    nearestSignificand n = divNearestEven n (2 ^ (n.log2 - 52)) :=
  if_neg long

theorem le_nearestSignificand (positive : 0 < n) : 2 ^ 52 ≤ nearestSignificand n := by
  have leading : 2 ^ n.log2 ≤ n := Nat.log2_self_le positive.ne'
  by_cases short : n.log2 ≤ 52
  · rw [nearestSignificand_of_short short]
    calc 2 ^ 52 = 2 ^ n.log2 * 2 ^ (52 - n.log2) := by
          rw [← pow_add, show n.log2 + (52 - n.log2) = 52 by omega]
      _ ≤ n * 2 ^ (52 - n.log2) := Nat.mul_le_mul_right _ leading
  · rw [nearestSignificand_of_long short]
    refine le_trans ?_ div_le_divNearestEven
    rw [Nat.le_div_iff_mul_le (Nat.two_pow_pos _), ← pow_add,
      show 52 + (n.log2 - 52) = n.log2 by omega]
    exact leading

theorem nearestSignificand_lt (short : n.log2 ≤ 52) : nearestSignificand n < 2 ^ 53 := by
  rw [nearestSignificand_of_short short]
  calc n * 2 ^ (52 - n.log2) < 2 ^ (n.log2 + 1) * 2 ^ (52 - n.log2) :=
        Nat.mul_lt_mul_of_pos_right Nat.lt_log2_self (Nat.two_pow_pos _)
    _ = 2 ^ 53 := by rw [← pow_add, show n.log2 + 1 + (52 - n.log2) = 53 by omega]

/-- Rounding up can reach the next power of two, which carries into the exponent. -/
theorem nearestSignificand_le (n : Nat) : nearestSignificand n ≤ 2 ^ 53 := by
  by_cases short : n.log2 ≤ 52
  · exact (nearestSignificand_lt short).le
  · rw [nearestSignificand_of_long short]
    have quotient : n / 2 ^ (n.log2 - 52) < 2 ^ 53 := by
      apply Nat.div_lt_of_lt_mul
      rw [← pow_add, show n.log2 - 52 + 53 = n.log2 + 1 by omega]
      exact Nat.lt_log2_self
    exact divNearestEven_le.trans quotient

theorem log2_mono (positive : 0 < n) (ordered : n ≤ m) : n.log2 ≤ m.log2 := by
  rw [Nat.le_log2 (by omega)]
  exact (Nat.log2_self_le positive.ne').trans ordered

theorem wordOfNat_mono (ordered : n ≤ m) : wordOfNat n ≤ wordOfNat m := by
  rcases Nat.eq_zero_or_pos n with rfl | positive
  · exact Nat.zero_le _
  rw [wordOfNat_of_pos positive, wordOfNat_of_pos (positive.trans_le ordered)]
  rcases (log2_mono positive ordered).lt_or_eq with less | same
  · -- a carry only reaches the least significand of the next exponent
    calc (1022 + n.log2) * 2 ^ 52 + nearestSignificand n
        ≤ (1022 + n.log2) * 2 ^ 52 + 2 ^ 53 := Nat.add_le_add_left (nearestSignificand_le n) _
      _ = (1023 + n.log2) * 2 ^ 52 + 2 ^ 52 := by ring
      _ ≤ (1022 + m.log2) * 2 ^ 52 + nearestSignificand m :=
        Nat.add_le_add (Nat.mul_le_mul_right _ (by omega))
          (le_nearestSignificand (positive.trans_le ordered))
  · have significands : nearestSignificand n ≤ nearestSignificand m := by
      unfold nearestSignificand
      rw [same]
      split
      · exact Nat.mul_le_mul_right _ ordered
      · exact divNearestEven_mono ordered
    rw [same]
    omega

/-- An integer below `2 ^ 53` has a word of its own. -/
theorem wordOfNat_lt (less : n < m) (small : n < 2 ^ 53) : wordOfNat n < wordOfNat m := by
  rcases Nat.eq_zero_or_pos n with rfl | positive
  · rw [wordOfNat_of_pos less]
    have := le_nearestSignificand less
    exact lt_of_lt_of_le (by decide) (this.trans (Nat.le_add_left _ _))
  have short : n.log2 ≤ 52 := by
    rw [← Nat.lt_succ_iff, Nat.log2_lt positive.ne']
    exact small
  rw [wordOfNat_of_pos positive, wordOfNat_of_pos (positive.trans less)]
  rcases (log2_mono positive less.le).lt_or_eq with higher | same
  · calc (1022 + n.log2) * 2 ^ 52 + nearestSignificand n
        < (1022 + n.log2) * 2 ^ 52 + 2 ^ 53 := Nat.add_lt_add_left (nearestSignificand_lt short) _
      _ = (1023 + n.log2) * 2 ^ 52 + 2 ^ 52 := by ring
      _ ≤ (1022 + m.log2) * 2 ^ 52 + nearestSignificand m :=
        Nat.add_le_add (Nat.mul_le_mul_right _ (by omega))
          (le_nearestSignificand (positive.trans less))
  · have significands : nearestSignificand n < nearestSignificand m := by
      rw [nearestSignificand_of_short short, nearestSignificand_of_short (same ▸ short), same]
      exact Nat.mul_lt_mul_of_pos_right less (Nat.two_pow_pos _)
    rw [same]
    omega

theorem wordOfNat_pos (positive : 0 < n) : 0 < wordOfNat n :=
  wordOfNat_lt positive (by decide)

/-- The word of a number that fits in 63 bits is the one of a finite number. -/
theorem wordOfNat_finite (low : n ≤ 2 ^ 63) : wordOfNat n < 0x7FF0000000000000 :=
  (wordOfNat_mono low).trans_lt (by decide)

end Significands

/-! ## Fields -/

theorem and_mask_eq_mod (word : Nat) :
    word &&& (0x7FFFFFFFFFFFFFFF : UInt64).toNat = word % 2 ^ 63 :=
  Nat.and_two_pow_sub_one_eq_mod word 63

section Fields

variable {n m : Int}

theorem magnitudeBits_ofInt (low : n.natAbs ≤ 2 ^ 63) :
    (ofInt n).magnitudeBits.toNat = wordOfNat n.natAbs := by
  have high : wordOfNat n.natAbs < 2 ^ 63 := (wordOfNat_finite low).trans (by decide)
  have isWord : (UInt64.ofNat (wordOfNat n.natAbs)).toNat = wordOfNat n.natAbs :=
    UInt64.toNat_ofNat_of_lt' (high.trans (by decide))
  unfold ofInt magnitudeBits
  split
  · -- the sign bit is the one that the mask leaves out
    simp only [neg]
    rw [UInt64.toNat_and, UInt64.toNat_xor, isWord, and_mask_eq_mod, Nat.xor_mod_two_pow,
      Nat.mod_eq_of_lt high]
    exact Nat.xor_zero _
  · rw [UInt64.toNat_and, isWord, and_mask_eq_mod, Nat.mod_eq_of_lt high]

theorem isNegative_ofInt (low : n.natAbs ≤ 2 ^ 63) : (ofInt n).isNegative = decide (n < 0) := by
  have high : wordOfNat n.natAbs < 2 ^ 63 := (wordOfNat_finite low).trans (by decide)
  have isWord : (UInt64.ofNat (wordOfNat n.natAbs)).toNat = wordOfNat n.natAbs :=
    UInt64.toNat_ofNat_of_lt' (high.trans (by decide))
  have unsigned : wordOfNat n.natAbs >>> 63 = 0 := by
    rw [Nat.shiftRight_eq_div_pow, Nat.div_eq_of_lt high]
  have shifted : ((ofInt n).bits >>> 63).toNat = if n < 0 then 1 else 0 := by
    rw [UInt64.toNat_shiftRight]
    change (ofInt n).bits.toNat >>> 63 = _
    unfold ofInt
    split
    · simp only [neg]
      rw [UInt64.toNat_xor, isWord, Nat.shiftRight_xor_distrib, unsigned]
      rfl
    · rw [isWord, unsigned]
  unfold isNegative
  rw [Bool.eq_iff_iff, beq_iff_eq, ← UInt64.toNat_inj, shifted, decide_eq_true_iff]
  split <;> simp [*]

/-- No integer but zero becomes a floating-point zero. -/
theorem isZero_ofInt (nonzero : n ≠ 0) (low : n.natAbs ≤ 2 ^ 63) : (ofInt n).isZero = false := by
  have positive := wordOfNat_pos (n := n.natAbs) (by omega)
  have magnitude := magnitudeBits_ofInt low
  unfold isZero
  rw [beq_eq_false_iff_ne]
  intro isZero
  rw [isZero, UInt64.toNat_zero] at magnitude
  omega

theorem isNaN_ofInt (low : n.natAbs ≤ 2 ^ 63) : (ofInt n).isNaN = false := by
  unfold isNaN
  rw [decide_eq_false_iff_not, gt_iff_lt, UInt64.lt_iff_toNat_lt, magnitudeBits_ofInt low, not_lt]
  exact (wordOfNat_finite low).le

end Fields

/-! ## Order -/

section Order

variable {n m : Int}

theorem orderKey_ofInt (low : n.natAbs ≤ 2 ^ 63) :
    (ofInt n).orderKey =
      if n < 0 then -(wordOfNat n.natAbs : Int) else wordOfNat n.natAbs := by
  unfold orderKey
  rw [isNegative_ofInt low, magnitudeBits_ofInt low]
  simp only [decide_eq_true_eq]

theorem orderKey_ofInt_mono (lowN : n.natAbs ≤ 2 ^ 63) (lowM : m.natAbs ≤ 2 ^ 63)
    (ordered : n ≤ m) : (ofInt n).orderKey ≤ (ofInt m).orderKey := by
  rw [orderKey_ofInt lowN, orderKey_ofInt lowM]
  by_cases negativeM : m < 0
  · have words : wordOfNat m.natAbs ≤ wordOfNat n.natAbs := wordOfNat_mono (by omega)
    rw [if_pos (show n < 0 by omega), if_pos negativeM]
    omega
  · rw [if_neg negativeM]
    by_cases negativeN : n < 0
    · rw [if_pos negativeN]
      omega
    · have words : wordOfNat n.natAbs ≤ wordOfNat m.natAbs := wordOfNat_mono (by omega)
      rw [if_neg negativeN]
      omega

theorem orderKey_ofInt_lt (lowN : n.natAbs ≤ 2 ^ 63) (lowM : m.natAbs ≤ 2 ^ 63) (less : n < m)
    (small : n.natAbs < 2 ^ 53 ∨ m.natAbs < 2 ^ 53) :
    (ofInt n).orderKey < (ofInt m).orderKey := by
  rw [orderKey_ofInt lowN, orderKey_ofInt lowM]
  by_cases negativeM : m < 0
  · have words : wordOfNat m.natAbs < wordOfNat n.natAbs := wordOfNat_lt (by omega) (by omega)
    rw [if_pos (show n < 0 by omega), if_pos negativeM]
    omega
  · rw [if_neg negativeM]
    by_cases negativeN : n < 0
    · have positive : 0 < wordOfNat n.natAbs := wordOfNat_pos (by omega)
      rw [if_pos negativeN]
      omega
    · have words : wordOfNat n.natAbs < wordOfNat m.natAbs := wordOfNat_lt (by omega) (by omega)
      rw [if_neg negativeN]
      omega

/-- Integers that compare as equal have become the same number. -/
theorem ofInt_eq_of_orderKey_eq (lowN : n.natAbs ≤ 2 ^ 63) (lowM : m.natAbs ≤ 2 ^ 63)
    (same : (ofInt n).orderKey = (ofInt m).orderKey) : ofInt n = ofInt m := by
  rw [orderKey_ofInt lowN, orderKey_ofInt lowM] at same
  have positive : ∀ k : Int, k < 0 → 0 < wordOfNat k.natAbs := fun k negative =>
    wordOfNat_pos (by omega)
  have words : wordOfNat n.natAbs = wordOfNat m.natAbs ∧ (n < 0 ↔ m < 0) := by
    have positiveN := positive n
    have positiveM := positive m
    split at same <;> split at same <;> omega
  unfold ofInt
  simp only [words]

theorem le_iff_orderKey {x y : Binary64} (isNumber : x.isNaN = false)
    (isOther : y.isNaN = false) : x.le y = true ↔ x.orderKey ≤ y.orderKey := by
  unfold le lt numericEq compare?
  rw [isNumber, isOther]
  simp [le_iff_lt_or_eq, compare_lt_iff_lt]

/-- Integers are compared as floating-point numbers are, except that those that become the same
number are equal. -/
theorem le_ofInt_iff (lowN : n.natAbs ≤ 2 ^ 63) (lowM : m.natAbs ≤ 2 ^ 63) :
    (ofInt n).le (ofInt m) = true ↔ n ≤ m ∨ ofInt n = ofInt m := by
  rw [le_iff_orderKey (isNaN_ofInt lowN) (isNaN_ofInt lowM)]
  constructor
  · intro keys
    refine or_iff_not_imp_left.mpr fun above => ?_
    have converse := orderKey_ofInt_mono lowM lowN (not_le.mp above).le
    exact ofInt_eq_of_orderKey_eq lowN lowM (le_antisymm keys converse)
  · rintro (ordered | same)
    · exact orderKey_ofInt_mono lowN lowM ordered
    · rw [same]

/-- An integer of size below `2 ^ 53` shares its number with no other integer. -/
theorem eq_of_ofInt_eq (lowN : n.natAbs ≤ 2 ^ 63) (lowM : m.natAbs ≤ 2 ^ 63)
    (small : n.natAbs < 2 ^ 53 ∨ m.natAbs < 2 ^ 53) (same : ofInt n = ofInt m) : n = m := by
  rcases lt_trichotomy n m with less | equal | more
  · exact absurd (congrArg orderKey same) (orderKey_ofInt_lt lowN lowM less small).ne
  · exact equal
  · exact absurd (congrArg orderKey same) (orderKey_ofInt_lt lowM lowN more small.symm).ne'

end Order

end Binary64

end Missive
