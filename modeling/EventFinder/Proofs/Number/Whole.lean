import EventFinder.Proofs.Number.Rounding
import Mathlib.Tactic.NormNum

/-!
# Whole numbers among binary ones

A whole number of 64 bits is compared with binary numbers after it is rounded to one. Numbers of few digits are not
changed by that (`roundedValue_eq`). The total order then says what the order of the values says, unless minus zero
is compared with zero (`roundedKey_lt_iff`), and the rounded number is on the side of a binary number on which the
whole number is, unless it is rounded to that number (`roundedValue_lt_value_iff`).
-/

set_option autoImplicit false

namespace EventFinder

/-- A whole number as it is. -/
def wholeValue (n : Int64) : ℚ := n.toInt

/-- A whole number rounded to a binary one. -/
def roundedValue (n : Int64) : ℚ := (Binary.ofInt n.toInt : Binary64).value

/-- The integer by which a whole number is compared when it is rounded. -/
def roundedKey (n : Int64) : Int := (Binary.ofInt n.toInt : Binary64).totalKey

variable {n : Int64} {x : Binary64}

/-! ## Rounding -/

/-- Whole numbers of at most 53 binary digits are not changed. -/
theorem roundedValue_eq (hn : n.toInt.natAbs ≤ 2 ^ 53) : roundedValue n = wholeValue n := by
  apply Binary.value_ofInt
  · exact hn.trans_eq (twoPow_succ 52)
  · decide +kernel

theorem isRounding_roundedValue (n : Int64) :
    Binary.IsRounding (wholeValue n) (Binary.ofInt n.toInt : Binary64) := Binary.isRounding_ofInt n.toInt

/-- Rounding does not pass a whole number of few digits, as that is a binary number. -/
theorem roundedValue_le {m : Int64} (hm : m.toInt.natAbs ≤ 2 ^ 53) (h : n.toInt ≤ m.toInt) :
    roundedValue n ≤ wholeValue m := by
  rw [← roundedValue_eq hm]
  apply (isRounding_roundedValue n).le_of_le _ (isRounding_roundedValue m).isNumber
  change wholeValue n ≤ roundedValue m
  rw [roundedValue_eq hm]
  exact Int.cast_le.2 h

theorem le_roundedValue {m : Int64} (hm : m.toInt.natAbs ≤ 2 ^ 53) (h : m.toInt ≤ n.toInt) :
    wholeValue m ≤ roundedValue n := by
  rw [← roundedValue_eq hm]
  apply (isRounding_roundedValue n).le_of_ge _ (isRounding_roundedValue m).isNumber
  change roundedValue m ≤ wholeValue n
  rw [roundedValue_eq hm]
  exact Int.cast_le.2 h

theorem roundedValue_le_neg_one (h : n.toInt < 0) : roundedValue n ≤ -1 :=
  (roundedValue_le (m := -1) (by decide) (Int.le_sub_one_of_lt h)).trans_eq (by simp [wholeValue])

theorem one_le_roundedValue (h : 0 < n.toInt) : 1 ≤ roundedValue n :=
  (by simp [wholeValue] : wholeValue 1 = 1).symm.trans_le (le_roundedValue (m := 1) (by decide) h)

/-- The sign of zero is not set. -/
theorem isPlain_ofInt (n : Int64) : (Binary.ofInt n.toInt : Binary64).IsPlain := by
  refine ⟨(isRounding_roundedValue n).isNumber, fun hzero => ?_⟩
  have hnegative : n.toInt < 0 := of_decide_eq_true (congrArg Binary.negative hzero)
  have hvalue := roundedValue_le_neg_one hnegative
  rw [roundedValue, hzero, Binary.value_minusZero] at hvalue
  norm_num at hvalue

/-- A whole number but zero is on the same side of minus zero as of zero. -/
theorem sides_of_minusZero (hn : n ≠ 0) :
    (roundedKey n < -1 ∧ roundedValue n < 0) ∨ (-1 < roundedKey n ∧ 0 < roundedValue n) := by
  have hplain := isPlain_ofInt n
  rcases lt_trichotomy n.toInt 0 with hneg | hzero | hpos
  · -- Below zero the rank is not zero, so the key is below the one of minus zero.
    left
    have hsign : (Binary.ofInt n.toInt : Binary64).negative = true := decide_eq_true hneg
    have hrank := hplain.rank_pos hsign
    refine ⟨?_, (roundedValue_le_neg_one hneg).trans_lt (by norm_num)⟩
    rw [roundedKey, Binary.totalKey, if_pos hsign]
    omega
  · exact absurd (Int64.toInt_inj.1 hzero) hn
  · right
    have hsign : (Binary.ofInt n.toInt : Binary64).negative = false := decide_eq_false (Int.not_lt.2 hpos.le)
    refine ⟨?_, one_pos.trans_le (one_le_roundedValue hpos)⟩
    rw [roundedKey, Binary.totalKey, hsign, if_neg Bool.false_ne_true]
    omega

/-! ## Comparison -/

section Compare

variable (hx : x.isNaN = false)
include hx

section Key

variable (hzero : x = ⟨true, 0⟩ → n ≠ 0)
include hzero

/-- The total order is the one of the values, unless minus zero is compared with zero. -/
theorem roundedKey_lt_iff : roundedKey n < x.totalKey ↔ roundedValue n < x.value := by
  by_cases hminus : x = ⟨true, 0⟩
  · rw [hminus, Binary.value_minusZero]
    rcases sides_of_minusZero (hzero hminus) with ⟨hkey, hvalue⟩ | ⟨hkey, hvalue⟩
    · exact iff_of_true hkey hvalue
    · exact iff_of_false hkey.not_gt hvalue.not_gt
  · exact (isPlain_ofInt n).totalKey_lt_iff ⟨hx, hminus⟩

theorem lt_roundedKey_iff : x.totalKey < roundedKey n ↔ x.value < roundedValue n := by
  by_cases hminus : x = ⟨true, 0⟩
  · rw [hminus, Binary.value_minusZero]
    rcases sides_of_minusZero (hzero hminus) with ⟨hkey, hvalue⟩ | ⟨hkey, hvalue⟩
    · exact iff_of_false hkey.not_gt hvalue.not_gt
    · exact iff_of_true hkey hvalue
  · exact Binary.IsPlain.totalKey_lt_iff ⟨hx, hminus⟩ (isPlain_ofInt n)

end Key

variable (hround : roundedValue n = x.value → wholeValue n = x.value)
include hround

/-- A number that a bound is not rounded to is on the same side of the bound and its rounding. -/
theorem roundedValue_lt_value_iff : roundedValue n < x.value ↔ wholeValue n < x.value := by
  by_cases heq : roundedValue n = x.value
  · rw [heq, hround heq]
  · exact (isRounding_roundedValue n).value_lt_iff hx heq

theorem value_lt_roundedValue_iff : x.value < roundedValue n ↔ x.value < wholeValue n := by
  by_cases heq : roundedValue n = x.value
  · rw [heq, hround heq]
  · exact (isRounding_roundedValue n).lt_value_iff hx heq

end Compare

end EventFinder
