import EventFinder.Number.Arithmetic
import EventFinder.Proofs.Number.Narrow

/-!
# What stays finite

Whole numbers of up to 308 digits are finite (`isFinite_ofInt`), a product of finite numbers is finite or infinite
(`isFinite_mul`), and dividing by one or more leaves a number finite (`isFinite_div`).
-/

set_option autoImplicit false

namespace EventFinder

namespace Binary

variable {f : Format} {x y : Binary f}

theorem isInfinite_of_isFinite (hx : x.isFinite = true) : x.isInfinite = false := by
  rw [isInfinite, decide_eq_false_iff_not]
  exact (isFinite_iff.1 hx).ne

/-- What does not exceed a finite magnitude is finite when it is rounded. -/
theorem isFinite_ofUnits {negative : Bool} {n d r : Nat} (hd : 0 < d) (hr : r < f.infinityRank)
    (h : n ≤ f.unitsOfRank r * d) : (ofUnits negative n d : Binary f).isFinite = true :=
  isFinite_iff.2 ((Format.nearestRank_le hd h).trans_lt hr)

/-- The greatest power of ten that is a number of 64 bits is finite, and so is every whole number up to it. -/
theorem isFinite_ofInt {n : Int} (hn : n.natAbs ≤ tenPow 308) : (ofInt n : Binary64).isFinite = true := by
  have hmax : tenPow 308 * Format.binary64.unitsPerOne ≤
      Format.binary64.unitsOfRank (Format.binary64.infinityRank - 1) * 1 := by decide +kernel
  have hlt : Format.binary64.infinityRank - 1 < Format.binary64.infinityRank := by decide +kernel
  exact isFinite_ofUnits Nat.one_pos hlt ((Nat.mul_le_mul_right _ hn).trans hmax)

theorem isFinite_mul (hx : x.isFinite = true) (hy : y.isFinite = true) (h : (x * y).isInfinite = false) :
    (x * y).isFinite = true := by
  have hmul : x * y =
      ofUnits (x.negative != y.negative) (f.unitsOfRank x.rank * f.unitsOfRank y.rank) f.unitsPerOne := by
    change mul x y = _
    rw [mul, isNaN_of_isFinite hx, isNaN_of_isFinite hy, isInfinite_of_isFinite hx, isInfinite_of_isFinite hy]
    rfl
  -- No rounding gives more than infinity, so that only infinity itself is to be excluded.
  rw [hmul] at h ⊢
  rw [isInfinite, decide_eq_false_iff_not] at h
  exact isFinite_iff.2 (Nat.lt_of_le_of_ne (f.nearestRank_le_infinityRank _ _) h)

/-- Dividing by a magnitude of one or more does not enlarge the magnitude. -/
theorem isFinite_div (hx : x.isFinite = true) (hy : y.isFinite = true) (hone : f.unitsPerOne ≤ f.unitsOfRank y.rank) :
    (x / y).isFinite = true := by
  have hpos : 0 < f.unitsOfRank y.rank := (twoPow_pos f.unitExponent).trans_le hone
  have hzero : y.isZero = false := by
    rw [isZero, decide_eq_false_iff_not, ← Format.unitsOfRank_eq_zero_iff]
    exact hpos.ne'
  have hdiv : x / y =
      ofUnits (x.negative != y.negative) (f.unitsOfRank x.rank * f.unitsPerOne) (f.unitsOfRank y.rank) := by
    change div x y = _
    rw [div, isNaN_of_isFinite hx, isNaN_of_isFinite hy, isInfinite_of_isFinite hx, isInfinite_of_isFinite hy, hzero]
    rfl
  rw [hdiv]
  exact isFinite_ofUnits hpos (isFinite_iff.1 hx) (Nat.mul_le_mul_left _ hone)

/-- A power of ten is one or more. -/
theorem unitsPerOne_le_tenPow (n : Nat) :
    Format.binary64.unitsPerOne ≤ Format.binary64.unitsOfRank (ofInt (tenPow n) : Binary64).rank := by
  have hone : Format.binary64.unitsOfRank (one : Binary64).rank = Format.binary64.unitsPerOne := by decide +kernel
  have hrank : (one : Binary64).rank ≤ Format.binary64.infinityRank := by decide +kernel
  rw [← hone]
  apply (Format.strictMono_unitsOfRank _).monotone
  apply Format.le_nearestRank Nat.one_pos hrank
  rw [hone, Nat.mul_one]
  exact Nat.le_mul_of_pos_left _ (tenPow_pos n)

end Binary

end EventFinder
