import EventFinder.Number.Rounding
import EventFinder.Proofs.Number.Order
import Mathlib.Algebra.Order.Field.Rat
import Mathlib.Algebra.Order.Ring.Cast
import Mathlib.Order.Monotone.Basic
import Mathlib.Tactic.Ring

/-!
# Rounding keeps the order

The magnitudes of a format grow with the rank (`strictMono_unitsOfRank`), so numbers compare as their exact
values do (`value_lt_iff`). A rounded value is on the same side of every number of the format as the exact one,
or it is that number (`IsRounding`). So are whole numbers and the numbers of another format that are rounded
(`isRounding_ofInt`, `isRounding_convert`).
-/

set_option autoImplicit false

namespace EventFinder

theorem twoPow_eq_pow (n : Nat) : twoPow n = 2 ^ n := rfl

theorem twoPow_add (m n : Nat) : twoPow (m + n) = twoPow m * twoPow n := by
  simp only [twoPow_eq_pow, pow_add]

/-! ## Magnitudes -/

namespace Format

variable {f : Format}

/-- A magnitude of so many steps of its size. Steps double where there are `2 * 2 ^ fractionBits` of them, and
that many of one size are the first magnitude of the next size. -/
theorem unitsOfRank_add_mul {q s : Nat} (hq : q ≤ 2 * twoPow f.fractionBits)
    (hs : s = 0 ∨ twoPow f.fractionBits ≤ q) :
    f.unitsOfRank (q + s * twoPow f.fractionBits) = q * twoPow s := by
  have hpos := twoPow_pos f.fractionBits
  rw [unitsOfRank]
  generalize twoPow f.fractionBits = p at *
  rcases Nat.lt_or_ge q p with hlt | hge
  · -- Below the first doubling the rank is the number of steps.
    obtain rfl : s = 0 := by omega
    simp [Nat.div_eq_of_lt hlt, twoPow_zero]
  · rcases Nat.lt_or_ge q (2 * p) with hlt | hge'
    · have hrank : q + s * p = (q - p) + p * (s + 1) := by
        rw [Nat.mul_add, Nat.mul_comm p s]
        omega
      have hrest : q - p < p := by omega
      simp [hrank, Nat.add_mul_div_left _ _ hpos, Nat.div_eq_of_lt hrest, Nat.mod_eq_of_lt hrest,
        Nat.add_sub_cancel' hge]
    · obtain rfl : q = 2 * p := by omega
      have hrank : 2 * p + s * p = 0 + p * (s + 2) := by
        rw [Nat.mul_add, Nat.mul_comm p s]
        omega
      simp only [hrank, Nat.zero_add, Nat.mul_div_cancel_left _ hpos, Nat.mul_mod_right, Nat.add_zero,
        Nat.succ_ne_zero, if_false, Nat.add_succ_sub_one, twoPow_succ]
      ring

/-- Every rank is one of so many steps of its size. -/
theorem exists_steps (f : Format) (r : Nat) :
    ∃ q s, r = q + s * twoPow f.fractionBits ∧ q < 2 * twoPow f.fractionBits ∧
      (s = 0 ∨ twoPow f.fractionBits ≤ q) := by
  have hpos := twoPow_pos f.fractionBits
  generalize twoPow f.fractionBits = p at *
  have hdiv := Nat.div_add_mod r p
  have hmod := Nat.mod_lt r hpos
  cases hblock : r / p with
  | zero =>
      rw [hblock] at hdiv
      exact ⟨r, 0, by omega, by omega, Or.inl rfl⟩
  | succ s =>
      rw [hblock, Nat.mul_add, Nat.mul_comm p s] at hdiv
      exact ⟨p + r % p, s, by omega, by omega, Or.inr (by omega)⟩

/-- Magnitudes grow with the rank. -/
theorem strictMono_unitsOfRank (f : Format) : StrictMono f.unitsOfRank := by
  apply strictMono_nat_of_lt_succ
  intro r
  -- The next rank is one more step of the same size.
  obtain ⟨q, s, rfl, hq, hs⟩ := f.exists_steps r
  have hnext : q + s * twoPow f.fractionBits + 1 = q + 1 + s * twoPow f.fractionBits := by omega
  rw [hnext, unitsOfRank_add_mul (by omega) hs, unitsOfRank_add_mul (by omega) (by omega)]
  exact Nat.mul_lt_mul_of_pos_right (Nat.lt_succ_self q) (twoPow_pos s)

theorem unitsOfRank_zero (f : Format) : f.unitsOfRank 0 = 0 := by
  simp [unitsOfRank]

theorem unitsOfRank_eq_zero_iff {r : Nat} : f.unitsOfRank r = 0 ↔ r = 0 := by
  have hzero := f.strictMono_unitsOfRank.injective.eq_iff (a := r) (b := 0)
  rwa [unitsOfRank_zero] at hzero

/-- A number of few digits is a magnitude, whatever the size of its steps. -/
theorem exists_unitsOfRank {q : Nat} (hq : q ≤ 2 * twoPow f.fractionBits) (s : Nat) :
    ∃ r, f.unitsOfRank r = q * twoPow s := by
  induction s generalizing q with
  | zero => exact ⟨q + 0 * twoPow f.fractionBits, unitsOfRank_add_mul hq (Or.inl rfl)⟩
  | succ s ih =>
      rcases Nat.lt_or_ge q (twoPow f.fractionBits) with hlt | hge
      · -- With room for one more digit, the steps can be half as large.
        obtain ⟨r, hr⟩ := ih (q := 2 * q) (by omega)
        refine ⟨r, ?_⟩
        rw [hr, twoPow_succ]
        ring
      · exact ⟨q + (s + 1) * twoPow f.fractionBits, unitsOfRank_add_mul hq (Or.inr hge)⟩

end Format

/-! ## Rounded quotients -/

theorem le_roundHalfEven {n d k : Nat} (hd : 0 < d) (h : k * d ≤ n) : k ≤ roundHalfEven n d :=
  ((Nat.le_div_iff_mul_le hd).2 h).trans (roundHalfEven_bounds n d).1

theorem roundHalfEven_le {n d k : Nat} (hd : 0 < d) (h : n ≤ k * d) : roundHalfEven n d ≤ k := by
  rcases Nat.eq_zero_or_pos (n % d) with hexact | hrest
  · obtain ⟨q, rfl⟩ := Nat.dvd_of_mod_eq_zero hexact
    rw [Nat.mul_comm d q] at h ⊢
    rw [roundHalfEven_mul q d hd]
    exact Nat.le_of_mul_le_mul_right h hd
  · -- What is not whole is below the next whole number, which the rounding does not pass.
    have hlt : n / d < k := by
      rw [Nat.div_lt_iff_lt_mul hd]
      apply Nat.lt_of_le_of_ne h
      rintro rfl
      simp at hrest
    exact (roundHalfEven_bounds n d).2.trans hlt

namespace Format

variable {f : Format} {n d r : Nat}

/-- The steps between which an exact magnitude is, and how it is rounded to one of them. -/
theorem exists_nearestRank_eq (f : Format) (n : Nat) (hd : 0 < d) :
    ∃ q s, q < 2 * twoPow f.fractionBits ∧ (s = 0 ∨ twoPow f.fractionBits ≤ q) ∧
      q * twoPow s * d ≤ n ∧ n < (q + 1) * twoPow s * d ∧
      f.nearestRank n d =
        Nat.min f.infinityRank (roundHalfEven n (d * twoPow s) + s * twoPow f.fractionBits) := by
  have hstep := twoPow_pos ((n / d).log2 - f.fractionBits)
  refine ⟨n / (d * twoPow ((n / d).log2 - f.fractionBits)), (n / d).log2 - f.fractionBits, ?_, ?_, ?_, ?_,
    rfl⟩
  · rw [← Nat.div_div_eq_div_mul, Nat.div_lt_iff_lt_mul hstep, Nat.mul_comm 2, ← twoPow_succ, ← twoPow_add]
    exact Nat.lt_log2_self.trans_le (Nat.pow_le_pow_right Nat.two_pos (by omega))
  · rcases Nat.eq_zero_or_pos ((n / d).log2 - f.fractionBits) with hzero | hpos
    · exact Or.inl hzero
    · right
      have hne : n / d ≠ 0 := fun h => by simp [h] at hpos
      rw [← Nat.div_div_eq_div_mul, Nat.le_div_iff_mul_le hstep, ← twoPow_add]
      exact (Nat.pow_le_pow_right Nat.two_pos (by omega)).trans (Nat.log2_self_le hne)
  · rw [Nat.mul_assoc, Nat.mul_comm _ d]
    exact Nat.div_mul_le_self n _
  · rw [Nat.mul_assoc, Nat.mul_comm _ d]
    exact Nat.lt_mul_of_div_lt (Nat.lt_succ_self _) (Nat.mul_pos hd hstep)

/-- A magnitude of the format that is at most the exact one is at most the rounded one. -/
theorem le_nearestRank (hd : 0 < d) (hr : r ≤ f.infinityRank) (h : f.unitsOfRank r * d ≤ n) :
    r ≤ f.nearestRank n d := by
  obtain ⟨q, s, hq, hs, hbelow, habove, heq⟩ := f.exists_nearestRank_eq n hd
  have hlt : f.unitsOfRank r < f.unitsOfRank (q + 1 + s * twoPow f.fractionBits) := by
    rw [unitsOfRank_add_mul (by omega) (by omega)]
    exact Nat.lt_of_mul_lt_mul_right (h.trans_lt habove)
  have hrank := f.strictMono_unitsOfRank.lt_iff_lt.1 hlt
  have hround : q ≤ roundHalfEven n (d * twoPow s) := by
    apply le_roundHalfEven (Nat.mul_pos hd (twoPow_pos s))
    rwa [Nat.mul_comm d, ← Nat.mul_assoc]
  rw [heq]
  exact Nat.le_min.2 ⟨hr, by omega⟩

/-- A magnitude of the format that is at least the exact one is at least the rounded one. -/
theorem nearestRank_le (hd : 0 < d) (h : n ≤ f.unitsOfRank r * d) : f.nearestRank n d ≤ r := by
  obtain ⟨q, s, hq, hs, hbelow, habove, heq⟩ := f.exists_nearestRank_eq n hd
  rw [heq]
  apply (Nat.min_le_right _ _).trans
  have hle : f.unitsOfRank (q + s * twoPow f.fractionBits) ≤ f.unitsOfRank r := by
    rw [unitsOfRank_add_mul (by omega) hs]
    exact Nat.le_of_mul_le_mul_right (hbelow.trans h) hd
  rcases (f.strictMono_unitsOfRank.le_iff_le.1 hle).lt_or_eq with hlt | rfl
  · -- Rounding goes at most to the next step.
    have hround : roundHalfEven n (d * twoPow s) ≤ q + 1 := by
      apply roundHalfEven_le (Nat.mul_pos hd (twoPow_pos s))
      rw [Nat.mul_comm d, ← Nat.mul_assoc]
      exact habove.le
    omega
  · have hround : roundHalfEven n (d * twoPow s) ≤ q := by
      apply roundHalfEven_le (Nat.mul_pos hd (twoPow_pos s))
      rwa [unitsOfRank_add_mul (by omega) hs, Nat.mul_assoc, Nat.mul_comm _ d] at h
    omega

theorem nearestRank_le_infinityRank (f : Format) (n d : Nat) : f.nearestRank n d ≤ f.infinityRank :=
  Nat.min_le_left _ _

end Format

/-! ## Values -/

namespace Binary

variable {f g : Format} {x y : Binary f}

theorem isNaN_eq_false_iff : x.isNaN = false ↔ x.rank ≤ f.infinityRank := by
  rw [isNaN, decide_eq_false_iff_not, not_lt]

theorem units_neg (x : Binary f) : x.neg.units = -x.units := by
  obtain ⟨s, r⟩ := x
  cases s <;> simp [neg, units]

theorem numericKey_neg (x : Binary f) : x.neg.numericKey = -x.numericKey := by
  obtain ⟨s, r⟩ := x
  cases s <;> simp [neg, numericKey]

theorem units_lt_units_iff : x.units < y.units ↔ x.numericKey < y.numericKey := by
  obtain ⟨sx, rx⟩ := x
  obtain ⟨sy, ry⟩ := y
  have hxy := f.strictMono_unitsOfRank.lt_iff_lt (a := rx) (b := ry)
  have hyx := f.strictMono_unitsOfRank.lt_iff_lt (a := ry) (b := rx)
  have hx := f.unitsOfRank_eq_zero_iff (r := rx)
  have hy := f.unitsOfRank_eq_zero_iff (r := ry)
  simp only [units, numericKey]
  generalize f.unitsOfRank rx = ux at *
  generalize f.unitsOfRank ry = uy at *
  cases sx <;> cases sy <;> simp <;> omega

/-- The exact value of a finite number. -/
def value (x : Binary f) : ℚ := x.units / f.unitsPerOne

theorem unitsPerOne_pos (f : Format) : (0 : ℚ) < f.unitsPerOne :=
  Nat.cast_pos.2 (twoPow_pos f.unitExponent)

/-- Numbers compare as their exact values. -/
theorem value_lt_iff : x.value < y.value ↔ x.numericKey < y.numericKey := by
  rw [value, value, div_lt_div_iff_of_pos_right (unitsPerOne_pos f), Int.cast_lt, units_lt_units_iff]

theorem value_le_iff : x.value ≤ y.value ↔ x.numericKey ≤ y.numericKey := by
  rw [← not_lt, value_lt_iff, not_lt]

theorem value_eq_iff : x.value = y.value ↔ x.numericKey = y.numericKey := by
  rw [le_antisymm_iff, value_le_iff, value_le_iff, ← le_antisymm_iff]

/-- Plain numbers compare in the total order as their exact values do. -/
theorem IsPlain.totalKey_lt_iff (hx : x.IsPlain) (hy : y.IsPlain) :
    x.totalKey < y.totalKey ↔ x.value < y.value := by
  rw [← lt_iff_totalKey_lt hx hy, lt_iff, and_iff_right hx.isNumber, and_iff_right hy.isNumber, value_lt_iff]

theorem value_minusZero : (⟨true, 0⟩ : Binary f).value = 0 := by
  simp [value, units, Format.unitsOfRank_zero]

/-! ## Rounding -/

/-- The number is a rounding of the exact value: a number of the format that is at least the exact value is at
least the rounding, and one that is at most the exact value is at most the rounding. -/
structure IsRounding (q : ℚ) (y : Binary f) : Prop where
  isNumber : y.isNaN = false
  le_of_le : ∀ z : Binary f, z.isNaN = false → q ≤ z.value → y.value ≤ z.value
  le_of_ge : ∀ z : Binary f, z.isNaN = false → z.value ≤ q → z.value ≤ y.value

namespace IsRounding

variable {q : ℚ} {z : Binary f} (h : IsRounding q y) (hz : z.isNaN = false)
include h hz

/-- What is a value of the format is not changed. -/
theorem value_eq (hexact : z.value = q) : y.value = z.value :=
  le_antisymm (h.le_of_le z hz hexact.ge) (h.le_of_ge z hz hexact.le)

/-- A number of the format is on the same side of the rounding as of the exact value, or it is the rounding. -/
theorem value_lt_iff (hne : y.value ≠ z.value) : y.value < z.value ↔ q < z.value := by
  constructor
  · intro hlt
    by_contra hle
    exact (h.le_of_ge z hz (not_lt.1 hle)).not_gt hlt
  · intro hlt
    exact (h.le_of_le z hz hlt.le).lt_of_ne hne

theorem lt_value_iff (hne : y.value ≠ z.value) : z.value < y.value ↔ z.value < q := by
  constructor
  · intro hlt
    by_contra hle
    exact (h.le_of_le z hz (not_lt.1 hle)).not_gt hlt
  · intro hlt
    exact (h.le_of_ge z hz hlt.le).lt_of_ne hne.symm

end IsRounding

/-- A whole number of units over `d`, with its sign. -/
def signedUnits (negative : Bool) (n : Nat) : Int := if negative then -(n : Int) else n

theorem signedUnits_not (negative : Bool) (n : Nat) : signedUnits (!negative) n = -signedUnits negative n := by
  cases negative <;> simp [signedUnits]

theorem signedUnits_mul (negative : Bool) (n k : Nat) :
    signedUnits negative (n * k) = signedUnits negative n * k := by
  cases negative <;> simp [signedUnits]

theorem signedUnits_natAbs (n : Int) : signedUnits (decide (n < 0)) n.natAbs = n := by
  rw [signedUnits]
  split
  · rename_i h
    rw [decide_eq_true_eq] at h
    omega
  · rename_i h
    rw [decide_eq_true_eq] at h
    omega

theorem neg_ofUnits (negative : Bool) (n d : Nat) :
    (ofUnits negative n d : Binary f).neg = ofUnits (!negative) n d := rfl

/-- What does not exceed a number of the format does not exceed it when it is rounded. -/
theorem numericKey_ofUnits_le {negative : Bool} {n d : Nat} {z : Binary f} (hd : 0 < d) (hz : z.isNaN = false)
    (h : signedUnits negative n ≤ z.units * d) :
    (ofUnits negative n d : Binary f).numericKey ≤ z.numericKey := by
  obtain ⟨sign, r⟩ := z
  rw [isNaN_eq_false_iff] at hz
  cases negative <;> cases sign <;> simp [signedUnits, units, ofUnits, numericKey] at h ⊢
  case false.false => exact Format.nearestRank_le hd (by exact_mod_cast h)
  case false.true =>
    -- A number below zero is at least a magnitude only if both are zero.
    have hunits : f.unitsOfRank r * d = 0 ∧ n = 0 := by
      have hnonneg := Int.natCast_nonneg n
      have hmul := Int.natCast_nonneg (f.unitsOfRank r * d)
      push_cast at hmul
      exact ⟨by exact_mod_cast (by omega : (f.unitsOfRank r : Int) * d = 0), by omega⟩
    have hr : r = 0 := Format.unitsOfRank_eq_zero_iff.1 ((Nat.mul_eq_zero.1 hunits.1).resolve_right hd.ne')
    have hround := Format.nearestRank_le (f := f) (r := 0) hd (hunits.2 ▸ Nat.zero_le _)
    omega
  case true.true =>
    -- Below zero the magnitudes are in the other order.
    exact Format.le_nearestRank hd hz (by exact_mod_cast h)

/-- What is at least a number of the format is at least it when it is rounded. -/
theorem le_numericKey_ofUnits {negative : Bool} {n d : Nat} {z : Binary f} (hd : 0 < d) (hz : z.isNaN = false)
    (h : z.units * d ≤ signedUnits negative n) :
    z.numericKey ≤ (ofUnits negative n d : Binary f).numericKey := by
  have hneg : signedUnits (!negative) n ≤ z.neg.units * d := by
    rw [signedUnits_not, units_neg, neg_mul]
    exact neg_le_neg h
  have hkey := numericKey_ofUnits_le (z := z.neg) hd hz hneg
  rw [← neg_ofUnits, numericKey_neg, numericKey_neg] at hkey
  exact neg_le_neg_iff.1 hkey

theorem isRounding_ofUnits (negative : Bool) (n : Nat) {d : Nat} (hd : 0 < d) :
    IsRounding (signedUnits negative n / (f.unitsPerOne * d)) (ofUnits negative n d : Binary f) := by
  have hpos := unitsPerOne_pos f
  have hd' : (0 : ℚ) < d := Nat.cast_pos.2 hd
  constructor
  · rw [isNaN_eq_false_iff]
    exact f.nearestRank_le_infinityRank n d
  · intro z hz h
    rw [value, ← div_div, div_right_comm, div_le_div_iff_of_pos_right hpos, div_le_iff₀ hd'] at h
    exact value_le_iff.2 (numericKey_ofUnits_le hd hz (by exact_mod_cast h))
  · intro z hz h
    rw [value, ← div_div, div_right_comm, div_le_div_iff_of_pos_right hpos, le_div_iff₀ hd'] at h
    exact value_le_iff.2 (le_numericKey_ofUnits hd hz (by exact_mod_cast h))

/-- A whole number is rounded. -/
theorem isRounding_ofInt (n : Int) : IsRounding n (ofInt n : Binary f) := by
  have hround := isRounding_ofUnits (f := f) (decide (n < 0)) (n.natAbs * f.unitsPerOne) Nat.one_pos
  rw [signedUnits_mul, signedUnits_natAbs, Int.cast_mul, Int.cast_natCast, Nat.cast_one, mul_one,
    mul_div_cancel_right₀ _ (unitsPerOne_pos f).ne'] at hround
  exact hround

/-- A whole number of few digits is a number of the format. -/
theorem value_ofInt {n : Int} (hn : n.natAbs ≤ 2 * twoPow f.fractionBits)
    (hsize : 2 * twoPow f.fractionBits * f.unitsPerOne ≤ f.unitsOfRank f.infinityRank) :
    (ofInt n : Binary f).value = n := by
  obtain ⟨r, hr⟩ := Format.exists_unitsOfRank hn f.unitExponent
  have hunits : (⟨decide (n < 0), r⟩ : Binary f).units =
      signedUnits (decide (n < 0)) (n.natAbs * f.unitsPerOne) := by
    rw [units, signedUnits, hr, Format.unitsPerOne]
  have hvalue : (⟨decide (n < 0), r⟩ : Binary f).value = n := by
    rw [value, hunits, signedUnits_mul, signedUnits_natAbs, Int.cast_mul, Int.cast_natCast,
      mul_div_cancel_right₀ _ (unitsPerOne_pos f).ne']
  have hnumber : (⟨decide (n < 0), r⟩ : Binary f).isNaN = false := by
    rw [isNaN_eq_false_iff, ← f.strictMono_unitsOfRank.le_iff_le, hr]
    exact (Nat.mul_le_mul_right _ hn).trans hsize
  exact ((isRounding_ofInt n).value_eq hnumber hvalue).trans hvalue

theorem convert_of_isFinite (hx : x.isFinite = true) :
    (x.convert : Binary g) = ofUnits x.negative (f.unitsOfRank x.rank * g.unitsPerOne) f.unitsPerOne := by
  rw [isFinite, decide_eq_true_eq] at hx
  have hnumber : x.isNaN = false := isNaN_eq_false_iff.2 hx.le
  have hinfinite : x.isInfinite = false := by
    rw [isInfinite, decide_eq_false_iff_not]
    exact hx.ne
  rw [convert, hnumber, hinfinite]
  rfl

/-- A finite number is rounded to another format. -/
theorem isRounding_convert (hx : x.isFinite = true) : IsRounding x.value (x.convert : Binary g) := by
  have hround := isRounding_ofUnits (f := g) x.negative (f.unitsOfRank x.rank * g.unitsPerOne)
    (d := f.unitsPerOne) (twoPow_pos f.unitExponent)
  rw [signedUnits_mul, Int.cast_mul, Int.cast_natCast, mul_comm, mul_div_mul_left _ _ (unitsPerOne_pos g).ne',
    ← convert_of_isFinite hx] at hround
  exact hround

end Binary

end EventFinder
