import EventFinder.Proofs.Number.Rounding

/-!
# Numbers of a narrow format among those of a wide one

A format is within another one if its finite magnitudes are magnitudes of the other (`Format.IsWithin`), as 32
bits are within 64 bits. Widening a number then keeps its value (`value_convert_of_isWithin`).

A number of 64 bits can be rounded to 32 bits and taken as one of 64 bits again (`narrowed`). What is not changed
by that is on the same side of a rounded number as of the number itself, or it is the rounded number
(`narrowed_lt_iff`, `lt_narrowed_iff`).
-/

set_option autoImplicit false

namespace EventFinder

/-! ## Formats within others -/

namespace Format

/-- The finite magnitudes of `f` are finite magnitudes of `g`, whose units are smaller by `2 ^ k`. -/
structure IsWithin (f g : Format) (k : Nat) : Prop where
  fractionBits_le : f.fractionBits ≤ g.fractionBits
  unitExponent_eq : g.unitExponent = f.unitExponent + k
  infinity_le : f.unitsOfRank f.infinityRank * twoPow k ≤ g.unitsOfRank g.infinityRank

theorem binary32_isWithin : binary32.IsWithin binary64 925 := by
  constructor <;> decide +kernel

variable {f g : Format} {k : Nat}

theorem IsWithin.unitsPerOne_eq (h : f.IsWithin g k) : g.unitsPerOne = f.unitsPerOne * twoPow k := by
  rw [unitsPerOne, h.unitExponent_eq, twoPow_add]
  rfl

/-- A magnitude of the narrow format has so few digits that it is one of the wide format. -/
theorem IsWithin.exists_rank (h : f.IsWithin g k) (r : Nat) :
    ∃ r', g.unitsOfRank r' = f.unitsOfRank r * twoPow k := by
  obtain ⟨q, s, rfl, hq, hs⟩ := f.exists_steps r
  have hdigits : twoPow f.fractionBits ≤ twoPow g.fractionBits :=
    Nat.pow_le_pow_right Nat.two_pos h.fractionBits_le
  obtain ⟨r', hr'⟩ := exists_unitsOfRank (f := g) (q := q) (by omega) (s + k)
  refine ⟨r', ?_⟩
  rw [hr', unitsOfRank_add_mul hq.le hs, twoPow_add, Nat.mul_assoc]

end Format

namespace Binary

variable {f g : Format} {k : Nat} {x y : Binary f}

/-! ## Finite numbers -/

theorem isFinite_iff : x.isFinite = true ↔ x.rank < f.infinityRank := by
  rw [isFinite, decide_eq_true_eq]

theorem isNaN_of_isFinite (hx : x.isFinite = true) : x.isNaN = false :=
  isNaN_eq_false_iff.2 (isFinite_iff.1 hx).le

/-- The infinities are the ends of the order. -/
theorem isFinite_or_infinity (hx : x.isNaN = false) : x.isFinite = true ∨ x = infinity x.negative := by
  rw [isNaN_eq_false_iff] at hx
  rcases hx.lt_or_eq with hlt | heq
  · exact Or.inl (isFinite_iff.2 hlt)
  · right
    rw [infinity, ← heq]

theorem natAbs_numericKey (x : Binary f) : x.numericKey.natAbs = x.rank := by
  rw [numericKey]
  split <;> simp

/-- Numbers that have a value in common are both finite. -/
theorem isFinite_congr (h : x.value = y.value) : x.isFinite = y.isFinite := by
  rw [isFinite, isFinite, ← natAbs_numericKey x, value_eq_iff.1 h, natAbs_numericKey]

/-! ## Widening -/

/-- Widening a finite number keeps its value. -/
theorem value_convert_of_isWithin (h : f.IsWithin g k) (hy : y.isFinite = true) :
    (y.convert : Binary g).value = y.value ∧ (y.convert : Binary g).isFinite = true := by
  obtain ⟨r, hr⟩ := h.exists_rank y.rank
  have hvalue : (⟨y.negative, r⟩ : Binary g).value = y.value := by
    have hunits : (⟨y.negative, r⟩ : Binary g).units = y.units * twoPow k := by
      obtain ⟨sign, rank⟩ := y
      cases sign <;> simp [units, hr]
    have hk : ((twoPow k : Nat) : ℚ) ≠ 0 := Nat.cast_ne_zero.2 (twoPow_pos k).ne'
    rw [value, value, hunits, h.unitsPerOne_eq]
    push_cast
    rw [mul_div_mul_right _ _ hk]
  have hfinite : (⟨y.negative, r⟩ : Binary g).isFinite = true := by
    rw [isFinite_iff, ← g.strictMono_unitsOfRank.lt_iff_lt, hr]
    have hlt := f.strictMono_unitsOfRank (isFinite_iff.1 hy)
    exact (Nat.mul_lt_mul_of_pos_right hlt (twoPow_pos k)).trans_le h.infinity_le
  -- What is a number of the wide format is not rounded.
  have hround := (isRounding_convert (g := g) hy).value_eq (isNaN_of_isFinite hfinite) hvalue
  exact ⟨hround.trans hvalue, (isFinite_congr hround).trans hfinite⟩

theorem convert_infinity (negative : Bool) :
    ((infinity negative : Binary f).convert : Binary g) = infinity negative := by
  simp [convert, infinity, isNaN, isInfinite]

theorem isNaN_infinity (negative : Bool) : (infinity negative : Binary f).isNaN = false := by
  simp [infinity, isNaN]

theorem infinity_le_iff (hx : x.isFinite = true) (negative : Bool) :
    (infinity negative : Binary f).numericKey ≤ x.numericKey ↔ negative = true := by
  rw [isFinite_iff, ← natAbs_numericKey] at hx
  generalize x.numericKey = key at hx ⊢
  cases negative <;> simp [infinity, numericKey] <;> omega

theorem le_infinity_iff (hx : x.isFinite = true) (negative : Bool) :
    x.numericKey ≤ (infinity negative : Binary f).numericKey ↔ negative = false := by
  rw [isFinite_iff, ← natAbs_numericKey] at hx
  generalize x.numericKey = key at hx ⊢
  cases negative <;> simp [infinity, numericKey] <;> omega

section Order

variable (h : f.IsWithin g k) (hx : x.isNaN = false) (hy : y.isFinite = true)
include h hx hy

/-- Widening keeps the order. -/
theorem convert_le_convert_iff :
    (x.convert : Binary g).numericKey ≤ (y.convert : Binary g).numericKey ↔ x.numericKey ≤ y.numericKey := by
  obtain ⟨hvalue, hfinite⟩ := value_convert_of_isWithin h hy
  rcases isFinite_or_infinity hx with hx' | hx'
  · rw [← value_le_iff, ← value_le_iff, hvalue, (value_convert_of_isWithin h hx').1]
  · rw [hx', convert_infinity, infinity_le_iff hfinite, infinity_le_iff hy]

theorem convert_ge_convert_iff :
    (y.convert : Binary g).numericKey ≤ (x.convert : Binary g).numericKey ↔ y.numericKey ≤ x.numericKey := by
  obtain ⟨hvalue, hfinite⟩ := value_convert_of_isWithin h hy
  rcases isFinite_or_infinity hx with hx' | hx'
  · rw [← value_le_iff, ← value_le_iff, hvalue, (value_convert_of_isWithin h hx').1]
  · rw [hx', convert_infinity, le_infinity_iff hfinite, le_infinity_iff hy]

end Order

/-! ## Narrowing -/

/-- The number rounded to the narrow format `f`. -/
def narrowed (f : Format) (x : Binary g) : Binary g := (x.convert : Binary f).convert

section Narrowed

variable {b v : Binary g} (h : f.IsWithin g k) (hb : b.isFinite = true)

include h hb in
theorem isNaN_narrowed : (b.narrowed f).isNaN = false := by
  rcases isFinite_or_infinity (isRounding_convert (g := f) hb).isNumber with hfinite | hinfinite
  · exact isNaN_of_isFinite (value_convert_of_isWithin h hfinite).2
  · rw [narrowed, hinfinite, convert_infinity]
    exact isNaN_infinity _

variable (hv : v.isFinite = true) (hkept : v.narrowed f = v)
include hv hkept

/-- A finite number that is kept is one of the narrow format. -/
theorem isFinite_convert_of_narrowed : (v.convert : Binary f).isFinite = true := by
  rcases isFinite_or_infinity (isRounding_convert (g := f) hv).isNumber with hfinite | hinfinite
  · exact hfinite
  · rw [narrowed, hinfinite, convert_infinity] at hkept
    rw [← hkept, isFinite_iff] at hv
    exact absurd hv (Nat.lt_irrefl _)

include h

theorem value_convert_of_narrowed : (v.convert : Binary f).value = v.value := by
  have hfinite := isFinite_convert_of_narrowed hv hkept
  have hvalue := (value_convert_of_isWithin h hfinite).1
  rw [← hvalue]
  exact congrArg value hkept

include hb

/-- What does not exceed a number that is kept does not exceed it when it is narrowed. -/
theorem narrowed_le (hle : b.numericKey ≤ v.numericKey) : (b.narrowed f).numericKey ≤ v.numericKey := by
  have hround := isRounding_convert (g := f) hb
  have hfinite := isFinite_convert_of_narrowed hv hkept
  -- As `v` is a number of the narrow format, rounding to that format does not pass it, and widening keeps the order.
  have hnarrow : (b.convert : Binary f).numericKey ≤ (v.convert : Binary f).numericKey := by
    rw [← value_le_iff]
    apply hround.le_of_le _ (isNaN_of_isFinite hfinite)
    rwa [value_convert_of_narrowed h hv hkept, value_le_iff]
  rw [← convert_le_convert_iff h hround.isNumber hfinite] at hnarrow
  exact hnarrow.trans_eq (congrArg numericKey hkept)

/-- What is at least a number that is kept is at least it when it is narrowed. -/
theorem le_narrowed (hle : v.numericKey ≤ b.numericKey) : v.numericKey ≤ (b.narrowed f).numericKey := by
  have hround := isRounding_convert (g := f) hb
  have hfinite := isFinite_convert_of_narrowed hv hkept
  have hnarrow : (v.convert : Binary f).numericKey ≤ (b.convert : Binary f).numericKey := by
    rw [← value_le_iff]
    apply hround.le_of_ge _ (isNaN_of_isFinite hfinite)
    rwa [value_convert_of_narrowed h hv hkept, value_le_iff]
  rw [← convert_ge_convert_iff h hround.isNumber hfinite] at hnarrow
  exact (congrArg numericKey hkept).symm.trans_le hnarrow

/-- A number that is kept is above a narrowed number if it is above the number, unless it is the narrowed one. -/
theorem narrowed_lt_iff (hne : (b.narrowed f).numericKey ≠ v.numericKey) :
    (b.narrowed f).numericKey < v.numericKey ↔ b.numericKey < v.numericKey := by
  have hle := narrowed_le h hb hv hkept
  have hge := le_narrowed h hb hv hkept
  omega

theorem lt_narrowed_iff (hne : (b.narrowed f).numericKey ≠ v.numericKey) :
    v.numericKey < (b.narrowed f).numericKey ↔ v.numericKey < b.numericKey := by
  have hle := narrowed_le h hb hv hkept
  have hge := le_narrowed h hb hv hkept
  omega

end Narrowed

end Binary

end EventFinder
