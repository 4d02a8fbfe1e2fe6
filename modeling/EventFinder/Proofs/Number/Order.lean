import EventFinder.Number.Binary

/-!
# The two orders on binary numbers

The total order tells all encodings apart (`totalKey_inj`). The order of the values is a strict order on
what is a number and relates nothing else (`lt_iff`, `lt_trans`). On *plain* numbers, which are values
and not minus zero, the two orders are one (`lt_iff_totalKey_lt`), and a plain number that is neither
below nor above another one is that one (`eq_of_not_lt`). A range of values is the same in both orders, but
for a zero at an end that is the other zero (`between_totalKey_iff`).
-/

set_option autoImplicit false

namespace EventFinder

namespace Binary

variable {f : Format} {x y z : Binary f}

/-- The total order tells all encodings apart. -/
theorem totalKey_inj (h : x.totalKey = y.totalKey) : x = y := by
  obtain ⟨sx, rx⟩ := x
  obtain ⟨sy, ry⟩ := y
  cases sx <;> cases sy <;> simp only [totalKey, Bool.false_eq_true, if_false, if_true] at h
  · rw [Int.ofNat_inj.1 h]
  · omega
  · omega
  · have hr : rx = ry := by omega
    rw [hr]

theorem lt_iff :
    x.lt y = true ↔ x.isNaN = false ∧ y.isNaN = false ∧ x.numericKey < y.numericKey := by
  simp [lt, and_assoc]

theorem lt_trans (hxy : x.lt y = true) (hyz : y.lt z = true) : x.lt z = true := by
  rw [lt_iff] at hxy hyz ⊢
  exact ⟨hxy.1, hyz.2.1, Int.lt_trans hxy.2.2 hyz.2.2⟩

theorem lt_irrefl (x : Binary f) : x.lt x = false := by
  simp [lt]

/-- What is no number is below nothing. -/
theorem lt_of_isNaN_left (h : x.isNaN = true) (y : Binary f) : x.lt y = false := by
  simp [lt, h]

/-- Nothing is below what is no number. -/
theorem lt_of_isNaN_right (x : Binary f) (h : y.isNaN = true) : x.lt y = false := by
  simp [lt, h]

/-- What is below `y` is below any number that `y` is not above. -/
theorem lt_of_lt_of_not_lt (hx : x.isNaN = false) (hzy : z.lt y = true) (hxy : x.lt y = false) :
    z.lt x = true := by
  rw [lt_iff] at hzy ⊢
  have hle : ¬ x.numericKey < y.numericKey := fun hkey => by
    rw [lt_iff.2 ⟨hx, hzy.2.1, hkey⟩] at hxy
    cases hxy
  exact ⟨hzy.1, hx, by omega⟩

/-- Of two numbers the one that is not above the other is at most the other. -/
theorem le_iff_not_lt (hx : x.isNaN = false) (hy : y.isNaN = false) :
    x.le y = true ↔ y.lt x = false := by
  simp [le, lt, hx, hy]

/-- Numbers of which neither is below the other are equal, but for the two zeros. -/
theorem eq_or_zeros_of_not_lt (hx : x.isNaN = false) (hy : y.isNaN = false) (hxy : x.lt y = false)
    (hyx : y.lt x = false) :
    x = y ∨ x = ⟨false, 0⟩ ∧ y = ⟨true, 0⟩ ∨ x = ⟨true, 0⟩ ∧ y = ⟨false, 0⟩ := by
  -- Numbers of one value differ at most in the sign of zero.
  have hkey : x.numericKey = y.numericKey := by
    have h1 : ¬ x.numericKey < y.numericKey := fun hlt => by
      rw [lt_iff.2 ⟨hx, hy, hlt⟩] at hxy
      cases hxy
    have h2 : ¬ y.numericKey < x.numericKey := fun hlt => by
      rw [lt_iff.2 ⟨hy, hx, hlt⟩] at hyx
      cases hyx
    omega
  obtain ⟨sx, rx⟩ := x
  obtain ⟨sy, ry⟩ := y
  cases sx <;> cases sy <;> simp [numericKey] at hkey ⊢ <;> omega

/-- A value that is not minus zero. -/
structure IsPlain (x : Binary f) : Prop where
  isNumber : x.isNaN = false
  ne_minusZero : x ≠ ⟨true, 0⟩

instance (x : Binary f) : Decidable x.IsPlain :=
  decidable_of_iff (x.isNaN = false ∧ x ≠ ⟨true, 0⟩) ⟨fun h => ⟨h.1, h.2⟩, fun h => ⟨h.1, h.2⟩⟩

theorem isPlain_zero : (zero : Binary f).IsPlain := ⟨by simp [isNaN, zero], by simp [zero]⟩

/-- A plain number below zero is below it by rank. -/
theorem IsPlain.rank_pos (h : x.IsPlain) (hs : x.negative = true) : 0 < x.rank := by
  obtain ⟨s, r⟩ := x
  apply Nat.pos_of_ne_zero
  intro hr
  apply h.ne_minusZero
  simp only at hs hr
  rw [hs, hr]

/-- On plain numbers the two orders are one. -/
theorem lt_iff_totalKey_lt (hx : x.IsPlain) (hy : y.IsPlain) :
    x.lt y = true ↔ x.totalKey < y.totalKey := by
  have hrx := hx.rank_pos
  have hry := hy.rank_pos
  rw [lt_iff, and_iff_right hx.isNumber, and_iff_right hy.isNumber, numericKey, numericKey, totalKey,
    totalKey]
  cases hsx : x.negative <;> cases hsy : y.negative <;> simp [hsx, hsy] at hrx hry ⊢ <;> omega

/-- The two orders are one where one of the numbers is not a zero. -/
theorem totalKey_lt_iff_of_rank_ne_zero (h : x.rank ≠ 0 ∨ y.rank ≠ 0) :
    x.totalKey < y.totalKey ↔ x.numericKey < y.numericKey := by
  obtain ⟨sx, rx⟩ := x
  obtain ⟨sy, ry⟩ := y
  cases sx <;> cases sy <;> simp [totalKey, numericKey] at h ⊢ <;> omega

/-- Numbers of one value are equal unless they are zeros. -/
theorem eq_of_numericKey_eq (hy : y.rank ≠ 0) (h : x.numericKey = y.numericKey) : x = y := by
  apply totalKey_inj
  have hlt := totalKey_lt_iff_of_rank_ne_zero (x := x) (Or.inr hy)
  have hgt := totalKey_lt_iff_of_rank_ne_zero (y := x) (Or.inl hy)
  omega

/-- Plain numbers of which neither is below the other are equal. -/
theorem IsPlain.eq_of_not_lt (hx : x.IsPlain) (hy : y.IsPlain) (hxy : x.lt y = false)
    (hyx : y.lt x = false) : x = y := by
  rcases eq_or_zeros_of_not_lt hx.isNumber hy.isNumber hxy hyx with heq | ⟨-, hzero⟩ | ⟨hzero, -⟩
  · exact heq
  · exact absurd hzero hy.ne_minusZero
  · exact absurd hzero hx.ne_minusZero

/-! ## Ranges in the two orders -/

theorem le_iff :
    x.le y = true ↔ x.isNaN = false ∧ y.isNaN = false ∧ x.numericKey ≤ y.numericKey := by
  simp [le, and_assoc]

/-- Of two values the total order says what their order says, but that zero is not at most minus zero. -/
theorem totalKey_le_iff_le (hx : x.isNaN = false) (hy : y.isNaN = false) :
    x.totalKey ≤ y.totalKey ↔ x.le y = true ∧ ¬ (x = ⟨false, 0⟩ ∧ y = ⟨true, 0⟩) := by
  rw [le_iff, and_iff_right hx, and_iff_right hy]
  obtain ⟨sx, rx⟩ := x
  obtain ⟨sy, ry⟩ := y
  cases sx <;> cases sy <;> simp [totalKey, numericKey] <;> omega

/-- What is no number is outside of every range of the total order whose ends are values. -/
theorem not_between_of_isNaN {low high : Binary f} (hlow : low.isNaN = false) (hhigh : high.isNaN = false)
    (hx : x.isNaN = true) : ¬ (low.totalKey ≤ x.totalKey ∧ x.totalKey ≤ high.totalKey) := by
  simp only [isNaN, decide_eq_false_iff_not, decide_eq_true_eq] at hlow hhigh hx
  obtain ⟨sl, rl⟩ := low
  obtain ⟨sh, rh⟩ := high
  obtain ⟨sx, rx⟩ := x
  intro hbetween
  cases sl <;> cases sh <;> cases sx <;> simp [totalKey] at hbetween hlow hhigh hx <;> omega

/-- A zero at an end of a range that is the other zero: within the range as a value, and outside of it in the
total order. -/
def IsCutOff (low x high : Binary f) : Prop :=
  low = ⟨false, 0⟩ ∧ x = ⟨true, 0⟩ ∨ x = ⟨false, 0⟩ ∧ high = ⟨true, 0⟩

/-- A range whose ends are values holds the same numbers in both orders, but for a zero that is cut off. -/
theorem between_totalKey_iff {low high : Binary f} (hlow : low.isNaN = false) (hhigh : high.isNaN = false) :
    low.totalKey ≤ x.totalKey ∧ x.totalKey ≤ high.totalKey ↔
      (low.le x = true ∧ x.le high = true) ∧ ¬ IsCutOff low x high := by
  rw [IsCutOff, not_or]
  cases hx : x.isNaN with
  | false =>
      rw [totalKey_le_iff_le hlow hx, totalKey_le_iff_le hx hhigh]
      exact and_and_and_comm
  | true =>
      apply iff_of_false (not_between_of_isNaN hlow hhigh hx)
      rintro ⟨⟨hle, -⟩, -⟩
      rw [(le_iff.1 hle).2.1] at hx
      cases hx

end Binary

end EventFinder
