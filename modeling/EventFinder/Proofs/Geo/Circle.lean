import EventFinder.Proofs.Geo.Sphere

/-!
# The box around a circle

In exact arithmetic the box around a circle reaches far enough north and south (`abs_sub_latitude_le`), and east
and west only where it is a whole turn wide, or where the circle is a point or lies at the equator and reaches no
pole; there it must also stay clear of the meridian opposite to Greenwich, whose points have two longitudes
(`around_encloses_iff`).
-/

set_option autoImplicit false

namespace EventFinder

open Real

namespace Geo

variable {latitude longitude longitude' radius : ℝ}

/-! ## How far the box reaches -/

theorem toRadians_latitudeReach (radius : ℝ) : toRadians (latitudeReach radius) = radius / earthRadius :=
  toRadians_toDegrees _

theorem longitudeReach_eq (latitude radius : ℝ) :
    longitudeReach latitude radius =
      if leastCosine < cos (toRadians latitude) then
        min (latitudeReach radius / cos (toRadians latitude)) 180
      else 180 := by
  simp only [longitudeReach, GeoScalar.below, decide_eq_true_eq]
  rfl

theorem longitudeReach_le (latitude radius : ℝ) : longitudeReach latitude radius ≤ 180 := by
  rw [longitudeReach_eq]
  split
  · exact min_le_right _ _
  · exact le_rfl

theorem leastCosine_pos : 0 < (leastCosine : ℝ) :=
  div_pos (Nat.cast_pos.2 Nat.one_pos) (Nat.cast_pos.2 (twoPow_pos 52))

theorem latitudeReach_nonneg (hradius : 0 ≤ radius) : 0 ≤ latitudeReach radius := by
  rw [← toRadians_nonneg_iff, toRadians_latitudeReach]
  exact div_nonneg hradius earthRadius_pos.le

/-- A box that is less than a whole turn wide is wider the closer to a pole. -/
theorem longitudeReach_of_lt (h : longitudeReach latitude radius < 180) :
    0 < cos (toRadians latitude) ∧
      longitudeReach latitude radius = latitudeReach radius / cos (toRadians latitude) := by
  rw [longitudeReach_eq] at h ⊢
  split at h
  · rename_i hcos
    rw [if_pos hcos, min_eq_left_of_lt (lt_of_not_ge fun hle => by rw [min_eq_right hle] at h; exact h.false)]
    exact ⟨leastCosine_pos.trans hcos, rfl⟩
  · exact absurd h (lt_irrefl _)

/-- A circle with such a box reaches less than half a turn. -/
theorem latitudeReach_lt (hradius : 0 ≤ radius) (h : longitudeReach latitude radius < 180) :
    latitudeReach radius < 180 := by
  obtain ⟨hcos, heq⟩ := longitudeReach_of_lt h
  rw [heq] at h
  have hle : latitudeReach radius ≤ latitudeReach radius / cos (toRadians latitude) :=
    le_div_self (latitudeReach_nonneg hradius) hcos (cos_le_one _)
  exact hle.trans_lt h

theorem longitudeReach_nonneg (latitude : ℝ) (hradius : 0 ≤ radius) : 0 ≤ longitudeReach latitude radius := by
  rw [longitudeReach_eq]
  split
  · rename_i hcos
    exact le_min (div_nonneg (latitudeReach_nonneg hradius) (leastCosine_pos.trans hcos).le) (by norm_num)
  · norm_num

/-! ## Longitudes -/

/-- Across the meridian opposite to Greenwich a longitude is a whole turn off. -/
theorem exists_longitude_across {t : ℝ} (h : |longitude| ≤ 180) (hhalf : t ≤ 180)
    (hacross : longitude - t ≤ -180 ∨ 180 ≤ longitude + t) :
    ∃ longitude', |longitude'| ≤ 180 ∧ |longitude' - longitude| = 360 - t ∧
      cos (toRadians (longitude' - longitude)) = cos (toRadians t) := by
  obtain ⟨hwest, heast⟩ := abs_le.1 h
  rcases hacross with hacross | hacross
  · refine ⟨longitude - t + 360, abs_le.2 ⟨by linarith, by linarith⟩, ?_, ?_⟩
    · rw [abs_of_nonneg (by linarith)]
      ring
    · rw [show longitude - t + 360 - longitude = 360 - t by ring, toRadians_sub, toRadians_turn, cos_two_pi_sub]
  · refine ⟨longitude + t - 360, abs_le.2 ⟨by linarith, by linarith⟩, ?_, ?_⟩
    · rw [abs_of_nonpos (by linarith)]
      ring
    · rw [show longitude + t - 360 - longitude = t - 360 by ring, toRadians_sub, toRadians_turn, cos_sub_two_pi]

/-- From every longitude there is one at every angle up to half a turn. -/
theorem exists_longitude_at {t : ℝ} (h : |longitude| ≤ 180) (ht : 0 ≤ t) (hhalf : t ≤ 180) :
    ∃ longitude', |longitude'| ≤ 180 ∧ t ≤ |longitude' - longitude| ∧
      cos (toRadians (longitude' - longitude)) = cos (toRadians t) := by
  obtain ⟨hwest, heast⟩ := abs_le.1 h
  rcases le_or_gt 180 (longitude + t) with hacross | hroom
  · obtain ⟨longitude', hrange, habs, hcos⟩ := exists_longitude_across h hhalf (Or.inr hacross)
    exact ⟨longitude', hrange, by linarith, hcos⟩
  · refine ⟨longitude + t, abs_le.2 ⟨by linarith, hroom.le⟩, ?_, ?_⟩ <;> rw [add_sub_cancel_left]
    exact le_abs_self t

/-- Clear of the meridian opposite to Greenwich the longitudes within an angle are those whose angle has no smaller
a cosine. -/
theorem abs_sub_longitude_le {t : ℝ} (h' : |longitude'| ≤ 180) (ht : 0 ≤ t) (hwest : -180 < longitude - t)
    (heast : longitude + t < 180) (hcos : cos (toRadians t) ≤ cos (toRadians (longitude' - longitude))) :
    |longitude' - longitude| ≤ t := by
  obtain ⟨hwest', heast'⟩ := abs_le.1 h'
  by_contra hout
  have hturn : |longitude' - longitude| < 360 - t := abs_lt.2 ⟨by linarith, by linarith⟩
  have hout := toRadians_lt_iff.2 (not_le.1 hout)
  have hturn := toRadians_lt_iff.2 hturn
  rw [toRadians_sub, toRadians_turn] at hturn
  rw [← cos_abs (toRadians (longitude' - longitude)), abs_toRadians] at hcos
  have ht := toRadians_nonneg_iff.2 ht
  -- On the far half of the circle the angle is measured the other way round.
  rcases le_or_gt (toRadians |longitude' - longitude|) π with hnear | hfar
  · exact (cos_lt_cos_of_nonneg_of_le_pi ht hnear hout).not_ge hcos
  · rw [← cos_two_pi_sub (toRadians |longitude' - longitude|)] at hcos
    exact (cos_lt_cos_of_nonneg_of_le_pi ht (by linarith) (by linarith)).not_ge hcos

end Geo

namespace BoundingBox

open Geo

variable {latitude longitude latitude' longitude' radius : ℝ}

theorem contains_around_iff (h : |latitude'| ≤ 90) (h' : |longitude'| ≤ 180) :
    (around latitude longitude radius).contains latitude' longitude' = true ↔
      |latitude' - latitude| ≤ latitudeReach radius ∧
        |longitude' - longitude| ≤ longitudeReach latitude radius := by
  obtain ⟨hsouth, hnorth⟩ := abs_le.1 h
  obtain ⟨hwest, heast⟩ := abs_le.1 h'
  simp only [contains, around, GeoScalar.atMost, GeoScalar.greater, GeoScalar.lesser, Bool.and_eq_true,
    decide_eq_true_eq, max_le_iff, le_min_iff, abs_le]
  change ((_ ∧ -90 ≤ latitude') ∧ _ ∧ latitude' ≤ 90) ∧ (_ ∧ -180 ≤ longitude') ∧ _ ∧ longitude' ≤ 180 ↔ _
  simp only [hsouth, hnorth, hwest, heast, and_true]
  constructor
  · rintro ⟨⟨h1, h2⟩, h3, h4⟩
    exact ⟨by constructor <;> linarith, by constructor <;> linarith⟩
  · rintro ⟨⟨h1, h2⟩, h3, h4⟩
    exact ⟨by constructor <;> linarith, by constructor <;> linarith⟩

/-- The points of the globe within a distance of a center are in the box. -/
def Encloses (box : BoundingBox ℝ) (latitude longitude radius : ℝ) : Prop :=
  ∀ latitude' longitude' : ℝ, |latitude'| ≤ 90 → |longitude'| ≤ 180 →
    distance latitude longitude latitude' longitude' ≤ radius → box.contains latitude' longitude' = true

/-- The box reaches far enough north and south. -/
theorem abs_sub_latitude_le (h : |latitude| ≤ 90) (h' : |latitude'| ≤ 90)
    (hin : distance latitude longitude latitude' longitude' ≤ radius) :
    |latitude' - latitude| ≤ latitudeReach radius := by
  rw [distance, mul_comm, ← le_div_iff₀ earthRadius_pos] at hin
  rw [← toRadians_le_iff, toRadians_latitudeReach]
  exact (abs_sub_le_angle h h').trans hin

theorem encloses_around_iff (h : |latitude| ≤ 90) :
    (around latitude longitude radius).Encloses latitude longitude radius ↔
      ∀ latitude' longitude' : ℝ, |latitude'| ≤ 90 → |longitude'| ≤ 180 →
        distance latitude longitude latitude' longitude' ≤ radius →
          |longitude' - longitude| ≤ longitudeReach latitude radius := by
  constructor
  · intro hall latitude' longitude' hlatitude hlongitude hin
    exact ((contains_around_iff hlatitude hlongitude).1 (hall _ _ hlatitude hlongitude hin)).2
  · intro hall latitude' longitude' hlatitude hlongitude hin
    exact (contains_around_iff hlatitude hlongitude).2
      ⟨abs_sub_latitude_le h hlatitude hin, hall _ _ hlatitude hlongitude hin⟩

section Narrow

variable (hlatitude : |latitude| ≤ 90) (hlongitude : |longitude| ≤ 180) (hradius : 0 ≤ radius)
  (hnarrow : longitudeReach latitude radius < 180)

include hradius hnarrow in
theorem arc_lt_pi : radius / earthRadius < π := by
  rw [← toRadians_latitudeReach, ← toRadians_halfTurn, toRadians_lt_iff]
  exact latitudeReach_lt hradius hnarrow

include hlatitude hradius hnarrow in
/-- A point in the circle that is farther east or west than the box. -/
theorem not_encloses_of_point (hrange : |latitude'| ≤ 90) (hrange' : |longitude'| ≤ 180)
    (hin : cos (radius / earthRadius) ≤ sin (toRadians latitude) * sin (toRadians latitude') +
      cos (toRadians latitude) * cos (toRadians latitude') * cos (toRadians (longitude' - longitude)))
    (hout : longitudeReach latitude radius < |longitude' - longitude|) :
    ¬ (around latitude longitude radius).Encloses latitude longitude radius := by
  rw [encloses_around_iff hlatitude]
  intro hall
  have hdistance := (distance_le_iff hradius (arc_lt_pi hradius hnarrow).le).2 hin
  exact hout.not_ge (hall _ _ hrange hrange' hdistance)

include hlatitude hlongitude hradius hnarrow in
/-- A pole has all longitudes. -/
theorem not_encloses_of_pole (hpole : π / 2 ≤ |toRadians latitude| + radius / earthRadius) :
    ¬ (around latitude longitude radius).Encloses latitude longitude radius := by
  obtain ⟨longitude', hrange, hfar, -⟩ := exists_longitude_at hlongitude (by norm_num : (0 : ℝ) ≤ 180) le_rfl
  obtain ⟨pole, hpole', hcos, hsin⟩ := exists_pole latitude
  apply not_encloses_of_point hlatitude hradius hnarrow hpole' hrange _ (hnarrow.trans_le hfar)
  rw [hsin, hcos, mul_zero, zero_mul, add_zero, ← cos_pi_div_two_sub]
  have hright : |toRadians latitude| ≤ π / 2 := abs_le.2 (toRadians_mem_of_abs_le hlatitude)
  exact cos_le_cos_of_nonneg_of_le_pi (by linarith) (arc_lt_pi hradius hnarrow).le (by linarith)

include hlatitude hlongitude hnarrow in
/-- Off the equator a circle that reaches no pole reaches farther east and west than its box. -/
theorem not_encloses_of_tangent (hpos : 0 < radius) (hequator : latitude ≠ 0)
    (hpole : |toRadians latitude| + radius / earthRadius < π / 2) :
    ¬ (around latitude longitude radius).Encloses latitude longitude radius := by
  obtain ⟨hcos, hreach⟩ := longitudeReach_of_lt hnarrow
  have harc : 0 < radius / earthRadius := div_pos hpos earthRadius_pos
  have habs : |radius / earthRadius| = radius / earthRadius := abs_of_pos harc
  have hφ := abs_nonneg (toRadians latitude)
  have hone : cos (toRadians latitude) < 1 := by
    apply lt_of_le_of_ne (cos_le_one _)
    have hturn := abs_lt.1 (by linarith [pi_pos] : |toRadians latitude| < 2 * π)
    rw [ne_eq, cos_eq_one_iff_of_lt_of_lt hturn.1 hturn.2, toRadians_eq_zero_iff]
    exact hequator
  have hsin : sin (radius / earthRadius) ≤ cos (toRadians latitude) :=
    (le_abs_self _).trans (abs_sin_le_cos (by linarith))
  -- The meridian that the circle touches is outside of the box.
  have hout := div_cos_lt_arcsin hcos hone harc (by linarith) hsin
  have hright := arcsin_le_pi_div_two (sin (radius / earthRadius) / cos (toRadians latitude))
  obtain ⟨longitude', hrange, hfar, hturn⟩ := exists_longitude_at hlongitude
    (toDegrees_nonneg_iff.2 ((div_pos harc hcos).trans hout).le)
    (toDegrees_le_iff.2 (hright.trans (by rw [toRadians_halfTurn]; linarith [pi_pos])))
  apply not_encloses_of_point hlatitude hpos.le hnarrow
    (abs_toDegrees_arcsin_le (sin (toRadians latitude) / cos (radius / earthRadius))) hrange
  · rw [hturn, toRadians_toDegrees, toRadians_toDegrees, touches_meridian (by rwa [habs])]
  · apply lt_of_lt_of_le _ hfar
    rw [hreach, ← toRadians_lt_iff, toRadians_toDegrees, toRadians_div, toRadians_latitudeReach]
    exact hout

/-- A circle that is a point, or that is around a point of the equator, is as wide as its box at the latitude of its
center. -/
theorem cos_arc_of_place (hnarrow : longitudeReach latitude radius < 180) (hplace : radius = 0 ∨ latitude = 0) :
    sin (toRadians latitude) * sin (toRadians latitude) +
      cos (toRadians latitude) * cos (toRadians latitude) * cos (toRadians (longitudeReach latitude radius)) =
        cos (radius / earthRadius) := by
  rw [(longitudeReach_of_lt hnarrow).2, toRadians_div, toRadians_latitudeReach]
  rcases hplace with rfl | rfl
  · rw [zero_div, zero_div, cos_zero, mul_one, ← sq, ← sq, sin_sq_add_cos_sq]
  · rw [toRadians_zero, sin_zero, cos_zero, mul_zero, zero_add, mul_one, one_mul, div_one]

include hlatitude hlongitude hradius hnarrow in
/-- A point at the opposite meridian has two longitudes. -/
theorem not_encloses_of_edge (hplace : radius = 0 ∨ latitude = 0)
    (hedge : longitude - longitudeReach latitude radius = -180 ∨ longitude + longitudeReach latitude radius = 180) :
    ¬ (around latitude longitude radius).Encloses latitude longitude radius := by
  obtain ⟨longitude', hrange, hfar, hcos⟩ :=
    exists_longitude_across hlongitude hnarrow.le (hedge.imp le_of_eq ge_of_eq)
  apply not_encloses_of_point hlatitude hradius hnarrow hlatitude hrange
  · rw [hcos, cos_arc_of_place hnarrow hplace]
  · linarith

include hlatitude hradius hnarrow in
/-- At such a place no point of the circle is farther east or west than its box, as far as the cosine tells. -/
theorem cos_longitudeReach_le (hplace : radius = 0 ∨ latitude = 0 ∧ latitudeReach radius < 90)
    (hrange : |latitude'| ≤ 90) (hin : distance latitude longitude latitude' longitude' ≤ radius) :
    cos (toRadians (longitudeReach latitude radius)) ≤ cos (toRadians (longitude' - longitude)) := by
  obtain ⟨hwide, hreach⟩ := longitudeReach_of_lt hnarrow
  have hcos := (distance_le_iff hradius (arc_lt_pi hradius hnarrow).le).1 hin
  rw [hreach, toRadians_div, toRadians_latitudeReach]
  rcases hplace with rfl | ⟨rfl, hright⟩
  · -- The point is at the latitude of the center.
    have hsame := abs_sub_latitude_le hlatitude hrange hin
    rw [← toRadians_le_iff, toRadians_latitudeReach, zero_div, ← abs_toRadians, abs_nonpos_iff, toRadians_sub,
      sub_eq_zero] at hsame
    rw [zero_div, cos_zero, hsame] at hcos
    have hsquares := sin_sq_add_cos_sq (toRadians latitude)
    rw [zero_div, zero_div, cos_zero]
    apply le_of_mul_le_mul_left _ (mul_pos hwide hwide)
    linarith
  · -- On the near half of the globe a point off the equator is farther away than the one below it.
    rw [toRadians_zero, sin_zero, cos_zero, zero_mul, zero_add, one_mul] at hcos
    rw [← toRadians_lt_iff, toRadians_latitudeReach, toRadians_rightAngle] at hright
    have hpos : 0 < cos (radius / earthRadius) :=
      cos_pos_of_mem_Ioo ⟨by linarith [div_nonneg hradius earthRadius_pos.le, pi_pos], hright⟩
    have hfront : 0 ≤ cos (toRadians (longitude' - longitude)) :=
      (pos_of_mul_pos_right (hpos.trans_le hcos) (cos_latitude_nonneg hrange)).le
    rw [toRadians_zero, cos_zero, div_one]
    exact hcos.trans (mul_le_of_le_one_left hfront (cos_le_one _))

include hlatitude hradius hnarrow in
theorem encloses_of_clear (hplace : radius = 0 ∨ latitude = 0 ∧ latitudeReach radius < 90)
    (hwest : -180 < longitude - longitudeReach latitude radius)
    (heast : longitude + longitudeReach latitude radius < 180) :
    (around latitude longitude radius).Encloses latitude longitude radius := by
  rw [encloses_around_iff hlatitude]
  intro latitude' longitude' hrange hrange' hin
  exact abs_sub_longitude_le hrange' (longitudeReach_nonneg latitude hradius) hwest heast
    (cos_longitudeReach_le hlatitude hradius hnarrow hplace hrange hin)

include hlatitude hlongitude hradius hnarrow in
/-- A circle that is in its box is a point or at the equator, for every other one reaches a pole or too far east. -/
theorem place_of_encloses (hall : (around latitude longitude radius).Encloses latitude longitude radius) :
    radius = 0 ∨ latitude = 0 ∧ latitudeReach radius < 90 := by
  rcases le_or_gt (π / 2) (|toRadians latitude| + radius / earthRadius) with hpole | hpole
  · exact absurd hall (not_encloses_of_pole hlatitude hlongitude hradius hnarrow hpole)
  rcases hradius.eq_or_lt with hzero | hpos
  · exact Or.inl hzero.symm
  by_cases hequator : latitude = 0
  · rw [hequator, toRadians_zero, abs_zero, zero_add, ← toRadians_latitudeReach, ← toRadians_rightAngle,
      toRadians_lt_iff] at hpole
    exact Or.inr ⟨hequator, hpole⟩
  · exact absurd hall (not_encloses_of_tangent hlatitude hlongitude hnarrow hpos hequator hpole)

end Narrow

/-- A circle whose box does not reach across the meridian opposite to Greenwich is in its box just when the box is a
whole turn wide, or when the circle is a point, or is around a point of the equator and reaches no pole, and the box
stays clear of that meridian. -/
theorem around_encloses_iff (hlatitude : |latitude| ≤ 90) (hlongitude : |longitude| ≤ 180) (hradius : 0 ≤ radius)
    (hwest : -180 ≤ longitude - longitudeReach latitude radius)
    (heast : longitude + longitudeReach latitude radius ≤ 180) :
    (around latitude longitude radius).Encloses latitude longitude radius ↔
      longitudeReach latitude radius = 180 ∨
        (radius = 0 ∨ latitude = 0 ∧ latitudeReach radius < 90) ∧
          -180 < longitude - longitudeReach latitude radius ∧
          longitude + longitudeReach latitude radius < 180 := by
  rcases (longitudeReach_le latitude radius).eq_or_lt with hwhole | hnarrow
  · -- The box holds all longitudes.
    apply iff_of_true _ (Or.inl hwhole)
    rw [hwhole] at hwest heast
    rw [encloses_around_iff hlatitude]
    intro latitude' longitude' _ hrange _
    rw [hwhole, show longitude = 0 by linarith, sub_zero]
    exact hrange
  · rw [or_iff_right hnarrow.ne]
    constructor
    · intro hall
      have hplace := place_of_encloses hlatitude hlongitude hradius hnarrow hall
      have hpoint : radius = 0 ∨ latitude = 0 := hplace.imp_right And.left
      refine ⟨hplace, lt_of_le_of_ne hwest fun hedge => ?_, lt_of_le_of_ne heast fun hedge => ?_⟩
      · exact not_encloses_of_edge hlatitude hlongitude hradius hnarrow hpoint (Or.inl hedge.symm) hall
      · exact not_encloses_of_edge hlatitude hlongitude hradius hnarrow hpoint (Or.inr hedge) hall
    · rintro ⟨hplace, hclear, hclear'⟩
      exact encloses_of_clear hlatitude hradius hnarrow hplace hclear hclear'

/-- An eighth of a great circle in kilometers. -/
noncomputable def eighthTurn : ℝ := earthRadius * (π / 4)

theorem arc_eighthTurn : eighthTurn / earthRadius = π / 4 := mul_div_cancel_left₀ _ earthRadius_pos.ne'

theorem cos_sixty : cos (toRadians 60) = 1 / 2 := by
  rw [show toRadians (60 : ℝ) = π / 3 by rw [toRadians_eq]; ring, cos_pi_div_three]

theorem leastCosine_lt_cos_sixty : leastCosine < cos (toRadians 60) := by
  rw [cos_sixty]
  change ((1 : Nat) : ℝ) / ((4503599627370496 : Nat) : ℝ) < 1 / 2
  norm_num

/-- The box around the circle of an eighth of a turn at 60 degrees north reaches a quarter of a turn east. -/
theorem longitudeReach_eighthTurn : longitudeReach 60 eighthTurn = 90 := by
  have hreach : latitudeReach eighthTurn = 45 := by
    rw [latitudeReach, arc_eighthTurn, toDegrees_eq]
    field_simp
    norm_num
  rw [longitudeReach_eq, if_pos leastCosine_lt_cos_sixty, cos_sixty, hreach]
  norm_num

theorem eighthTurn_pos : 0 < eighthTurn := mul_pos earthRadius_pos (by positivity)

/-- From 60 degrees north it is no farther to a point behind the pole. -/
theorem distance_behind_pole_le : distance 60 0 75 120 ≤ eighthTurn := by
  have hthree : √3 * √3 = 3 := mul_self_sqrt (by norm_num)
  have hone : 1 ≤ √3 := one_le_sqrt.2 (by norm_num)
  have hmore : 0 ≤ √2 * (√3 - 1) := mul_nonneg (sqrt_nonneg 2) (sub_nonneg.2 hone)
  rw [distance_le_iff eighthTurn_pos.le (by rw [arc_eighthTurn]; linarith [pi_pos]), arc_eighthTurn, toRadians_eq,
    toRadians_eq, toRadians_eq, show (60 : ℝ) * (π / 180) = π / 3 by ring,
    show (75 : ℝ) * (π / 180) = π / 4 + π / 6 by ring, show (120 - 0 : ℝ) * (π / 180) = π - π / 3 by ring, sin_add,
    cos_add, cos_pi_sub, sin_pi_div_three, cos_pi_div_three, sin_pi_div_four, cos_pi_div_four, sin_pi_div_six,
    cos_pi_div_six]
  calc
    √2 / 2 ≤ √2 / 2 + √2 * (√3 - 1) / 16 := by linarith
    _ = √3 / 2 * (√2 / 2 * (√3 / 2) + √2 / 2 * (1 / 2)) +
        1 / 2 * (√2 / 2 * (√3 / 2) - √2 / 2 * (1 / 2)) * -(1 / 2) := by
      linear_combination (-(√2 / 8)) * hthree

/-- The circle reaches over the pole: a point at 75 degrees north and 120 degrees east is in it and not in the box. -/
theorem around_misses_behind_pole :
    ¬ (around 60 0 eighthTurn).Encloses 60 0 eighthTurn ∧
      distance 60 0 75 120 ≤ eighthTurn ∧ (around 60 0 eighthTurn).contains 75 120 = false := by
  refine ⟨fun hall => ?_, ?_, ?_⟩
  · have hwest : -180 ≤ 0 - longitudeReach 60 eighthTurn := by
      rw [longitudeReach_eighthTurn]
      norm_num
    have heast : 0 + longitudeReach 60 eighthTurn ≤ 180 := by
      rw [longitudeReach_eighthTurn]
      norm_num
    rcases (around_encloses_iff (by norm_num) (by norm_num) eighthTurn_pos.le hwest heast).1 hall with
      hwhole | ⟨hpoint | ⟨hequator, -⟩, -⟩
    · rw [longitudeReach_eighthTurn] at hwhole
      norm_num at hwhole
    · exact eighthTurn_pos.ne' hpoint
    · norm_num at hequator
  · exact distance_behind_pole_le
  · rw [← Bool.not_eq_true, contains_around_iff (by norm_num) (by norm_num), longitudeReach_eighthTurn]
    norm_num

end BoundingBox

end EventFinder
