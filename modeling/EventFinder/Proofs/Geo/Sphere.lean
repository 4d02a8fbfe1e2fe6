import Mathlib.Analysis.Convex.SpecificFunctions.Deriv
import Mathlib.Analysis.InnerProductSpace.PiL2
import Mathlib.Geometry.Euclidean.Angle.Unoriented.Basic
import EventFinder.Geo

/-!
# The globe in real numbers

Angles computed with real numbers are exact, and the points of the globe are the unit vectors they are seen in
from the center of the earth. The angle between two points follows the law of cosines (`cos_angle_position`): it is
no less than the difference of their latitudes (`abs_sub_le_angle`). Off the equator a circle reaches farther east
than its angle over the cosine of the latitude says (`div_cos_lt_arcsin`), and it touches a meridian there
(`touches_meridian`).
-/

set_option autoImplicit false

namespace EventFinder

open Real

noncomputable instance : GeoScalar ℝ where
  ofWhole n := n
  pi := π
  cosine := cos
  below x y := decide (x < y)
  atMost x y := decide (x ≤ y)
  lesser := min
  greater := max

namespace Geo

/-! ## Degrees and radians -/

theorem toRadians_eq (x : ℝ) : toRadians x = x * (π / 180) := rfl

theorem toDegrees_eq (x : ℝ) : toDegrees x = x * (180 / π) := rfl

@[simp] theorem toRadians_toDegrees (x : ℝ) : toRadians (toDegrees x) = x := by
  rw [toRadians_eq, toDegrees_eq]
  field_simp

theorem toRadians_sub (x y : ℝ) : toRadians (x - y) = toRadians x - toRadians y := by
  simp only [toRadians_eq]
  ring

@[simp] theorem toRadians_zero : toRadians (0 : ℝ) = 0 := zero_mul _

theorem toRadians_div (x y : ℝ) : toRadians (x / y) = toRadians x / y := div_mul_eq_mul_div x y _

theorem toRadians_neg (x : ℝ) : toRadians (-x) = -toRadians x := neg_mul _ _

@[simp] theorem toRadians_halfTurn : toRadians (180 : ℝ) = π := by
  rw [toRadians_eq]
  ring

@[simp] theorem toRadians_rightAngle : toRadians (90 : ℝ) = π / 2 := by
  rw [toRadians_eq]
  ring

@[simp] theorem toRadians_turn : toRadians (360 : ℝ) = 2 * π := by
  rw [toRadians_eq]
  ring

theorem toRadians_le_iff {x y : ℝ} : toRadians x ≤ toRadians y ↔ x ≤ y := by
  rw [toRadians_eq, toRadians_eq, mul_le_mul_iff_left₀ (by positivity)]

theorem toRadians_lt_iff {x y : ℝ} : toRadians x < toRadians y ↔ x < y := by
  rw [toRadians_eq, toRadians_eq, mul_lt_mul_iff_left₀ (by positivity)]

theorem toRadians_nonneg_iff {x : ℝ} : 0 ≤ toRadians x ↔ 0 ≤ x := by
  rw [toRadians_eq, mul_nonneg_iff_of_pos_right (by positivity)]

theorem toRadians_eq_zero_iff {x : ℝ} : toRadians x = 0 ↔ x = 0 := by
  rw [toRadians_eq, mul_eq_zero_iff_right (by positivity)]

theorem abs_toRadians (x : ℝ) : |toRadians x| = toRadians |x| := by
  rw [toRadians_eq, toRadians_eq, abs_mul, abs_of_pos (by positivity : 0 < π / 180)]

theorem toDegrees_le_iff {x y : ℝ} : toDegrees x ≤ y ↔ x ≤ toRadians y := by
  rw [← toRadians_le_iff, toRadians_toDegrees]

theorem toDegrees_nonneg_iff {x : ℝ} : 0 ≤ toDegrees x ↔ 0 ≤ x := by
  rw [← toRadians_nonneg_iff, toRadians_toDegrees]

/-- An angle that has a sine can be a latitude. -/
theorem abs_toDegrees_arcsin_le (x : ℝ) : |toDegrees (arcsin x)| ≤ 90 := by
  rw [← toRadians_le_iff, ← abs_toRadians, toRadians_toDegrees, toRadians_rightAngle, abs_le]
  exact arcsin_mem_Icc x

/-! ## Points and angles -/

/-- The unit vector of a point, seen from the center of the earth. -/
noncomputable def position (latitude longitude : ℝ) : EuclideanSpace ℝ (Fin 3) :=
  !₂[cos (toRadians latitude) * cos (toRadians longitude), cos (toRadians latitude) * sin (toRadians longitude),
    sin (toRadians latitude)]

/-- The great-circle distance of two points in kilometers. -/
noncomputable def distance (latitude longitude latitude' longitude' : ℝ) : ℝ :=
  earthRadius * InnerProductGeometry.angle (position latitude longitude) (position latitude' longitude')

variable {latitude longitude latitude' longitude' radius : ℝ}

theorem norm_position (latitude longitude : ℝ) : ‖position latitude longitude‖ = 1 := by
  have hlatitude := sin_sq_add_cos_sq (toRadians latitude)
  have hlongitude := sin_sq_add_cos_sq (toRadians longitude)
  rw [EuclideanSpace.norm_eq, sqrt_eq_one, Fin.sum_univ_three]
  simp only [norm_eq_abs, sq_abs]
  change (cos (toRadians latitude) * cos (toRadians longitude)) ^ 2 +
    (cos (toRadians latitude) * sin (toRadians longitude)) ^ 2 + sin (toRadians latitude) ^ 2 = 1
  linear_combination cos (toRadians latitude) ^ 2 * hlongitude + hlatitude

/-- The law of cosines on the sphere. -/
theorem cos_angle_position (latitude longitude latitude' longitude' : ℝ) :
    cos (InnerProductGeometry.angle (position latitude longitude) (position latitude' longitude')) =
      sin (toRadians latitude) * sin (toRadians latitude') +
        cos (toRadians latitude) * cos (toRadians latitude') * cos (toRadians (longitude' - longitude)) := by
  rw [InnerProductGeometry.cos_angle, norm_position, norm_position, toRadians_sub, cos_sub, mul_one, div_one,
    PiLp.inner_apply, Fin.sum_univ_three]
  simp only [position, RCLike.inner_apply, conj_trivial]
  change cos (toRadians latitude') * cos (toRadians longitude') *
      (cos (toRadians latitude) * cos (toRadians longitude)) +
    cos (toRadians latitude') * sin (toRadians longitude') * (cos (toRadians latitude) * sin (toRadians longitude)) +
    sin (toRadians latitude') * sin (toRadians latitude) = _
  ring

theorem toRadians_mem_of_abs_le (h : |latitude| ≤ 90) :
    toRadians latitude ∈ Set.Icc (-(π / 2)) (π / 2) := by
  rw [← toRadians_le_iff, toRadians_rightAngle, ← abs_toRadians] at h
  exact abs_le.1 h

/-- The pole that is nearest to a latitude. -/
theorem exists_pole (latitude : ℝ) :
    ∃ pole : ℝ, |pole| ≤ 90 ∧ cos (toRadians pole) = 0 ∧
      sin (toRadians latitude) * sin (toRadians pole) = sin |toRadians latitude| := by
  rcases le_total 0 (toRadians latitude) with hnorth | hsouth
  · refine ⟨90, by norm_num, ?_, ?_⟩ <;> rw [toRadians_rightAngle]
    · exact cos_pi_div_two
    · rw [sin_pi_div_two, mul_one, abs_of_nonneg hnorth]
  · refine ⟨-90, by norm_num, ?_, ?_⟩ <;> rw [toRadians_neg, toRadians_rightAngle]
    · rw [cos_neg, cos_pi_div_two]
    · rw [sin_neg, sin_pi_div_two, abs_of_nonpos hsouth, sin_neg, mul_neg, mul_one]

theorem cos_latitude_nonneg (h : |latitude| ≤ 90) : 0 ≤ cos (toRadians latitude) :=
  cos_nonneg_of_mem_Icc (toRadians_mem_of_abs_le h)

theorem earthRadius_pos : 0 < (earthRadius : ℝ) := by
  change (0 : ℝ) < 6371
  norm_num

/-- A circle of less than half a turn holds the points whose angle to the center has no smaller a cosine. -/
theorem distance_le_iff (hradius : 0 ≤ radius) (hturn : radius / earthRadius ≤ π) :
    distance latitude longitude latitude' longitude' ≤ radius ↔
      cos (radius / earthRadius) ≤ sin (toRadians latitude) * sin (toRadians latitude') +
        cos (toRadians latitude) * cos (toRadians latitude') * cos (toRadians (longitude' - longitude)) := by
  have harc : radius / earthRadius ∈ Set.Icc 0 π := ⟨div_nonneg hradius earthRadius_pos.le, hturn⟩
  rw [← cos_angle_position, strictAntiOn_cos.le_iff_ge harc
    ⟨InnerProductGeometry.angle_nonneg _ _, InnerProductGeometry.angle_le_pi _ _⟩, le_div_iff₀ earthRadius_pos,
    distance, mul_comm]

/-- Two points are no closer than the circles of latitude they are on. -/
theorem abs_sub_le_angle (h : |latitude| ≤ 90) (h' : |latitude'| ≤ 90) :
    toRadians |latitude' - latitude| ≤
      InnerProductGeometry.angle (position latitude longitude) (position latitude' longitude') := by
  have hturn : |latitude' - latitude| ≤ 180 := by
    rw [abs_le] at h h' ⊢
    constructor <;> linarith
  rw [← toRadians_le_iff, toRadians_halfTurn] at hturn
  rw [← strictAntiOn_cos.le_iff_ge ⟨InnerProductGeometry.angle_nonneg _ _, InnerProductGeometry.angle_le_pi _ _⟩
    ⟨abs_toRadians (latitude' - latitude) ▸ abs_nonneg _, hturn⟩, cos_angle_position, ← abs_toRadians, cos_abs,
    toRadians_sub latitude', cos_sub]
  have hcos : cos (toRadians latitude) * cos (toRadians latitude') * cos (toRadians (longitude' - longitude)) ≤
      cos (toRadians latitude) * cos (toRadians latitude') :=
    mul_le_of_le_one_right (mul_nonneg (cos_latitude_nonneg h) (cos_latitude_nonneg h')) (cos_le_one _)
  linarith

/-! ## How far east a circle reaches -/

/-- The sine is concave: an angle over a cosine falls short of the angle whose sine is that much larger. -/
theorem div_cos_lt_arcsin {c d : ℝ} (hc : 0 < c) (hone : c < 1) (hd : 0 < d) (hright : d ≤ π / 2)
    (hsin : sin d ≤ c) : d / c < arcsin (sin d / c) := by
  have hpos : 0 < sin d / c := div_pos (sin_pos_of_pos_of_lt_pi hd (by linarith [pi_pos])) hc
  have hx : 0 < arcsin (sin d / c) := arcsin_pos.2 hpos
  have hlt := strictConcaveOn_sin_Icc.2 ⟨hx.le, by linarith [arcsin_le_pi_div_two (sin d / c), pi_pos]⟩
    ⟨le_rfl, pi_pos.le⟩ hx.ne' hc (sub_pos.2 hone) (by ring)
  simp only [smul_eq_mul, sin_zero, mul_zero, add_zero] at hlt
  rw [sin_arcsin (by linarith) ((div_le_one hc).2 hsin), mul_div_cancel₀ _ hc.ne'] at hlt
  -- The sine of the smaller angle is not below that of the larger one.
  rw [div_lt_iff₀ hc, mul_comm]
  by_contra hle
  apply hlt.not_ge
  apply sin_le_sin_of_le_of_le_pi_div_two _ hright (not_lt.1 hle)
  have hpositive := mul_pos hc hx
  linarith

theorem abs_sin_le_cos {x y : ℝ} (h : |x| + |y| ≤ π / 2) : |sin x| ≤ cos y := by
  have hx := abs_le.1 (le_sub_iff_add_le.2 h)
  rw [← cos_abs y, ← sin_pi_div_two_sub, abs_le, ← sin_neg]
  have hy := abs_nonneg y
  constructor
  · exact sin_le_sin_of_le_of_le_pi_div_two (by linarith) (by linarith) hx.1
  · exact sin_le_sin_of_le_of_le_pi_div_two (by linarith) (by linarith) hx.2

theorem cos_arcsin_div_mul_cos {x y : ℝ} (hpos : 0 < cos y) :
    cos (arcsin (sin x / cos y)) * cos y = √(cos y ^ 2 - sin x ^ 2) := by
  rw [cos_arcsin, ← sqrt_sq hpos.le, ← sqrt_mul' _ (sq_nonneg _), sqrt_sq hpos.le, sub_mul, one_mul, ← mul_pow,
    div_mul_cancel₀ _ hpos.ne']

/-- A circle that does not reach a pole touches the meridian whose angle has the sine of the radius over the cosine
of the latitude. -/
theorem touches_meridian {φ d : ℝ} (hpole : |φ| + |d| < π / 2) :
    sin φ * sin (arcsin (sin φ / cos d)) +
      cos φ * cos (arcsin (sin φ / cos d)) * cos (arcsin (sin d / cos φ)) = cos d := by
  have hφ : 0 < cos φ :=
    cos_pos_of_mem_Ioo (abs_lt.1 (lt_of_le_of_lt (le_add_of_nonneg_right (abs_nonneg d)) hpole))
  have hd : 0 < cos d :=
    cos_pos_of_mem_Ioo (abs_lt.1 (lt_of_le_of_lt (le_add_of_nonneg_left (abs_nonneg φ)) hpole))
  have hsin := abs_le.1 (abs_sin_le_cos hpole.le)
  have hroom : 0 ≤ cos d ^ 2 - sin φ ^ 2 := sub_nonneg.2 (sq_le_sq' hsin.1 hsin.2)
  have hsame : cos φ ^ 2 - sin d ^ 2 = cos d ^ 2 - sin φ ^ 2 := by
    linarith [sin_sq_add_cos_sq φ, sin_sq_add_cos_sq d]
  -- Both cosines are one root over the cosines that the sines are divided by.
  have hproduct : cos φ * cos (arcsin (sin φ / cos d)) * cos (arcsin (sin d / cos φ)) * cos d =
      cos d ^ 2 - sin φ ^ 2 := by
    calc
      _ = cos (arcsin (sin φ / cos d)) * cos d * (cos (arcsin (sin d / cos φ)) * cos φ) := by ring
      _ = cos d ^ 2 - sin φ ^ 2 := by
        rw [cos_arcsin_div_mul_cos hd, cos_arcsin_div_mul_cos hφ, hsame, mul_self_sqrt hroom]
  rw [sin_arcsin (by rw [le_div_iff₀ hd]; linarith) ((div_le_one hd).2 hsin.2)]
  apply mul_right_cancel₀ hd.ne'
  rw [add_mul, hproduct, mul_assoc, div_mul_cancel₀ _ hd.ne']
  ring

end Geo

end EventFinder
