import EventFinder.Proofs.Geo.Circle

/-!
# Boxes that grow with the circle

In exact arithmetic the box around a circle never leaves the world and always has the center in it, and a larger
circle has a box with all points of that of a smaller one (`contains_around_of_le`). A circle of no radius has a box of
one point (`contains_around_zero_iff`), unless its center is taken for a pole: there every box is as wide as the world
allows (`around_grows_in_world`).
-/

set_option autoImplicit false

namespace EventFinder

open Real

namespace Geo

variable {latitude radius : ℝ}

theorem latitudeReach_mono : Monotone (latitudeReach : ℝ → ℝ) := by
  intro radius radius' hle
  rw [latitudeReach, latitudeReach, toDegrees_le_iff, toRadians_toDegrees]
  exact div_le_div_of_nonneg_right hle earthRadius_pos.le

theorem longitudeReach_mono (latitude : ℝ) : Monotone (longitudeReach latitude) := by
  intro radius radius' hle
  rw [longitudeReach_eq, longitudeReach_eq]
  split
  · rename_i hcos
    exact min_le_min_right 180 (div_le_div_of_nonneg_right (latitudeReach_mono hle) (leastCosine_pos.trans hcos).le)
  · exact le_rfl

theorem latitudeReach_zero : latitudeReach (0 : ℝ) = 0 := by
  rw [latitudeReach, zero_div, toDegrees_eq, zero_mul]

theorem longitudeReach_zero (h : leastCosine < cos (toRadians latitude)) : longitudeReach latitude 0 = 0 := by
  rw [longitudeReach_eq, if_pos h, latitudeReach_zero, zero_div, min_eq_left (by norm_num)]

/-- At a pole every circle reaches half a turn to each side. -/
theorem longitudeReach_of_cos_le (h : cos (toRadians latitude) ≤ leastCosine) :
    longitudeReach latitude radius = 180 := by
  rw [longitudeReach_eq, if_neg h.not_gt]

end Geo

namespace BoundingBox

open Geo

/-- The box is a part of the world, with its sides in order. -/
structure InWorld (box : BoundingBox ℝ) : Prop where
  south : -90 ≤ box.south
  latitudes : box.south ≤ box.north
  north : box.north ≤ 90
  west : -180 ≤ box.west
  longitudes : box.west ≤ box.east
  east : box.east ≤ 180

variable {latitude longitude latitude' longitude' radius radius' : ℝ}

theorem contains_iff_le {box : BoundingBox ℝ} :
    box.contains latitude longitude = true ↔
      (box.south ≤ latitude ∧ latitude ≤ box.north) ∧ box.west ≤ longitude ∧ longitude ≤ box.east := by
  simp only [contains, GeoScalar.atMost, Bool.and_eq_true, decide_eq_true_eq]

theorem around_eq (latitude longitude radius : ℝ) :
    around latitude longitude radius =
      ⟨max (latitude - latitudeReach radius) (-90), max (longitude - longitudeReach latitude radius) (-180),
        min (latitude + latitudeReach radius) 90, min (longitude + longitudeReach latitude radius) 180⟩ := rfl

/-- Points that are not in the world are in no such box. -/
theorem abs_le_of_contains_around (h : (around latitude longitude radius).contains latitude' longitude' = true) :
    |latitude'| ≤ 90 ∧ |longitude'| ≤ 180 := by
  rw [contains_iff_le, around_eq] at h
  obtain ⟨⟨hsouth, hnorth⟩, hwest, heast⟩ := h
  exact ⟨abs_le.2 ⟨(le_max_right _ _).trans hsouth, hnorth.trans (min_le_right _ _)⟩,
    abs_le.2 ⟨(le_max_right _ _).trans hwest, heast.trans (min_le_right _ _)⟩⟩

/-- A larger circle has a larger box. -/
theorem contains_around_of_le (hle : radius ≤ radius')
    (h : (around latitude longitude radius).contains latitude' longitude' = true) :
    (around latitude longitude radius').contains latitude' longitude' = true := by
  -- Within the world a box is how far it reaches from the center.
  obtain ⟨hrange, hrange'⟩ := abs_le_of_contains_around h
  rw [contains_around_iff hrange hrange'] at h ⊢
  exact ⟨h.1.trans (latitudeReach_mono hle), h.2.trans (longitudeReach_mono latitude hle)⟩

section Center

variable (hlatitude : |latitude| ≤ 90) (hlongitude : |longitude| ≤ 180)
include hlatitude hlongitude

theorem contains_center (hradius : 0 ≤ radius) :
    (around latitude longitude radius).contains latitude longitude = true := by
  rw [contains_around_iff hlatitude hlongitude, sub_self, sub_self, abs_zero]
  exact ⟨latitudeReach_nonneg hradius, longitudeReach_nonneg latitude hradius⟩

theorem inWorld_around (hradius : 0 ≤ radius) : (around latitude longitude radius).InWorld := by
  obtain ⟨⟨hsouth, hnorth⟩, hwest, heast⟩ := contains_iff_le.1 (contains_center hlatitude hlongitude hradius)
  exact {
    south := le_max_right _ _
    latitudes := hsouth.trans hnorth
    north := min_le_right _ _
    west := le_max_right _ _
    longitudes := hwest.trans heast
    east := min_le_right _ _ }

/-- Away from the poles the circle of no radius has a box of one point. -/
theorem contains_around_zero_iff (h : leastCosine < cos (toRadians latitude)) :
    (around latitude longitude 0).contains latitude' longitude' = true ↔
      latitude' = latitude ∧ longitude' = longitude := by
  constructor
  · intro hin
    obtain ⟨hrange, hrange'⟩ := abs_le_of_contains_around hin
    rw [contains_around_iff hrange hrange', latitudeReach_zero, longitudeReach_zero h, abs_nonpos_iff, abs_nonpos_iff,
      sub_eq_zero, sub_eq_zero] at hin
    exact hin
  · rintro ⟨rfl, rfl⟩
    exact contains_center hlatitude hlongitude le_rfl

end Center

/-- The box around a circle lies in the world and has the center in it, and the boxes of larger circles have all of its
points. That of a circle of no radius has no point but the center, if the cosine of the latitude is above the least one;
if it is not, every box reaches half a turn to each side, or to the meridian opposite to Greenwich if that is nearer. -/
theorem around_grows_in_world (hlatitude : |latitude| ≤ 90) (hlongitude : |longitude| ≤ 180) (hradius : 0 ≤ radius)
    (hle : radius ≤ radius') :
    (around latitude longitude radius).InWorld ∧
      (around latitude longitude radius).contains latitude longitude = true ∧
      (∀ latitude' longitude', (around latitude longitude radius).contains latitude' longitude' = true →
        (around latitude longitude radius').contains latitude' longitude' = true) ∧
      (leastCosine < cos (toRadians latitude) → ∀ latitude' longitude',
        (around latitude longitude 0).contains latitude' longitude' = true ↔
          latitude' = latitude ∧ longitude' = longitude) ∧
      (cos (toRadians latitude) ≤ leastCosine →
        (around latitude longitude radius).west = max (longitude - 180) (-180) ∧
          (around latitude longitude radius).east = min (longitude + 180) 180) := by
  refine ⟨inWorld_around hlatitude hlongitude hradius, contains_center hlatitude hlongitude hradius,
    fun _ _ => contains_around_of_le hle, fun hcos _ _ => contains_around_zero_iff hlatitude hlongitude hcos,
    fun hcos => ?_⟩
  rw [around_eq, longitudeReach_of_cos_le hcos]
  exact ⟨rfl, rfl⟩

/-- At the north pole the box of a point is half of the world wide, and it is in that of a larger circle; at 60 degrees
north it is a point. -/
theorem around_grows_from_pole :
    ((around (90 : ℝ) 120 0).west = -60 ∧ (around (90 : ℝ) 120 0).east = 180) ∧
      (around (90 : ℝ) 120 10).contains 90 (-60) = true ∧
      ∀ latitude' longitude', (around (60 : ℝ) (-170) 0).contains latitude' longitude' = true ↔
        latitude' = 60 ∧ longitude' = -170 := by
  have hpole : cos (toRadians 90) ≤ leastCosine := by
    rw [toRadians_rightAngle, cos_pi_div_two]
    exact leastCosine_pos.le
  obtain ⟨-, hcenter, hgrows, -, hwide⟩ :=
    around_grows_in_world (by norm_num : |(90 : ℝ)| ≤ 90) (by norm_num : |(120 : ℝ)| ≤ 180) le_rfl
      (by norm_num : (0 : ℝ) ≤ 10)
  obtain ⟨-, -, -, hpoint, -⟩ :=
    around_grows_in_world (by norm_num : |(60 : ℝ)| ≤ 90) (by norm_num : |(-170 : ℝ)| ≤ 180) (le_refl 0) (le_refl 0)
  obtain ⟨hwest, heast⟩ := hwide hpole
  have hwest : (around (90 : ℝ) 120 0).west = -60 := by
    rw [hwest]
    norm_num
  have heast : (around (90 : ℝ) 120 0).east = 180 := by
    rw [heast]
    norm_num
  obtain ⟨hlatitudes, -, hlongitude⟩ := contains_iff_le.1 hcenter
  refine ⟨⟨hwest, heast⟩, hgrows _ _ ?_, hpoint leastCosine_lt_cos_sixty⟩
  exact contains_iff_le.2 ⟨hlatitudes, hwest.le, by rw [heast]; norm_num⟩

end BoundingBox

end EventFinder
