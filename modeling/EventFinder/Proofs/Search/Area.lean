import EventFinder.Proofs.Search.Hits

/-!
# Searching an area

A box holds points by comparing coordinates as values, and a query for a box by the total order of the numbers,
in which minus zero is below zero. The query finds the records whose point is in the box, but for a point with
a coordinate that is cut off: a zero at a side of the box that is the other zero (`inBox_finds_contained`).
-/

set_option autoImplicit false

namespace EventFinder

namespace BoundingBox

/-- The sides of a box are values. -/
structure HasValues (box : BoundingBox Binary64) : Prop where
  south : box.south.isNaN = false
  west : box.west.isNaN = false
  north : box.north.isNaN = false
  east : box.east.isNaN = false

/-- A coordinate of the point is cut off. -/
def CutsOff (box : BoundingBox Binary64) (p : GeoPoint) : Prop :=
  Binary.IsCutOff box.south p.latitude box.north ∨ Binary.IsCutOff box.west p.longitude box.east

theorem contains_iff {box : BoundingBox Binary64} {latitude longitude : Binary64} :
    box.contains latitude longitude = true ↔
      (box.south.le latitude = true ∧ latitude.le box.north = true) ∧
        (box.west.le longitude = true ∧ longitude.le box.east = true) := by
  simp [contains, GeoScalar.atMost]

end BoundingBox

theorem NumberRange.contains_real_iff {low high x : Binary64} :
    (reals (.included low) (.included high)).contains (.real x) = true ↔
      low.totalKey ≤ x.totalKey ∧ x.totalKey ≤ high.totalKey := by
  simp [NumberRange.contains, Bound.map, Bound.admitsFrom, Bound.admitsTo]

namespace Query

/-- A range of coordinates finds the records whose point has one of them. -/
theorem finds_coordinates (field : Field) (coordinate : GeoPoint → Binary64) (hkind : field.kind = .real)
    (hterms : ∀ r : Record, r.terms field = (r.point.map fun p => Term.real (coordinate p)).toList)
    (low high : Binary64) :
    (range field.label (.reals (.included low) (.included high))).Finds fun r =>
      ∃ p, r.point = some p ∧ low.totalKey ≤ (coordinate p).totalKey ∧
        (coordinate p).totalKey ≤ high.totalKey := by
  have happlies : (NumberRange.reals (.included low) (.included high)).forKind field.kind =
      some (.reals (.included low) (.included high)) := by
    rw [hkind]
    rfl
  apply (finds_range happlies).congr
  intro r
  rw [hterms]
  cases hp : r.point with
  | none => simp
  | some p => simp [NumberRange.contains_real_iff]

/-- The query for a box finds the records whose point is in it by the total order. -/
theorem finds_inBox (box : BoundingBox Binary64) :
    (inBox Field.latitude.label Field.longitude.label box).Finds fun r =>
      ∃ p, r.point = some p ∧
        (box.south.totalKey ≤ p.latitude.totalKey ∧ p.latitude.totalKey ≤ box.north.totalKey) ∧
        (box.west.totalKey ≤ p.longitude.totalKey ∧ p.longitude.totalKey ≤ box.east.totalKey) := by
  have hlatitude := finds_coordinates .latitude GeoPoint.latitude rfl
    (fun _ => rfl) box.south box.north
  have hlongitude := finds_coordinates .longitude GeoPoint.longitude rfl
    (fun _ => rfl) box.west box.east
  apply (finds_allOf _).congr
  · intro r
    rw [List.forall_mem_cons, List.forall_mem_singleton, hlatitude.matches_iff, hlongitude.matches_iff]
    cases hp : r.point with
    | none => simp
    | some p => simp
  · intro query hquery
    rcases List.mem_cons.1 hquery with rfl | hquery
    · exact ⟨_, hlatitude⟩
    · rw [List.mem_singleton.1 hquery]
      exact ⟨_, hlongitude⟩

end Query

/-- The query for a box whose sides are values can be run. A record without a point does not match, and one with a
point matches if the point is in the box and no coordinate is cut off. The hits are the live records that match. -/
theorem inBox_finds_contained (box : BoundingBox Binary64) (hasValues : box.HasValues) :
    ∃ plan, Snapshot.plan (.inBox Field.latitude.label Field.longitude.label box) = .ok plan ∧
      (∀ r, r.point = none → plan.accepts r = false) ∧
      (∀ r p, r.point = some p →
        (plan.accepts r = true ↔ box.contains p.latitude p.longitude = true ∧ ¬ box.CutsOff p)) ∧
      ∀ s : Snapshot, ((s.hits plan).flatten.map fun hit => (hit.identity, hit.payload)) =
        (s.records.filter plan.accepts).map fun r => (r.identity, r.payload) := by
  obtain ⟨plan, hplan, haccepts⟩ := (Query.finds_inBox box).exists_plan
  refine ⟨plan, hplan, fun r hr => ?_, fun r p hp => ?_, fun s => s.map_hits plan⟩
  · rw [← Bool.not_eq_true, haccepts, hr]
    rintro ⟨p, hp, -⟩
    cases hp
  · -- Both coordinates are in their ranges in either order, unless they are cut off.
    have hboth : plan.accepts r = true ↔
        (box.south.totalKey ≤ p.latitude.totalKey ∧ p.latitude.totalKey ≤ box.north.totalKey) ∧
        (box.west.totalKey ≤ p.longitude.totalKey ∧ p.longitude.totalKey ≤ box.east.totalKey) := by
      rw [haccepts, hp]
      simp
    rw [hboth, BoundingBox.contains_iff, BoundingBox.CutsOff, not_or,
      Binary.between_totalKey_iff hasValues.south hasValues.north,
      Binary.between_totalKey_iff hasValues.west hasValues.east]
    exact and_and_and_comm

/-- A box from the equator northwards. -/
def northernBox : BoundingBox Binary64 := ⟨.zero, -(.ofInt 10), .ofInt 10, .ofInt 10⟩

/-- A record at a latitude of minus zero is in a box that begins at zero, and the query does not find it. -/
theorem inBox_misses_minusZero :
    northernBox.contains ⟨true, 0⟩ (.ofInt 5) = true ∧
      ∃ plan, Snapshot.plan (.inBox Field.latitude.label Field.longitude.label northernBox) = .ok plan ∧
        ∀ r : Record, r.point = some ⟨⟨true, 0⟩, .ofInt 5⟩ → plan.accepts r = false := by
  have hasValues : northernBox.HasValues :=
    ⟨by decide +kernel, by decide +kernel, by decide +kernel, by decide +kernel⟩
  obtain ⟨plan, hplan, -, haccepts, -⟩ := inBox_finds_contained northernBox hasValues
  refine ⟨by decide +kernel, plan, hplan, fun r hr => ?_⟩
  rw [← Bool.not_eq_true, haccepts r _ hr]
  rintro ⟨-, hcut⟩
  exact hcut (Or.inl (Or.inl ⟨rfl, rfl⟩))

end EventFinder
