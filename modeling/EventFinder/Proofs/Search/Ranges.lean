import EventFinder.Proofs.Query.Ranges
import EventFinder.Proofs.Search.Hits

/-!
# Searching by numbers

A record stores at most one number in a field of numbers (`Record.integer?`, `Record.real?`), and a range finds
the records that store one within it (`finds_integers`, `finds_of_forKind`). Where a range is open at both ends, a
least number is put in for the lower one, which admits all whole numbers.

Ranges of whole numbers over whole numbers, and the events that are to come or are past, are searched for exactly
(`integerRanges_select_exactly`).
-/

set_option autoImplicit false

namespace EventFinder

/-! ## Numbers of records -/

namespace Record

/-- The whole number that a record stores in a field. -/
def integer? (r : Record) : Field → Option Int64
  | .created => some r.created
  | .modified => some r.modified
  | .showStart => r.occurrence.map Show.start
  | .showEnd => r.occurrence.bind Show.finish
  | _ => none

/-- The binary number that a record stores in a field. -/
def real? (r : Record) : Field → Option Binary64
  | .latitude => r.point.map GeoPoint.latitude
  | .longitude => r.point.map GeoPoint.longitude
  | _ => none

theorem terms_of_integer {field : Field} (hkind : field.kind = .integer) (r : Record) :
    r.terms field = ((r.integer? field).map Term.integer).toList := by
  cases field with
  | showStart => rw [terms, integer?, Option.map_map]; rfl
  | created | modified | showEnd => rfl
  | _ => cases hkind

theorem terms_of_real {field : Field} (hkind : field.kind = .real) (r : Record) :
    r.terms field = ((r.real? field).map Term.real).toList := by
  cases field with
  | latitude | longitude => rw [terms, real?, Option.map_map]; rfl
  | _ => cases hkind

end Record

/-! ## What ranges find -/

namespace NumberRange

/-- Only a range open at both ends gets another lower end. -/
theorem lowerEnd_eq {α : Type} (least : α) (lower upper : Bound α) :
    lowerEnd least lower upper = lower ∨
      lower = .unbounded ∧ upper = .unbounded ∧ lowerEnd least lower upper = .included least := by
  cases lower <;> cases upper <;> simp [lowerEnd]

/-- A least number that is at most `k` does not shut `k` out. -/
theorem admitsFrom_lowerEnd {α : Type} {least : α} {lower upper : Bound α} {rank : α → Int} {k : Int}
    (h : lower = .unbounded → upper = .unbounded → rank least ≤ k) :
    ((lowerEnd least lower upper).map rank).admitsFrom k = (lower.map rank).admitsFrom k := by
  rcases lowerEnd_eq least lower upper with heq | ⟨rfl, rfl, heq⟩
  · rw [heq]
  · rw [heq]
    exact decide_eq_true (h rfl rfl)

end NumberRange

namespace Query

variable {field : Field}

theorem finds_integers (hkind : field.kind = .integer) (lower upper : Bound Int64) :
    (range field.label (.integers lower upper)).Finds fun r =>
      ∃ n, r.integer? field = some n ∧ (lower.map Int64.toInt).admitsFrom n.toInt = true ∧
        (upper.map Int64.toInt).admitsTo n.toInt = true := by
  have happlies : (NumberRange.integers lower upper).forKind field.kind =
      some (.integers (NumberRange.lowerEnd Int64.minValue lower upper) upper) := by
    rw [hkind]
    rfl
  refine (finds_range happlies).congr fun r => ?_
  rw [Record.terms_of_integer hkind]
  cases r.integer? field with
  | none => simp
  | some n => simp [NumberRange.contains, NumberRange.admitsFrom_lowerEnd fun _ _ => n.minValue_le_toInt]

/-- Binary numbers are compared in their total order. -/
theorem finds_of_forKind (hkind : field.kind = .real) {numbers : NumberRange} {lower upper : Bound Binary64}
    (happlies : numbers.forKind .real = some (.reals lower upper)) :
    (range field.label numbers).Finds fun r =>
      ∃ x, r.real? field = some x ∧ (lower.map Binary.totalKey).admitsFrom x.totalKey = true ∧
        (upper.map Binary.totalKey).admitsTo x.totalKey = true := by
  rw [← hkind] at happlies
  refine (finds_range happlies).congr fun r => ?_
  rw [Record.terms_of_real hkind]
  cases r.real? field with
  | none => simp
  | some x => simp [NumberRange.contains]

/-- The query can be run and the records of which `P` is true match; in every snapshot the hits are the live records
that match. -/
def Selects (query : Query) (P : Record → Prop) : Prop :=
  ∃ plan, Snapshot.plan query = .ok plan ∧ (∀ r, plan.accepts r = true ↔ P r) ∧
    ∀ s : Snapshot, ((s.hits plan).flatten.map fun hit => (hit.identity, hit.payload)) =
      (s.records.filter plan.accepts).map fun r => (r.identity, r.payload)

theorem Finds.selects {query : Query} {P : Record → Prop} (h : query.Finds P) : query.Selects P := by
  obtain ⟨plan, hplan, haccepts⟩ := h.exists_plan
  exact ⟨plan, hplan, haccepts, fun s => s.map_hits plan⟩

/-! ## Whole numbers and times -/

namespace Node

/-- A whole number is within the ends that the members of a node give: beyond each, or at one that a flag does not
leave out. -/
structure AdmitsInteger (node : Node) (v : Int) : Prop where
  minimum : ∀ n, node.get? "minimum" = some (.number (.integer n)) →
    n < v ∨ n = v ∧ node.get? "includeMinimum" ≠ some (.bool false)
  maximum : ∀ n, node.get? "maximum" = some (.number (.integer n)) →
    v < n ∨ v = n ∧ node.get? "includeMaximum" ≠ some (.bool false)

end Node

section Reading

variable {context : Context} {node : Node} {query : Query}

/-- A range over whole numbers finds what its ends admit as they are written. -/
theorem finds_integerRange {width : Width} (hkind : field.kind = .integer)
    (named : node.get? "field" = some (.string field.label))
    (read : node.IsReadAs context (.integerRange width) query) :
    query.Finds fun r => ∃ v, r.integer? field = some v ∧ node.AdmitsInteger v.toInt := by
  obtain ⟨query', factor, hleaf, rfl⟩ := read.exists_boosted
  obtain ⟨lower, upper, rfl, hlower, hupper⟩ := Node.exists_ends_of_integerRange named hleaf
  refine ((finds_integers hkind lower upper).congr fun r => ?_).boosted factor
  apply exists_congr
  intro v
  rw [hlower.admitsFrom_iff, hupper.admitsTo_iff,
    hlower.forall_integer_iff fun n => n < v.toInt ∨ n = v.toInt ∧ _,
    hupper.forall_integer_iff fun n => v.toInt < n ∨ v.toInt = n ∧ _]
  exact and_congr_right fun _ => ⟨fun h => ⟨h.1, h.2⟩, fun h => ⟨h.1, h.2⟩⟩

/-- The events that are to come. -/
theorem finds_future (read : node.IsReadAs context .future query) :
    query.Finds fun r => ∃ s, r.occurrence = some s ∧ context.now < s.start := by
  obtain ⟨query', factor, hleaf, rfl⟩ := read.exists_boosted
  cases hleaf
  refine ((finds_integers rfl _ _).congr fun r => ?_).boosted factor
  simp [Record.integer?, Bound.map, Bound.admitsFrom, Bound.admitsTo, Int64.lt_iff_toInt_lt]

/-- The events that are past. -/
theorem finds_past (read : node.IsReadAs context .past query) :
    query.Finds fun r => ∃ s, r.occurrence = some s ∧ s.start < context.now := by
  obtain ⟨query', factor, hleaf, rfl⟩ := read.exists_boosted
  cases hleaf
  refine ((finds_integers rfl _ _).congr fun r => ?_).boosted factor
  simp [Record.integer?, Bound.map, Bound.admitsFrom, Bound.admitsTo, Int64.lt_iff_toInt_lt]

end Reading

/-- A range over a field of whole numbers, however it is written, selects the records that store a number there which
its ends admit: one open at both ends all records with a number there, and one that admits no number nothing. What
is to come and what is past are the records of shows that start after the present time and before it. No record is
both, and those that are neither have no show or one that starts at that time. -/
theorem integerRanges_select_exactly (context : Context) :
    (∀ (node : Node) (width : Width) (field : Field) (query : Query), field.kind = .integer →
      node.get? "field" = some (.string field.label) → node.IsReadAs context (.integerRange width) query →
        (query.Selects fun r => ∃ v, r.integer? field = some v ∧ node.AdmitsInteger v.toInt) ∧
        (node.get? "minimum" = none → node.get? "maximum" = none →
          query.Selects fun r => r.integer? field ≠ none) ∧
        ((∀ v : Int64, ¬ node.AdmitsInteger v.toInt) → query.Selects fun _ => False)) ∧
    ∀ (later earlier : Node) (future past : Query), later.IsReadAs context .future future →
      earlier.IsReadAs context .past past →
        (future.Selects fun r => ∃ s, r.occurrence = some s ∧ context.now < s.start) ∧
        (past.Selects fun r => ∃ s, r.occurrence = some s ∧ s.start < context.now) ∧
        ∀ r, ¬ (future.Matches r ∧ past.Matches r) ∧
          (¬ future.Matches r ∧ ¬ past.Matches r ↔
            r.occurrence = none ∨ ∃ s, r.occurrence = some s ∧ s.start = context.now) := by
  constructor
  · intro node width field query hkind named read
    have hfinds := finds_integerRange hkind named read
    refine ⟨hfinds.selects, fun hmin hmax => ?_, fun hnone => ?_⟩
    · -- Without ends every number is admitted.
      have hadmits : ∀ v, node.AdmitsInteger v := fun v =>
        ⟨fun n hn => (nomatch hmin.symm.trans hn), fun n hn => (nomatch hmax.symm.trans hn)⟩
      refine (hfinds.congr fun r => ?_).selects
      simp [hadmits, Option.ne_none_iff_exists']
    · refine (hfinds.congr fun r => ?_).selects
      refine iff_of_false ?_ id
      rintro ⟨v, -, hv⟩
      exact hnone v hv
  · intro later earlier future past readFuture readPast
    have hfuture := finds_future readFuture
    have hpast := finds_past readPast
    refine ⟨hfuture.selects, hpast.selects, fun r => ?_⟩
    rw [hfuture.matches_iff, hpast.matches_iff]
    cases r.occurrence with
    | none => simp
    | some s =>
        simp [Int64.lt_iff_toInt_lt, ← Int64.toInt_inj]
        omega

/-- Shows that start after the last instant. -/
def afterAllNode : Node :=
  ⟨"long range",
    [("type", .string "long range"), ("field", .string "show_start"),
     ("minimum", .number (.integer Int64.maxValue.toInt)), ("includeMinimum", .bool false)]⟩

/-- Events that are to come. -/
def futureNode : Node := ⟨"future events", [("type", .string "future events")]⟩

/-- Events that are past. -/
def beforeNode : Node := ⟨"past events", [("type", .string "past events")]⟩

/-- No show starts after the last instant, and no event is both to come and past. -/
theorem integerRanges_select_after_all :
    (∃ query, afterAllNode.IsReadAs ⟨0, .standard⟩ (.integerRange .wide) query ∧ query.Selects fun _ => False) ∧
    ∃ future past, futureNode.IsReadAs ⟨0, .standard⟩ .future future ∧
      beforeNode.IsReadAs ⟨0, .standard⟩ .past past ∧ ∀ r, ¬ (future.Matches r ∧ past.Matches r) := by
  have afterAll : afterAllNode.IsOf (.object afterAllNode.members) (.leaf (.integerRange .wide)) :=
    ⟨rfl, rfl, by decide +kernel⟩
  have later : futureNode.IsOf (.object futureNode.members) (.leaf .future) := ⟨rfl, rfl, by decide +kernel⟩
  have earlier : beforeNode.IsOf (.object beforeNode.members) (.leaf .past) := ⟨rfl, rfl, by decide +kernel⟩
  constructor
  · have read := afterAll.isReadAs ⟨0, .standard⟩ rfl
    refine ⟨_, read, ((integerRanges_select_exactly _).1 _ _ .showStart _ rfl rfl read).2.2 fun v hv => ?_⟩
    -- No number is above the greatest one, and that one is left out.
    rcases hv.minimum _ rfl with hlt | ⟨-, hflag⟩
    · exact absurd v.toInt_le (Int.not_le.2 hlt)
    · exact hflag rfl
  · have readLater := later.isReadAs ⟨0, .standard⟩ rfl
    have readEarlier := earlier.isReadAs ⟨0, .standard⟩ rfl
    have hselect := (integerRanges_select_exactly _).2 _ _ _ _ readLater readEarlier
    exact ⟨_, _, readLater, readEarlier, fun r => (hselect.2.2 r).1⟩

end Query

end EventFinder
