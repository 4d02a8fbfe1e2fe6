import EventFinder.Proofs.Number.Narrow
import EventFinder.Proofs.Number.Whole
import EventFinder.Proofs.Search.Ranges

/-!
# Searching by binary numbers

Binary numbers are searched for in their total order, which is the order of their values but for minus zero. The
bounds of a range of whole numbers over them are rounded first, which matters only to a number that a bound is
rounded to (`integers_select_rounded`).

A range of binary numbers is read with its bounds as wide as its kind says: those of 32 bits are rounded, too
(`realRange_selects_rounded`). So a number that 32 bits do not hold is not found by itself
(`realRange_selects_no_tenth`).
-/

set_option autoImplicit false

namespace EventFinder

/-! ## Bounds in a linear order -/

namespace Bound

variable {α β : Type}

/-- The value of a bound. -/
def limit? : Bound α → Option α
  | unbounded => none
  | included a => some a
  | excluded a => some a

/-- A value is within a lower bound. -/
def HoldsFrom [LinearOrder β] (bound : Bound β) (b : β) : Prop :=
  match bound with
  | unbounded => True
  | included a => a ≤ b
  | excluded a => a < b

/-- A value is within an upper bound. -/
def HoldsTo [LinearOrder β] (bound : Bound β) (b : β) : Prop :=
  match bound with
  | unbounded => True
  | included a => b ≤ a
  | excluded a => b < a

theorem map_map {γ : Type} (bound : Bound α) (f : α → β) (g : β → γ) :
    (bound.map f).map g = bound.map fun a => g (f a) := by
  cases bound <;> rfl

section Same

variable [LinearOrder β] {bound : Bound α} {rank : α → Int} {k : Int} {view : α → β} {b : β}

/-- The integers that stand for values say what the order of the values says. -/
theorem admitsFrom_map_iff (hbelow : ∀ a, bound.limit? = some a → (rank a < k ↔ view a < b))
    (habove : ∀ a, bound.limit? = some a → (k < rank a ↔ b < view a)) :
    (bound.map rank).admitsFrom k = true ↔ (bound.map view).HoldsFrom b := by
  cases bound with
  | unbounded => exact iff_of_true rfl trivial
  | included a =>
      rw [map, map, admitsFrom, HoldsFrom, decide_eq_true_eq, ← not_lt, ← not_lt]
      exact not_congr (habove a rfl)
  | excluded a =>
      rw [map, map, admitsFrom, HoldsFrom, decide_eq_true_eq]
      exact hbelow a rfl

theorem admitsTo_map_iff (hbelow : ∀ a, bound.limit? = some a → (rank a < k ↔ view a < b))
    (habove : ∀ a, bound.limit? = some a → (k < rank a ↔ b < view a)) :
    (bound.map rank).admitsTo k = true ↔ (bound.map view).HoldsTo b := by
  cases bound with
  | unbounded => exact iff_of_true rfl trivial
  | included a =>
      rw [map, map, admitsTo, HoldsTo, decide_eq_true_eq, ← not_lt, ← not_lt]
      exact not_congr (hbelow a rfl)
  | excluded a =>
      rw [map, map, admitsTo, HoldsTo, decide_eq_true_eq]
      exact habove a rfl

/-- The same of both ends of a range. -/
theorem admits_map_iff {lower upper : Bound α}
    (hbelow : ∀ a, lower.limit? = some a ∨ upper.limit? = some a → (rank a < k ↔ view a < b))
    (habove : ∀ a, lower.limit? = some a ∨ upper.limit? = some a → (k < rank a ↔ b < view a)) :
    (lower.map rank).admitsFrom k = true ∧ (upper.map rank).admitsTo k = true ↔
      (lower.map view).HoldsFrom b ∧ (upper.map view).HoldsTo b := by
  apply and_congr
  · exact admitsFrom_map_iff (fun a ha => hbelow a (Or.inl ha)) fun a ha => habove a (Or.inl ha)
  · exact admitsTo_map_iff (fun a ha => hbelow a (Or.inr ha)) fun a ha => habove a (Or.inr ha)

end Same

end Bound

namespace Query

/-! ## Whole numbers as bounds -/

variable {field : Field}

/-- A query that asks for a binary number selects the records that store one it asks for. -/
theorem Finds.selects_real {query : Query} {P : Binary64 → Prop}
    (h : query.Finds fun r => ∃ x, r.real? field = some x ∧ P x) :
    query.Selects query.Matches ∧ ∀ r, (r.real? field = none → ¬ query.Matches r) ∧
      ∀ x, r.real? field = some x → (query.Matches r ↔ P x) := by
  refine ⟨(h.congr fun r => (h.matches_iff r).symm).selects, fun r => ⟨fun hnone => ?_, fun x hx => ?_⟩⟩
  · rw [h.matches_iff, hnone]
    simp
  · rw [h.matches_iff, hx]
    simp

/-- Over binary numbers the ends of a range of whole numbers are rounded, also the one that is put in for an open
one. -/
theorem finds_rounded (hkind : field.kind = .real) (lower upper : Bound Int64) :
    (range field.label (.integers lower upper)).Finds fun r => ∃ x, r.real? field = some x ∧
      ((NumberRange.lowerEnd Int64.minValue lower upper).map roundedKey).admitsFrom x.totalKey = true ∧
      (upper.map roundedKey).admitsTo x.totalKey = true := by
  refine (finds_of_forKind hkind rfl).congr fun r => ?_
  simp only [Bound.map_map]
  rfl

/-- A range of whole numbers over binary ones can be run, and selects no record without a number. A finite number is
selected if it is within the bounds, each rounded to a binary number, which changes none of at most 53 digits; it is
then within the bounds as they are, unless it is what another bound is rounded to. Nothing is said of minus zero
against zero, and for a range open at both ends of what is below the least whole number. -/
theorem integers_select_rounded (hkind : field.kind = .real) (lower upper : Bound Int64) :
    (∀ n : Int64, n.toInt.natAbs ≤ 2 ^ 53 → roundedValue n = wholeValue n) ∧
    (range field.label (.integers lower upper)).Selects (range field.label (.integers lower upper)).Matches ∧
    ∀ r, (r.real? field = none → ¬ (range field.label (.integers lower upper)).Matches r) ∧
      ∀ x, r.real? field = some x → x.isFinite = true →
        (x = ⟨true, 0⟩ → lower.limit? ≠ some 0 ∧ upper.limit? ≠ some 0) →
        (lower = .unbounded → upper = .unbounded → wholeValue Int64.minValue ≤ x.value) →
          ((range field.label (.integers lower upper)).Matches r ↔
            (lower.map roundedValue).HoldsFrom x.value ∧ (upper.map roundedValue).HoldsTo x.value) ∧
          ((∀ n, lower.limit? = some n ∨ upper.limit? = some n → roundedValue n = x.value →
              wholeValue n = x.value) →
            ((range field.label (.integers lower upper)).Matches r ↔
              (lower.map wholeValue).HoldsFrom x.value ∧ (upper.map wholeValue).HoldsTo x.value)) := by
  obtain ⟨hselects, hmatches⟩ := (finds_rounded hkind lower upper).selects_real
  refine ⟨fun n hn => roundedValue_eq hn, hselects, fun r =>
    ⟨(hmatches r).1, fun x hx hfinite hzero hopen => ?_⟩⟩
  have hnumber := Binary.isNaN_of_isFinite hfinite
  -- The end that is put in for an open one is rounded, too, but not past a number that it is at most.
  have hleast : lower = .unbounded → upper = .unbounded →
      roundedKey Int64.minValue ≤ x.totalKey := fun hlower hupper => by
    rw [← not_lt, lt_roundedKey_iff hnumber fun _ => by decide, not_lt]
    exact (isRounding_roundedValue Int64.minValue).le_of_le x hnumber (hopen hlower hupper)
  -- No bound is zero where the number is minus zero.
  have hends : ∀ n, lower.limit? = some n ∨ upper.limit? = some n → x = ⟨true, 0⟩ → n ≠ 0 := by
    rintro n (hn | hn) hminus rfl
    · exact (hzero hminus).1 hn
    · exact (hzero hminus).2 hn
  have hbelow : ∀ n, lower.limit? = some n ∨ upper.limit? = some n →
      (roundedKey n < x.totalKey ↔ roundedValue n < x.value) := fun n hn =>
    roundedKey_lt_iff hnumber (hends n hn)
  have habove : ∀ n, lower.limit? = some n ∨ upper.limit? = some n →
      (x.totalKey < roundedKey n ↔ x.value < roundedValue n) := fun n hn =>
    lt_roundedKey_iff hnumber (hends n hn)
  rw [(hmatches r).2 x hx, NumberRange.admitsFrom_lowerEnd hleast]
  refine ⟨Bound.admits_map_iff hbelow habove, fun hround => ?_⟩
  apply Bound.admits_map_iff
  · exact fun n hn => (hbelow n hn).trans (roundedValue_lt_value_iff hnumber (hround n hn))
  · exact fun n hn => (habove n hn).trans (value_lt_roundedValue_iff hnumber (hround n hn))

/-- A record at a latitude. -/
def atLatitude (x : Binary64) : Record := { Event.empty.recordAt "" none with point := some ⟨x, .zero⟩ }

/-- A record at 15 degrees is between 10 and 20. -/
theorem integers_select_rounded_fifteen :
    (range "latitude" (.integers (.included 10) (.excluded 20))).Matches (atLatitude (.ofInt 15)) := by
  have hvalue : (.ofInt 15 : Binary64).value = wholeValue 15 := roundedValue_eq (n := 15) (by decide)
  have hselect := ((integers_select_rounded (rfl : Field.latitude.kind = .real) (.included 10) (.excluded 20)).2.2
    (atLatitude (.ofInt 15))).2 _ rfl (by decide +kernel) (fun h => absurd h (by decide +kernel)) nofun
  refine hselect.1.2 ⟨?_, ?_⟩
  · change roundedValue 10 ≤ _
    rw [hvalue, roundedValue_eq (by decide)]
    exact Int.cast_le.2 (by decide)
  · change _ < roundedValue 20
    rw [hvalue, roundedValue_eq (by decide)]
    exact Int.cast_lt.2 (by decide)

theorem matches_atLatitude_iff {lower upper : Bound Int64} {x : Binary64} :
    (range "latitude" (.integers lower upper)).Matches (atLatitude x) ↔
      ((NumberRange.lowerEnd Int64.minValue lower upper).map roundedKey).admitsFrom x.totalKey = true ∧
      (upper.map roundedKey).admitsTo x.totalKey = true :=
  ((finds_rounded (rfl : Field.latitude.kind = .real) lower upper).selects_real.2 (atLatitude x)).2 x rfl

/-- A range of whole numbers is not always searched for as it is written: a number below the least one of a range is
found in it if that one is rounded to it, minus zero is not found from zero on, and a range open at both ends does
not reach below the least whole number. -/
theorem integers_select_inexactly :
    ((.ofInt 9007199254740992 : Binary64).isFinite = true ∧
      (range "latitude" (.integers (.included 9007199254740993) .unbounded)).Matches
        (atLatitude (.ofInt 9007199254740992)) ∧
      (.ofInt 9007199254740992 : Binary64).value < wholeValue 9007199254740993) ∧
    ((⟨true, 0⟩ : Binary64).isFinite = true ∧
      ¬ (range "latitude" (.integers (.included 0) .unbounded)).Matches (atLatitude ⟨true, 0⟩) ∧
      wholeValue 0 ≤ (⟨true, 0⟩ : Binary64).value) ∧
    ((.ofInt (-10000000000000000000) : Binary64).isFinite = true ∧
      ¬ (range "latitude" (.integers .unbounded .unbounded)).Matches
        (atLatitude (.ofInt (-10000000000000000000)))) := by
  simp only [matches_atLatitude_iff]
  refine ⟨⟨by decide +kernel, by decide +kernel, ?_⟩, ⟨by decide +kernel, by decide +kernel, ?_⟩,
    by decide +kernel, by decide +kernel⟩
  · rw [Binary.value_ofInt (by decide +kernel) (by decide +kernel)]
    exact Int.cast_lt.2 (by decide)
  · rw [Binary.value_minusZero]
    exact Int.cast_le.2 (by decide)

/-! ## Binary numbers as bounds -/

namespace Node

/-- A binary number is within the ends that the members of a node give, each rounded: beyond each, or at one that a
flag does not leave out. -/
@[mk_iff]
structure AdmitsReal (node : Node) (round : Binary64 → Binary64) (v : Binary64) : Prop where
  minimum : ∀ n : JsonNumber, node.get? "minimum" = some (.number n) →
    (round n.toBinary64).lt v = true ∨
      round n.toBinary64 = v ∧ node.get? "includeMinimum" ≠ some (.bool false)
  maximum : ∀ n : JsonNumber, node.get? "maximum" = some (.number n) →
    v.lt (round n.toBinary64) = true ∨
      v = round n.toBinary64 ∧ node.get? "includeMaximum" ≠ some (.bool false)

/-- The members of a node give an end. -/
def HasEnd (node : Node) (b : Binary64) : Prop :=
  ∃ n : JsonNumber, n.toBinary64 = b ∧
    (node.get? "minimum" = some (.number n) ∨ node.get? "maximum" = some (.number n))

variable {node : Node} {width : Width} {b v : Binary64}

section Rounds

variable {round round' : Binary64 → Binary64}

/-- Only on which side of the number the ends are rounded to matters. -/
theorem admitsReal_congr (hbelow : ∀ b, node.HasEnd b → ((round b).lt v = true ↔ (round' b).lt v = true))
    (hequal : ∀ b, node.HasEnd b → (round b = v ↔ round' b = v))
    (habove : ∀ b, node.HasEnd b → (v.lt (round b) = true ↔ v.lt (round' b) = true)) :
    node.AdmitsReal round v ↔ node.AdmitsReal round' v := by
  rw [admitsReal_iff, admitsReal_iff]
  apply and_congr
  · refine forall₂_congr fun n hn => ?_
    have hend : node.HasEnd n.toBinary64 := ⟨n, rfl, Or.inl hn⟩
    rw [hbelow _ hend, hequal _ hend]
  · refine forall₂_congr fun n hn => ?_
    have hend : node.HasEnd n.toBinary64 := ⟨n, rfl, Or.inr hn⟩
    rw [habove _ hend, eq_comm (a := v), hequal _ hend, eq_comm (a := v)]

/-- A range from a number to the same number admits it if it is not changed. -/
theorem admitsReal_self_iff {n m : JsonNumber} (hmin : node.get? "minimum" = some (.number n))
    (hmax : node.get? "maximum" = some (.number m)) (hn : n.toBinary64 = v) (hm : m.toBinary64 = v)
    (hflag : node.get? "includeMinimum" ≠ some (.bool false))
    (hflag' : node.get? "includeMaximum" ≠ some (.bool false)) :
    node.AdmitsReal round v ↔ round v = v := by
  constructor
  · intro h
    have hlower := h.minimum n hmin
    have hupper := h.maximum m hmax
    rw [hn] at hlower
    rw [hm] at hupper
    rcases hlower with hlt | ⟨heq, -⟩
    · rcases hupper with hgt | ⟨heq, -⟩
      · -- The rounded number is not both below and above the number.
        exact absurd (Binary.lt_trans hlt hgt) (by simp [Binary.lt_irrefl])
      · exact heq.symm
    · exact heq
  · intro heq
    constructor
    · intro n' hn'
      rw [hmin] at hn'
      cases hn'
      rw [hn]
      exact Or.inr ⟨heq, hflag⟩
    · intro m' hm'
      rw [hmax] at hm'
      cases hm'
      rw [hm]
      exact Or.inr ⟨heq.symm, hflag'⟩

end Rounds

section Widen

variable (hb : b.isFinite = true)
include hb

theorem isNaN_widen : (widen width b).isNaN = false := by
  cases width with
  | narrow => exact Binary.isNaN_narrowed Format.binary32_isWithin hb
  | wide => exact Binary.isNaN_of_isFinite hb

variable (hv : v.isFinite = true) (hkept : widen width v = v)
  (hne : (widen width b).numericKey ≠ v.numericKey)
include hv hkept hne

/-- A number that is kept is on the same side of an end and its rounding, unless it is the rounding. -/
theorem widen_lt_iff : (widen width b).lt v = true ↔ b.lt v = true := by
  have hkey : (widen width b).numericKey < v.numericKey ↔ b.numericKey < v.numericKey := by
    cases width with
    | narrow => exact Binary.narrowed_lt_iff Format.binary32_isWithin hb hv hkept hne
    | wide => exact Iff.rfl
  rw [Binary.lt_iff, Binary.lt_iff, hkey, isNaN_widen hb, Binary.isNaN_of_isFinite hb]

theorem lt_widen_iff : v.lt (widen width b) = true ↔ v.lt b = true := by
  have hkey : v.numericKey < (widen width b).numericKey ↔ v.numericKey < b.numericKey := by
    cases width with
    | narrow => exact Binary.lt_narrowed_iff Format.binary32_isWithin hb hv hkept hne
    | wide => exact Iff.rfl
  rw [Binary.lt_iff, Binary.lt_iff, hkey, isNaN_widen hb, Binary.isNaN_of_isFinite hb]

end Widen

end Node

/-- The least number that is put in for an open end is at most any finite number. -/
theorem totalKey_leastReal_le {v : Binary64} (hv : v.isFinite = true) :
    NumberRange.leastReal.totalKey ≤ v.totalKey := by
  rw [Binary.isFinite_iff] at hv
  obtain ⟨sign, r⟩ := v
  simp only [NumberRange.leastReal, Binary.totalKey] at hv ⊢
  generalize Format.binary64.infinityRank = top at *
  cases sign <;> simp <;> omega

section Reading

variable {context : Context} {node : Node} {query : Query} {width : Width}

open Node

/-- The ends that were read admit what the members of the node say, rounded as the range says. -/
theorem admits_iff_admitsReal {lower upper : Bound Binary64} {v : Binary64}
    (hlower : node.Gives "minimum" "includeMinimum" (realOf width) lower)
    (hupper : node.Gives "maximum" "includeMaximum" (realOf width) upper)
    (finite : ∀ b, node.HasEnd b → b.isFinite = true) (hv : v.isNaN = false) (hzero : v.rank ≠ 0) :
    (lower.map Binary.totalKey).admitsFrom v.totalKey = true ∧
        (upper.map Binary.totalKey).admitsTo v.totalKey = true ↔ node.AdmitsReal (widen width) v := by
  -- The number is no zero, so the total order is the one of the values.
  have hbelow : ∀ b, node.HasEnd b →
      ((widen width b).totalKey < v.totalKey ↔ (widen width b).lt v = true) := fun b hb => by
    rw [Binary.totalKey_lt_iff_of_rank_ne_zero (Or.inr hzero), Binary.lt_iff,
      and_iff_right (isNaN_widen (finite b hb)), and_iff_right hv]
  have habove : ∀ b, node.HasEnd b →
      (v.totalKey < (widen width b).totalKey ↔ v.lt (widen width b) = true) := fun b hb => by
    rw [Binary.totalKey_lt_iff_of_rank_ne_zero (Or.inl hzero), Binary.lt_iff, and_iff_right hv,
      and_iff_right (isNaN_widen (finite b hb))]
  have hequal : ∀ b : Binary64, b.totalKey = v.totalKey ↔ b = v := fun b =>
    ⟨Binary.totalKey_inj, congrArg _⟩
  -- Each end that was read is a number that is written in the node.
  rw [hlower.admitsFrom_iff, hupper.admitsTo_iff, forall_real_iff, forall_real_iff, admitsReal_iff]
  apply and_congr
  · refine forall₂_congr fun n hn => ?_
    rw [hbelow _ ⟨n, rfl, Or.inl hn⟩, hequal]
  · refine forall₂_congr fun n hn => ?_
    rw [habove _ ⟨n, rfl, Or.inr hn⟩, eq_comm (a := v.totalKey), hequal, eq_comm (a := v)]

/-- A range of binary numbers finds the finite numbers but the zeros that its ends admit, rounded as it says. -/
theorem finds_realRange (hkind : field.kind = .real) (named : node.get? "field" = some (.string field.label))
    (read : node.IsReadAs context (.realRange width) query)
    (finite : ∀ b, node.HasEnd b → b.isFinite = true) :
    ∃ P : Binary64 → Prop, (query.Finds fun r => ∃ v, r.real? field = some v ∧ P v) ∧
      ∀ v, v.isFinite = true → v.rank ≠ 0 → (P v ↔ node.AdmitsReal (widen width) v) := by
  obtain ⟨query', factor, hleaf, rfl⟩ := read.exists_boosted
  obtain ⟨lower, upper, rfl, hlower, hupper⟩ := exists_ends_of_realRange named hleaf
  -- Only what is not finite can be shut out by the end that is put in for an open one.
  refine ⟨_, (finds_of_forKind hkind rfl).boosted factor, fun v hv hzero => ?_⟩
  rw [NumberRange.admitsFrom_lowerEnd fun _ _ => totalKey_leastReal_le hv]
  exact admits_iff_admitsReal hlower hupper finite (Binary.isNaN_of_isFinite hv) hzero

/-- A range of binary numbers that is read can be run, and selects no record without a number. A finite number but
zero is selected if the ends of the range admit it, each rounded as the range says: it is then selected as the range
is written if the rounding changes no end, or if it does not change the number and rounds no other end to it. A
range from a number to itself finds it if the rounding does not change it. -/
theorem realRange_selects_rounded (hkind : field.kind = .real)
    (named : node.get? "field" = some (.string field.label))
    (read : node.IsReadAs context (.realRange width) query)
    (finite : ∀ b, node.HasEnd b → b.isFinite = true) :
    query.Selects query.Matches ∧ ∀ r, (r.real? field = none → ¬ query.Matches r) ∧
      ∀ v, r.real? field = some v → v.isFinite = true → v.isZero = false →
        (query.Matches r ↔ node.AdmitsReal (widen width) v) ∧
        ((∀ b, node.HasEnd b → widen width b = b) → (query.Matches r ↔ node.AdmitsReal id v)) ∧
        (widen width v = v → (∀ b, node.HasEnd b → widen width b = v → b = v) →
          (query.Matches r ↔ node.AdmitsReal id v)) ∧
        ∀ n m : JsonNumber, node.get? "minimum" = some (.number n) → node.get? "maximum" = some (.number m) →
          n.toBinary64 = v → m.toBinary64 = v → node.get? "includeMinimum" ≠ some (.bool false) →
          node.get? "includeMaximum" ≠ some (.bool false) → (query.Matches r ↔ widen width v = v) := by
  obtain ⟨P, hfinds, hadmits⟩ := finds_realRange hkind named read finite
  obtain ⟨hselects, hmatches⟩ := hfinds.selects_real
  refine ⟨hselects, fun r => ⟨(hmatches r).1, fun v hr hv hzero => ?_⟩⟩
  have hrank : v.rank ≠ 0 := of_decide_eq_false hzero
  rw [(hmatches r).2 v hr, hadmits v hv hrank]
  refine ⟨Iff.rfl, fun hkept => ?_, fun hkept honly => ?_, fun n m hmin hmax hn hm hflag hflag' => ?_⟩
  · exact admitsReal_congr (fun b hb => by rw [hkept b hb, id]) (fun b hb => by rw [hkept b hb, id])
      fun b hb => by rw [hkept b hb, id]
  · -- An end that is the number is not changed, and the others are not rounded to it.
    have hends : ∀ b, node.HasEnd b → b = v ∨ (widen width b).numericKey ≠ v.numericKey := fun b hb => by
      by_cases heq : b = v
      · exact Or.inl heq
      · right
        intro hkey
        exact heq (honly b hb (Binary.eq_of_numericKey_eq hrank hkey))
    refine admitsReal_congr (fun b hb => ?_) (fun b hb => ?_) fun b hb => ?_
    · rcases hends b hb with heq | hne
      · rw [heq, hkept, id]
      · exact widen_lt_iff (finite b hb) hv hkept hne
    · constructor
      · intro heq
        exact honly b hb heq
      · rintro rfl
        exact hkept
    · rcases hends b hb with heq | hne
      · rw [heq, hkept, id]
      · exact lt_widen_iff (finite b hb) hv hkept hne
  · exact admitsReal_self_iff hmin hmax hn hm hflag hflag'

end Reading

/-- The records at one latitude, written as a range of 32 bits. -/
def latitudeNode (n : JsonNumber) : Node :=
  ⟨"float range",
    [("type", .string "float range"), ("field", .string "latitude"), ("minimum", .number n),
     ("maximum", .number n)]⟩

theorem exists_isReadAs_latitudeNode (n : JsonNumber) :
    ∃ query, (latitudeNode n).IsReadAs ⟨0, .standard⟩ (.realRange .narrow) query := by
  have isOf : (latitudeNode n).IsOf (.object (latitudeNode n).members) (.leaf (.realRange .narrow)) :=
    ⟨rfl, rfl, by change (lowerCase "float range", _) ∈ kinds; decide +kernel⟩
  exact ⟨_, isOf.isReadAs _ rfl⟩

theorem isFinite_of_hasEnd_latitudeNode {x : Binary64} (hx : x.isFinite = true) :
    ∀ b, (latitudeNode (.real x)).HasEnd b → b.isFinite = true := by
  rintro b ⟨n, rfl, hn⟩
  rcases hn with hn | hn <;> cases hn <;> exact hx

/-- A half is found at a latitude of a half. -/
theorem realRange_selects_rounded_half :
    ∃ query, (latitudeNode (.real (.ofRatio false 1 2))).IsReadAs ⟨0, .standard⟩ (.realRange .narrow) query ∧
      query.Matches (atLatitude (.ofRatio false 1 2)) := by
  obtain ⟨query, read⟩ := exists_isReadAs_latitudeNode (.real (.ofRatio false 1 2))
  have finite := isFinite_of_hasEnd_latitudeNode (x := .ofRatio false 1 2) (by decide +kernel)
  have hselect := (realRange_selects_rounded (rfl : Field.latitude.kind = .real) rfl read finite).2
    (atLatitude (.ofRatio false 1 2))
  have hsame := (hselect.2 _ rfl (by decide +kernel) (by decide +kernel)).2.2.2 _ _ rfl rfl rfl rfl nofun nofun
  exact ⟨query, read, hsame.2 (by decide +kernel)⟩

/-- A range of 32 bits is not always searched for as it is written: a tenth is not found at a latitude of a tenth. -/
theorem realRange_selects_no_tenth :
    ∃ query, (latitudeNode (.real (.ofRatio false 1 10))).IsReadAs ⟨0, .standard⟩ (.realRange .narrow) query ∧
      (latitudeNode (.real (.ofRatio false 1 10))).AdmitsReal id (.ofRatio false 1 10) ∧
      ¬ query.Matches (atLatitude (.ofRatio false 1 10)) := by
  have hself : ∀ round, (latitudeNode (.real (.ofRatio false 1 10))).AdmitsReal round (.ofRatio false 1 10) ↔
      round (.ofRatio false 1 10) = .ofRatio false 1 10 := fun round =>
    Node.admitsReal_self_iff rfl rfl rfl rfl nofun nofun
  obtain ⟨query, read⟩ := exists_isReadAs_latitudeNode (.real (.ofRatio false 1 10))
  have finite := isFinite_of_hasEnd_latitudeNode (x := .ofRatio false 1 10) (by decide +kernel)
  obtain ⟨P, hfinds, hadmits⟩ := finds_realRange (rfl : Field.latitude.kind = .real) rfl read finite
  refine ⟨query, read, (hself id).2 rfl, ?_⟩
  -- Rounded to 32 bits, a tenth is another number.
  rw [(hfinds.selects_real.2 _).2 _ rfl, hadmits _ (by decide +kernel) (by decide +kernel), hself]
  decide +kernel

end Query

end EventFinder
