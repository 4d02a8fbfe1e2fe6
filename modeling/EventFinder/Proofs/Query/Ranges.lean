import EventFinder.Proofs.Query.Grammar
import EventFinder.Query.Plan

/-!
# Ranges as they are written

What the members of a node say about one end of a range is `Node.Gives`: the end is missing, or it is a number
that a flag counts in or leaves out. A node of a range is read as the range of which its members give the ends
(`exists_ends_of_integerRange`, `exists_ends_of_realRange`), and an end admits a number that is beyond the one
given, or equal to it and not left out (`Gives.admitsFrom_iff`, `Gives.admitsTo_iff`).
-/

set_option autoImplicit false

namespace EventFinder

namespace Query

/-- The node, of a kind that contains no others, is read as a query. -/
def Node.IsReadAs (context : Context) (node : Node) (kind : LeafKind) (query : Query) : Prop :=
  ∃ value, node.IsOf value (.leaf kind) ∧ Query.ofJson context value = .ok query

theorem Node.IsOf.isReadAs (context : Context) {node : Node} {value : Json} {kind : LeafKind} {query : Query}
    (isOf : node.IsOf value (.leaf kind)) (h : node.leaf context kind >>= node.weighted = .ok query) :
    node.IsReadAs context kind query :=
  ⟨value, isOf, (isOf.ofJson_leaf context).trans h⟩

/-- A node of such a kind is read if its kind reads it and its factor is a number. -/
theorem Node.IsOf.exists_factor {context : Context} {node : Node} {value : Json} {kind : LeafKind} {query : Query}
    (isOf : node.IsOf value (.leaf kind)) (hleaf : node.leaf context kind = .ok query)
    (boost : (Check.number "boost").Met node) :
    ∃ factor, Query.ofJson context value = .ok (query.boosted factor) := by
  obtain ⟨factor, hfactor⟩ := Node.obeys_factor.ok_iff.2 (List.forall_mem_singleton.2 boost)
  refine ⟨factor, (isOf.ofJson_leaf context).trans ?_⟩
  refine bind_eq_ok_iff.2 ⟨query, hleaf, ?_⟩
  rw [Node.weighted, hfactor]
  rfl

/-- A node of such a kind is read by its kind, and then gets its factor. -/
theorem Node.IsReadAs.exists_boosted {context : Context} {node : Node} {kind : LeafKind} {query : Query}
    (h : node.IsReadAs context kind query) :
    ∃ query' factor, node.leaf context kind = .ok query' ∧ query = query'.boosted factor := by
  obtain ⟨value, isOf, read⟩ := h
  rw [isOf.ofJson_leaf context] at read
  obtain ⟨query', hleaf, hweighted⟩ := bind_eq_ok_iff.1 read
  obtain ⟨factor, -, hweighted⟩ := bind_eq_ok_iff.1 hweighted
  cases hweighted
  exact ⟨query', factor, hleaf, rfl⟩

namespace Node

variable {α : Type} {node : Node} {key flag label : String} {view : Json → Option α} {width : Width}

/-- The number of the member called `key`, seen through a view. -/
def given? (node : Node) (key : String) (view : Json → Option α) : Option α := (node.get? key).bind view

/-- One end of a range as the members of a node give it: the number called `key` belongs to the range unless the
member called `flag` is false. -/
inductive Gives (node : Node) (key flag : String) (view : Json → Option α) : Bound α → Prop where
  | missing (h : node.get? key = none) : Gives node key flag view .unbounded
  | included {a : α} (h : node.given? key view = some a) (hflag : node.get? flag ≠ some (.bool false)) :
      Gives node key flag view (.included a)
  | excluded {a : α} (h : node.given? key view = some a) (hflag : node.get? flag = some (.bool false)) :
      Gives node key flag view (.excluded a)

/-! ## Reading the ends -/

/-- A flag that is not there counts as true. -/
theorem get?_eq_false_iff {inclusive : Bool} (h : node.booleanOr flag true = .ok inclusive) :
    node.get? flag = some (.bool false) ↔ inclusive = false := by
  rw [booleanOr] at h
  split at h
  · rename_i hnone
    cases h
    simp [hnone]
  · rename_i v hv
    split at h
    · rename_i b hb
      cases h
      rw [hv, Json.bool?_eq_some_iff.1 hb]
      simp
    · cases h

theorem gives_atValue {a : α} {inclusive : Bool} (h : node.given? key view = some a)
    (hflag : node.booleanOr flag true = .ok inclusive) :
    node.Gives key flag view (.atValue a inclusive) := by
  have hfalse := get?_eq_false_iff hflag
  cases inclusive with
  | true => exact Gives.included h fun hget => Bool.noConfusion (hfalse.1 hget)
  | false => exact Gives.excluded h (hfalse.2 rfl)

theorem gives_integerBound {bound : Bound Int64} (h : node.integerBound width key flag = .ok bound) :
    node.Gives key flag Json.int64? bound := by
  obtain ⟨n, hn, h⟩ := bind_eq_ok_iff.1 h
  rw [integer?_eq] at hn
  cases n with
  | none =>
      cases h
      exact Gives.missing (get?_of_optional_none hn)
  | some n =>
      obtain ⟨v, hv, hview⟩ := get?_of_optional_some hn
      have hgiven : node.given? key Json.int64? = some n := by rw [given?, hv, Option.bind_some, hview]
      dsimp only at h
      split at h
      · cases h
      · obtain ⟨inclusive, hflag, h⟩ := bind_eq_ok_iff.1 h
        cases h
        exact gives_atValue hgiven hflag

/-- A binary number as wide as a range says. -/
def realOf (width : Width) (v : Json) : Option Binary64 := v.real?.map (widen width)

theorem gives_realBound {bound : Bound Binary64} (h : node.realBound width key flag = .ok bound) :
    node.Gives key flag (realOf width) bound := by
  obtain ⟨x, hx, h⟩ := bind_eq_ok_iff.1 h
  rw [number?_eq] at hx
  cases x with
  | none =>
      cases h
      exact Gives.missing (get?_of_optional_none hx)
  | some x =>
      obtain ⟨v, hv, hview⟩ := get?_of_optional_some hx
      -- The end is rounded after it is read and before the flag is.
      have hgiven : node.given? key (realOf width) = some (widen width x) := by
        rw [given?, hv, Option.bind_some, realOf, hview]
        rfl
      obtain ⟨inclusive, hflag, h⟩ := bind_eq_ok_iff.1 h
      cases h
      exact gives_atValue hgiven hflag

theorem text_eq_of_get? (h : node.get? key = some (.string label)) : node.text key = .ok label := by
  rw [text, h]
  rfl

section Named

variable {query : Query} (named : node.get? "field" = some (.string label))
include named

/-- A range of whole numbers has the ends that its members give. -/
theorem exists_ends_of_integerRange (h : node.integerRange width = .ok query) :
    ∃ lower upper, query = range label (.integers lower upper) ∧
      node.Gives "minimum" "includeMinimum" Json.int64? lower ∧
      node.Gives "maximum" "includeMaximum" Json.int64? upper := by
  obtain ⟨field, hfield, h⟩ := bind_eq_ok_iff.1 h
  obtain ⟨lower, hlower, h⟩ := bind_eq_ok_iff.1 h
  obtain ⟨upper, hupper, h⟩ := bind_eq_ok_iff.1 h
  rw [text_eq_of_get? named] at hfield
  cases hfield
  cases h
  exact ⟨lower, upper, rfl, gives_integerBound hlower, gives_integerBound hupper⟩

/-- A range of binary numbers has the ends that its members give, as wide as the range says. -/
theorem exists_ends_of_realRange (h : node.realRange width = .ok query) :
    ∃ lower upper, query = range label (.reals lower upper) ∧
      node.Gives "minimum" "includeMinimum" (realOf width) lower ∧
      node.Gives "maximum" "includeMaximum" (realOf width) upper := by
  obtain ⟨field, hfield, h⟩ := bind_eq_ok_iff.1 h
  obtain ⟨lower, hlower, h⟩ := bind_eq_ok_iff.1 h
  obtain ⟨upper, hupper, h⟩ := bind_eq_ok_iff.1 h
  rw [text_eq_of_get? named] at hfield
  cases hfield
  cases h
  exact ⟨lower, upper, rfl, gives_realBound hlower, gives_realBound hupper⟩

end Named

/-! ## What an end admits -/

namespace Gives

variable {bound : Bound α} (h : node.Gives key flag view bound) (rank : α → Int) (k : Int)
include h

/-- From the lower end on are the numbers above it, and itself if it belongs to the range. Numbers are compared by
an integer that stands for each. -/
theorem admitsFrom_iff :
    (bound.map rank).admitsFrom k = true ↔
      ∀ a, node.given? key view = some a →
        rank a < k ∨ rank a = k ∧ node.get? flag ≠ some (.bool false) := by
  cases h with
  | missing h => simp [Bound.map, Bound.admitsFrom, given?, h]
  | included h hflag => simp [Bound.map, Bound.admitsFrom, h, hflag, Int.le_iff_lt_or_eq]
  | excluded h hflag => simp [Bound.map, Bound.admitsFrom, h, hflag]

/-- Up to the upper end are the numbers below it, and itself if it belongs to the range. -/
theorem admitsTo_iff :
    (bound.map rank).admitsTo k = true ↔
      ∀ a, node.given? key view = some a →
        k < rank a ∨ k = rank a ∧ node.get? flag ≠ some (.bool false) := by
  cases h with
  | missing h => simp [Bound.map, Bound.admitsTo, given?, h]
  | included h hflag => simp [Bound.map, Bound.admitsTo, h, hflag, Int.le_iff_lt_or_eq]
  | excluded h hflag => simp [Bound.map, Bound.admitsTo, h, hflag]

end Gives

/-! ## What an end is given as -/

theorem given?_int64?_eq_some_iff {n : Int64} :
    node.given? key Json.int64? = some n ↔ node.get? key = some (.number (.integer n.toInt)) := by
  rw [given?, Option.bind_eq_some_iff]
  simp [Json.int64?_eq_some_iff]

/-- An end that was read is the whole number that is written. -/
theorem Gives.forall_integer_iff {bound : Bound Int64} (h : node.Gives key flag Json.int64? bound)
    (P : Int → Prop) :
    (∀ a, node.given? key Json.int64? = some a → P a.toInt) ↔
      ∀ n, node.get? key = some (.number (.integer n)) → P n := by
  constructor
  · intro hall n hn
    -- A number that does not fit is not read, so it is not an end.
    have hgiven : ∃ a, node.given? key Json.int64? = some a := by
      cases h with
      | missing h => exact nomatch h.symm.trans hn
      | included h => exact ⟨_, h⟩
      | excluded h => exact ⟨_, h⟩
    obtain ⟨a, ha⟩ := hgiven
    have hget := given?_int64?_eq_some_iff.1 ha
    rw [hn] at hget
    cases hget
    exact hall a ha
  · intro hall a ha
    exact hall a.toInt (given?_int64?_eq_some_iff.1 ha)

/-- An end is given by any number. -/
theorem forall_real_iff (node : Node) (key : String) (P : Binary64 → Prop) :
    (∀ a, node.given? key (realOf width) = some a → P a) ↔
      ∀ n : JsonNumber, node.get? key = some (.number n) → P (widen width n.toBinary64) := by
  simp only [given?, realOf, Option.bind_eq_some_iff, Option.map_eq_some_iff, Json.real?_eq_some_iff]
  constructor
  · intro hall n hn
    exact hall _ ⟨_, hn, _, ⟨n, rfl, rfl⟩, rfl⟩
  · rintro hall a ⟨v, hv, x, ⟨n, rfl, rfl⟩, rfl⟩
    exact hall n hv

end Node

end Query

end EventFinder
