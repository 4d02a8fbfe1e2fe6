import EventFinder.Geo

/-!
# Queries

A query says which records match and how they score. It names fields and values as text; whether they
exist and fit is found out when the query is resolved (`EventFinder.Query.Plan`).
-/

set_option autoImplicit false

namespace EventFinder

/-- How a clause of a boolean query takes part. -/
inductive Occur where
  | must
  | should
  | mustNot
deriving DecidableEq, Repr

/-- One end of a range. -/
inductive Bound (α : Type) where
  | unbounded
  | included (value : α)
  | excluded (value : α)
deriving DecidableEq, Repr

/-- A range of numbers: of whole numbers, or of binary numbers. -/
inductive NumberRange where
  | integers (lower upper : Bound Int64)
  | reals (lower upper : Bound Binary64)
deriving DecidableEq, Repr

/-- A query. -/
inductive Query where
  /-- Clauses of which some must match, some should match and some must not. -/
  | boolean (clauses : List (Occur × Query))
  /-- Every record, with a score of zero. -/
  | matchAll
  /-- The records that hold a value in a field. -/
  | term (field value : String)
  /-- The records that hold all of some values in a field. -/
  | allTerms (field : String) (values : List String)
  /-- The records whose number in a field is in a range. -/
  | range (field : String) (numbers : NumberRange)
  /-- The records that match any of some queries. The best score counts, and of the others so much as
  `tieBreaker` says. -/
  | disjunctionMax (disjuncts : List Query) (tieBreaker : Binary32)
  /-- The records that match a query, their scores multiplied by a factor. -/
  | boost (query : Query) (factor : Binary32)
deriving Repr

namespace Bound

/-- The bound with its value replaced. -/
def map {α β : Type} (f : α → β) : Bound α → Bound β
  | unbounded => unbounded
  | included v => included (f v)
  | excluded v => excluded (f v)

/-- The bound at a value. -/
def atValue {α : Type} (value : α) (inclusive : Bool) : Bound α :=
  if inclusive then included value else excluded value

end Bound

namespace Query

instance : Inhabited Query := ⟨matchAll⟩

/-- The records that match all of some queries. -/
def allOf (queries : List Query) : Query := boolean (queries.map fun q => (.must, q))

/-- The query with its scores multiplied; a factor of one leaves it as it is. -/
def boosted (query : Query) (factor : Binary32) : Query :=
  if factor.same .one then query else boost query factor

/-- The records whose point is in a box. -/
def inBox (latitudeField longitudeField : String) (box : BoundingBox Binary64) : Query :=
  allOf
    [range latitudeField (.reals (.included box.south) (.included box.north)),
     range longitudeField (.reals (.included box.west) (.included box.east))]

end Query

end EventFinder
