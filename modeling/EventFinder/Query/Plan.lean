import EventFinder.Number.Numeral
import EventFinder.Query
import EventFinder.Query.Error

/-!
# Plans

A plan is a query whose fields exist and whose values fit them. `Query.resolve` makes the plan of a query
or refuses it for its first fault from left to right. `Plan.accepts` says which records a plan matches.

A plan can carry a note at each term, which is how a plan gets its ratings when it is run.
-/

set_option autoImplicit false

namespace EventFinder

/-- A query resolved against the fields, with a note at each term. -/
inductive Plan (ν : Type) where
  | boolean (clauses : List (Occur × Plan ν))
  | matchAll
  | term (field : Field) (term : Term) (note : ν)
  | range (field : Field) (numbers : NumberRange)
  | disjunctionMax (disjuncts : List (Plan ν)) (tieBreaker : Binary32)
  | boost (plan : Plan ν) (factor : Binary32)
deriving Repr

/-! ## Resolving -/

namespace Field

/-- The term that a text names in a field. -/
def termOf (field : Field) (value : String) : Except QueryError Term :=
  let found := match field.kind with
    | .analyzed _ | .whole | .stored => some (Term.text value)
    | .unsigned => (Numeral.unsigned? value).map Term.unsigned
    | .integer => (Numeral.signed? value).map Term.integer
    | .real => (Numeral.binary? value).map Term.real
  match found with
  | some term => .ok term
  | none => .error (.invalid "term" (.unreadableValue value field.kind))

/-- The field of a name. -/
def named (label : String) : Except QueryError Field :=
  match ofLabel? label with
  | some field => .ok field
  | none => .error (.unknownField label)

end Field

namespace NumberRange

/-- The lower end of a range; a range open at both ends begins at the least value. -/
def lowerEnd {α : Type} (least : α) : Bound α → Bound α → Bound α
  | .unbounded, .unbounded => .included least
  | lower, _ => lower

/-- The finite number of the greatest magnitude below zero. -/
def leastReal : Binary64 := ⟨true, Format.binary64.infinityRank - 1⟩

/-- The range as it applies to the numbers of a kind of field, if it does. Whole numbers over binary
ones are rounded to binary numbers. -/
def forKind (kind : FieldKind) : NumberRange → Option NumberRange
  | integers lower upper =>
      let lower := lowerEnd Int64.minValue lower upper
      match kind with
      | .integer => some (integers lower upper)
      | .real =>
          let rounded (n : Int64) : Binary64 := Binary.ofInt n.toInt
          some (reals (lower.map rounded) (upper.map rounded))
      | _ => none
  | reals lower upper =>
      match kind with
      | .real => some (reals (lowerEnd leastReal lower upper) upper)
      | _ => none

end NumberRange

namespace Query

mutual

/-- The plan of a query. -/
def resolve : Query → Except QueryError (Plan Unit)
  | boolean clauses => return .boolean (← resolveClauses clauses)
  | matchAll => return .matchAll
  | term label value => do
      let field ← Field.named label
      return .term field (← field.termOf value) ()
  | allTerms label values => do
      let field ← Field.named label
      let terms ← values.mapM field.termOf
      return .boolean (terms.map fun t => (.must, .term field t ()))
  | range label numbers => do
      let field ← Field.named label
      match numbers.forKind field.kind with
      | some numbers => return .range field numbers
      | none => .error (.invalid "range" (.otherNumbers label))
  | disjunctionMax disjuncts tieBreaker =>
      return .disjunctionMax (← resolveAll disjuncts) tieBreaker
  | boost query factor => return .boost (← resolve query) factor

/-- The plans of queries. -/
def resolveAll : List Query → Except QueryError (List (Plan Unit))
  | [] => return []
  | query :: rest => return (← resolve query) :: (← resolveAll rest)

/-- The plans of clauses. -/
def resolveClauses : List (Occur × Query) → Except QueryError (List (Occur × Plan Unit))
  | [] => return []
  | (occur, query) :: rest => return (occur, ← resolve query) :: (← resolveClauses rest)

end

end Query

/-! ## Matching -/

namespace Bound

/-- Is a number within a lower bound? -/
def admitsFrom (bound : Bound Int) (n : Int) : Bool :=
  match bound with
  | unbounded => true
  | included v => decide (v ≤ n)
  | excluded v => decide (v < n)

/-- Is a number within an upper bound? -/
def admitsTo (bound : Bound Int) (n : Int) : Bool :=
  match bound with
  | unbounded => true
  | included v => decide (n ≤ v)
  | excluded v => decide (n < v)

end Bound

/-- Is a term a number in the range? Binary numbers compare in their total order. -/
def NumberRange.contains : NumberRange → Term → Bool
  | integers lower upper, .integer n =>
      (lower.map Int64.toInt).admitsFrom n.toInt && (upper.map Int64.toInt).admitsTo n.toInt
  | reals lower upper, .real x =>
      (lower.map Binary.totalKey).admitsFrom x.totalKey
        && (upper.map Binary.totalKey).admitsTo x.totalKey
  | _, _ => false

namespace Occur

/-- Does a boolean query match, given how its clauses do? If some must match, those decide, and
otherwise one that should match has to; none that must not may match. -/
def accept (clauses : List (Occur × Bool)) : Bool :=
  let of (occur : Occur) := (clauses.filter fun c => c.1 = occur).map Prod.snd
  (if (of .must).isEmpty then (of .should).any id else (of .must).all id) && !(of .mustNot).any id

end Occur

namespace Plan

variable {ν : Type}

mutual

/-- Does a record match? -/
def accepts (plan : Plan ν) (r : Record) : Bool :=
  match plan with
  | boolean clauses => Occur.accept (clausesAccept clauses r)
  | matchAll => true
  | term field t _ => decide (t ∈ r.terms field)
  | range field numbers => (r.terms field).any numbers.contains
  | disjunctionMax disjuncts _ => anyAccepts disjuncts r
  | boost plan _ => plan.accepts r

/-- Does a record match any of some plans? -/
def anyAccepts (plans : List (Plan ν)) (r : Record) : Bool :=
  match plans with
  | [] => false
  | plan :: rest => plan.accepts r || anyAccepts rest r

/-- Which clauses a record matches. -/
def clausesAccept (clauses : List (Occur × Plan ν)) (r : Record) : List (Occur × Bool) :=
  match clauses with
  | [] => []
  | (occur, plan) :: rest => (occur, plan.accepts r) :: clausesAccept rest r

end

/-! ## Terms of a plan -/

mutual

/-- The fields in which a plan looks for terms. -/
def termFields : Plan ν → List Field
  | boolean clauses => termFieldsOfClauses clauses
  | matchAll => []
  | term field _ _ => [field]
  | range _ _ => []
  | disjunctionMax disjuncts _ => termFieldsOfAll disjuncts
  | boost plan _ => plan.termFields

/-- The fields in which some plans look for terms. -/
def termFieldsOfAll : List (Plan ν) → List Field
  | [] => []
  | plan :: rest => plan.termFields ++ termFieldsOfAll rest

/-- The fields in which some clauses look for terms. -/
def termFieldsOfClauses : List (Occur × Plan ν) → List Field
  | [] => []
  | (_, plan) :: rest => plan.termFields ++ termFieldsOfClauses rest

end

variable {μ : Type}

mutual

/-- The plan with the note of each term made from its field and the term. -/
def annotate (f : Field → Term → μ) : Plan ν → Plan μ
  | boolean clauses => boolean (annotateClauses f clauses)
  | matchAll => matchAll
  | term field t _ => term field t (f field t)
  | range field numbers => range field numbers
  | disjunctionMax disjuncts tieBreaker => disjunctionMax (annotateAll f disjuncts) tieBreaker
  | boost plan factor => boost (annotate f plan) factor

/-- The plans with their notes made. -/
def annotateAll (f : Field → Term → μ) : List (Plan ν) → List (Plan μ)
  | [] => []
  | plan :: rest => annotate f plan :: annotateAll f rest

/-- The clauses with their notes made. -/
def annotateClauses (f : Field → Term → μ) : List (Occur × Plan ν) → List (Occur × Plan μ)
  | [] => []
  | (occur, plan) :: rest => (occur, annotate f plan) :: annotateClauses f rest

end

end Plan

end EventFinder
