import EventFinder.Query.FreeText
import EventFinder.Query.Node

/-!
# The query language

How queries are written in JSON. `Query.ofJson` reads one: the type of a node, in any letter case, says
how its members are read, and a member `boost` multiplies its scores. A boolean query contains further
nodes; all other kinds are leaves (`LeafKind`). Unknown members are ignored. The first fault in the
order of reading refuses the whole query.
-/

set_option autoImplicit false

namespace EventFinder

namespace Query

/-- What queries are read against: the present time, in milliseconds since the start of 1970, and the
weights of free texts. -/
structure Context where
  now : Int64
  weights : TextWeights
deriving DecidableEq, Repr

/-- How wide the numbers of a range are: numbers of 32 bits, or of 64. -/
inductive Width where
  | narrow
  | wide
deriving DecidableEq, Repr

/-- The kinds of nodes that contain no others. -/
inductive LeafKind where
  | matchAll
  | term
  | integerRange (width : Width)
  | realRange (width : Width)
  | box
  | circle
  | freeText
  | tags
  | future
  | past
  | locationBox
  | locationCircle
deriving DecidableEq, Repr

/-- The kinds of nodes. -/
inductive Kind where
  | boolean
  | leaf (kind : LeafKind)
deriving DecidableEq, Repr

/-- The types, in lower case, and the kinds that they name. -/
def kinds : List (String × Kind) :=
  [("boolean query", .boolean),
   ("match all documents", .leaf .matchAll),
   ("term", .leaf .term),
   ("integer range", .leaf (.integerRange .narrow)),
   ("long range", .leaf (.integerRange .wide)),
   ("float range", .leaf (.realRange .narrow)),
   ("double range", .leaf (.realRange .wide)),
   ("coordinate envelope", .leaf .box),
   ("coordinate circle envelope", .leaf .circle),
   ("event text", .leaf .freeText),
   ("event tags", .leaf .tags),
   ("future events", .leaf .future),
   ("past events", .leaf .past),
   ("event location coordinate envelope", .leaf .locationBox),
   ("event location coordinate circle envelope", .leaf .locationCircle)]

/-- The kind of a node, if its type names one. -/
def Node.kind? (node : Node) : Option Kind := kinds.lookup (lowerCase node.type)

/-- The part that a clause takes, if the word, in any letter case, names one. -/
def occur? (word : String) : Option Occur :=
  match lowerCase word with
  | "must" => some .must
  | "should" => some .should
  | "must not" => some .mustNot
  | _ => none

namespace Node

/-! ## Ranges -/

/-- One end of a range of whole numbers. -/
def integerBound (node : Node) (width : Width) (key inclusiveKey : String) :
    Except QueryError (Bound Int64) := do
  match ← node.integer? key with
  | none => return .unbounded
  | some n =>
      if width = .narrow && !fitsSigned 32 n.toInt then
        node.refuse (.outOfRange key)
      else
        let inclusive ← node.booleanOr inclusiveKey true
        return .atValue n inclusive

/-- A binary number as wide as the range says; a narrow one is rounded to 32 bits. -/
def widen (width : Width) (x : Binary64) : Binary64 :=
  match width with
  | .narrow => (x.convert : Binary32).convert
  | .wide => x

/-- One end of a range of binary numbers. -/
def realBound (node : Node) (width : Width) (key inclusiveKey : String) :
    Except QueryError (Bound Binary64) := do
  match ← node.number? key with
  | none => return .unbounded
  | some x =>
      let inclusive ← node.booleanOr inclusiveKey true
      return .atValue (widen width x) inclusive

/-- A range of whole numbers. -/
def integerRange (node : Node) (width : Width) : Except QueryError Query := do
  let field ← node.text "field"
  let lower ← node.integerBound width "minimum" "includeMinimum"
  let upper ← node.integerBound width "maximum" "includeMaximum"
  return .range field (.integers lower upper)

/-- A range of binary numbers. -/
def realRange (node : Node) (width : Width) : Except QueryError Query := do
  let field ← node.text "field"
  let lower ← node.realBound width "minimum" "includeMinimum"
  let upper ← node.realBound width "maximum" "includeMaximum"
  return .range field (.reals lower upper)

/-! ## Areas -/

/-- The box of a node. -/
def box (node : Node) : Except QueryError (BoundingBox Binary64) := do
  let south ← node.number "southLatitude"
  let west ← node.number "westLongitude"
  let north ← node.number "northLatitude"
  let east ← node.number "eastLongitude"
  return ⟨south, west, north, east⟩

end Node

/-- The records whose point is in the box around a circle. The radius must be finite and not negative;
its refusal names the kind of query that states two fields. -/
def inCircle (latitudeField longitudeField : String) (latitude longitude radius : Binary64) :
    Except QueryError Query :=
  if !radius.isFinite || radius.lt .zero then
    .error (.invalid "coordinate circle envelope" (.badRadius radius))
  else .ok (inBox latitudeField longitudeField (.around latitude longitude radius))

namespace Node

/-- The circle of a node, over two fields. -/
def circle (node : Node) (latitudeField longitudeField : String) : Except QueryError Query := do
  let latitude ← node.number "centroidLatitude"
  let longitude ← node.number "centroidLongitude"
  let radius ← node.number "radiusKilometers"
  inCircle latitudeField longitudeField latitude longitude radius

/-! ## Tags -/

/-- The records that have a tag, whatever the letter case. -/
def hasTag (node : Node) (value : Json) : Except QueryError Query :=
  match value.string? with
  | some tag => .ok (.term Field.exactTag.label (upperCase tag))
  | none => node.refuse .valueNotText

/-! ## Leaves -/

/-- The query of a node of a kind that contains no others. -/
def leaf (context : Context) (node : Node) : LeafKind → Except QueryError Query
  | .matchAll => return Query.matchAll
  | .term => do
      let field ← node.text "field"
      let value ← node.text "value"
      return Query.term field value
  | .integerRange width => node.integerRange width
  | .realRange width => node.realRange width
  | .box => do
      let latitudeField ← node.text "latitudeField"
      let longitudeField ← node.text "longitudeField"
      return inBox latitudeField longitudeField (← node.box)
  | .circle => do
      let latitudeField ← node.text "latitudeField"
      let longitudeField ← node.text "longitudeField"
      node.circle latitudeField longitudeField
  | .freeText => return Query.freeText context.weights (← node.text "text")
  | .tags => do
      let values ← node.list "values"
      return allOf (← values.mapM node.hasTag)
  | .future =>
      return range Field.showStart.label (.integers (.excluded context.now) .unbounded)
  | .past =>
      return range Field.showStart.label (.integers .unbounded (.excluded context.now))
  | .locationBox => return inBox Field.latitude.label Field.longitude.label (← node.box)
  | .locationCircle => node.circle Field.latitude.label Field.longitude.label

/-- The query of a node with its scores multiplied as the node says. -/
def weighted (node : Node) (query : Query) : Except QueryError Query := do
  return query.boosted (← node.factor)

/-- The part that a clause takes. -/
def clauseOccur (node : Node) (members : List (String × Json)) : Except QueryError Occur :=
  match (Json.lookup "occur" members).bind Json.string? with
  | none => node.refuse .clauseWithoutOccur
  | some word =>
      match occur? word with
      | some occur => .ok occur
      | none => node.refuse (.unknownOccur word)

/-- The members of a node are smaller than the value that the node is. -/
theorem sizeOf_members {value : Json} {node : Node} (h : ofJson value = .ok node) :
    sizeOf node.members < sizeOf value := by
  unfold ofJson at h
  split at h
  · split at h
    · cases h
      simp only [Json.object.sizeOf_spec]
      omega
    · cases h
  · cases h

/-- A member is smaller than the members it is among. -/
theorem sizeOf_get? {node : Node} {key : String} {value : Json} (h : node.get? key = some value) :
    sizeOf value < sizeOf node.members := by
  unfold get? at h
  exact Json.sizeOf_lookup (Option.filter_eq_some_iff.1 h).1

end Node

/-! ## The language -/

mutual

/-- The query that a value is. -/
def ofJson (context : Context) (value : Json) : Except QueryError Query :=
  match _hn : Node.ofJson value with
  | .error e => .error e
  | .ok node =>
      match node.kind? with
      | none => .error (.unsupportedType node.type)
      | some (.leaf kind) => do
          let query ← node.leaf context kind
          node.weighted query
      | some .boolean =>
          match _hc : node.get? "clauses" with
          | some (.array items) => do
              let clauses ← clausesOfJson context node items
              node.weighted (.boolean clauses)
          | _ => node.refuse (.missing .list "clauses")
termination_by sizeOf value
decreasing_by
  have := Node.sizeOf_members _hn
  have := Node.sizeOf_get? _hc
  simp only [Json.array.sizeOf_spec] at this
  omega

/-- The clauses of a boolean query, in order. -/
def clausesOfJson (context : Context) (node : Node) :
    List Json → Except QueryError (List (Occur × Query))
  | [] => .ok []
  | .object members :: rest => do
      let occur ← node.clauseOccur members
      match _hq : Json.lookup "query" members with
      | none => node.refuse .clauseWithoutQuery
      | some value =>
          let query ← ofJson context value
          let others ← clausesOfJson context node rest
          return (occur, query) :: others
  | _ :: _ => node.refuse .clauseNotAnObject
termination_by items => sizeOf items
decreasing_by
  · have := Json.sizeOf_lookup _hq
    simp only [List.cons.sizeOf_spec, Json.object.sizeOf_spec]
    omega
  · simp only [List.cons.sizeOf_spec]
    omega

end

end Query

end EventFinder
