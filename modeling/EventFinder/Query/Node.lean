import EventFinder.Json.Value
import EventFinder.Query.Error

/-!
# Query nodes

A query is written as a JSON object whose member `type` says what kind of query it is. `Node.ofJson`
recognises one; the other functions read its members. A member that is `null` counts as missing.
-/

set_option autoImplicit false

namespace EventFinder

namespace Query

/-- An object with a type, as it is written. -/
structure Node where
  type : String
  members : List (String × Json)

namespace Node

/-- The node that a value is. Its faults are named by `query`, since there is no type to name. -/
def ofJson : Json → Except QueryError Node
  | .object members =>
      match Json.lookup "type" members with
      | some (.string type) => .ok ⟨type, members⟩
      | _ => .error (.invalid "query" (.missing .text "type"))
  | _ => .error (.invalid "query" .notAnObject)

/-- The refusal of the node for a defect. -/
def refuse {α : Type} (node : Node) (defect : Defect) : Except QueryError α :=
  .error (.invalid node.type defect)

/-- The member called `key`, unless it is missing or `null`. -/
def get? (node : Node) (key : String) : Option Json :=
  (Json.lookup key node.members).filter fun value => !value.isNull

/-- A text that must be there. -/
def text (node : Node) (key : String) : Except QueryError String :=
  match (node.get? key).bind Json.string? with
  | some s => .ok s
  | none => node.refuse (.missing .text key)

/-- A list that must be there. -/
def list (node : Node) (key : String) : Except QueryError (List Json) :=
  match (node.get? key).bind Json.array? with
  | some items => .ok items
  | none => node.refuse (.missing .list key)

/-- A number, if it is there. -/
def number? (node : Node) (key : String) : Except QueryError (Option Binary64) :=
  match node.get? key with
  | none => .ok none
  | some value =>
      match value.real? with
      | some x => .ok (some x)
      | none => node.refuse (.mistyped key .number)

/-- A number that must be there. -/
def number (node : Node) (key : String) : Except QueryError Binary64 := do
  match ← node.number? key with
  | some x => return x
  | none => node.refuse (.missing .number key)

/-- A whole number of 64 bits, if it is there. -/
def integer? (node : Node) (key : String) : Except QueryError (Option Int64) :=
  match node.get? key with
  | none => .ok none
  | some value =>
      match value.int64? with
      | some n => .ok (some n)
      | none => node.refuse (.mistyped key .integer)

/-- A truth value, `default` if it is not there. -/
def booleanOr (node : Node) (key : String) (default : Bool) : Except QueryError Bool :=
  match node.get? key with
  | none => .ok default
  | some value =>
      match value.bool? with
      | some b => .ok b
      | none => node.refuse (.mistyped key .boolean)

/-- By how much the scores of the node are multiplied. -/
def factor (node : Node) : Except QueryError Binary32 := do
  match ← node.number? "boost" with
  | some x => return x.convert
  | none => return .one

end Node

end Query

end EventFinder
