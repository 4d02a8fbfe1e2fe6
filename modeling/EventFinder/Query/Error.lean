import EventFinder.Field
import EventFinder.Number.Layout

/-!
# Errors of queries

Why a query is refused: while it is read from JSON, or while it is resolved against the fields. The
cause is a value; `QueryError.message` words it.
-/

set_option autoImplicit false

namespace EventFinder

/-- What a query node or one of its members should have been. -/
inductive Expected where
  | text
  | list
  | number
  | integer
  | boolean
deriving DecidableEq, Repr

/-- What is wrong with a query node. -/
inductive Defect where
  | notAnObject
  | missing (what : Expected) (key : String)
  | mistyped (key : String) (what : Expected)
  | outOfRange (key : String)
  | clauseNotAnObject
  | clauseWithoutOccur
  | unknownOccur (occur : String)
  | clauseWithoutQuery
  | valueNotText
  | badRadius (radius : Binary64)
  | unreadableValue (value : String) (kind : FieldKind)
  | otherNumbers (field : String)
deriving DecidableEq, Repr

/-- Why a query is refused. -/
inductive QueryError where
  | unsupportedType (type : String)
  | invalid (type : String) (defect : Defect)
  | unknownField (field : String)
deriving DecidableEq, Repr

namespace Expected

/-- The kind of a member, as in "missing numeric member". -/
def adjective : Expected → String
  | text => "string"
  | list => "array"
  | number => "numeric"
  | integer => "integer"
  | boolean => "boolean"

/-- What a member is, as in "must be a number". -/
def noun : Expected → String
  | text => "a string"
  | list => "an array"
  | number => "a number"
  | integer => "an integer"
  | boolean => "a boolean"

end Expected

/-- What a value of a kind of field is called. -/
def FieldKind.noun : FieldKind → String
  | analyzed _ | whole | stored => "text"
  | unsigned => "unsigned integer"
  | integer => "integer"
  | real => "number"

/-- What is wrong, in words. -/
def Defect.message : Defect → String
  | notAnObject => "expected a JSON object"
  | missing what key => "missing " ++ what.adjective ++ " field '" ++ key ++ "'"
  | mistyped key what => "'" ++ key ++ "' must be " ++ what.noun
  | outOfRange key => "'" ++ key ++ "' is out of range"
  | clauseNotAnObject => "every clause must be an object"
  | clauseWithoutOccur => "clause is missing 'occur'"
  | unknownOccur occur =>
      "expected occur 'must', 'should' or 'must not', but was '" ++ occur ++ "'"
  | clauseWithoutQuery => "clause is missing 'query'"
  | valueNotText => "every value must be a string"
  | badRadius radius => "radius must be a non-negative number, got " ++ radius.plain
  | unreadableValue value kind => "'" ++ value ++ "' is not a valid " ++ kind.noun
  | otherNumbers field => "field '" ++ field ++ "' does not hold this kind of number"

/-- Why a query is refused, in words. -/
def QueryError.message : QueryError → String
  | unsupportedType type => "unsupported query type '" ++ type ++ "'"
  | invalid type defect => "invalid '" ++ type ++ "' query: " ++ defect.message
  | unknownField field => "field not found: " ++ field

end EventFinder
