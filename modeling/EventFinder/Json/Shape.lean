import EventFinder.Json.Source

/-!
# Typed values read from JSON

A reader takes the tree of a text (`Source`) and gives a value of its type, or the first fault in the
order of the text. A record is described by a `Shape`: its fields in order, how each is read, and
which of them must be there. A record may stand as an object, whose unknown members are ignored and
whose known ones come once, or as the array of its fields, which may stop early.
-/

set_option autoImplicit false

namespace EventFinder

namespace Json

/-- How a record of type `α` is read: its named fields in order, each a reader that sets its part of
the record, and the names of those that must be there. -/
structure Shape (α : Type) where
  fields : List (String × (α → Source → Except Fault α))
  required : List String

namespace Source

/-! ## Single values -/

/-- A whole number of 64 bits without a sign. -/
def unsigned64 : Source → Except Fault UInt64
  | number (.ok (.integer n)) _ =>
      if fitsUnsigned 64 n then .ok (UInt64.ofInt n) else .error .mismatched
  | source => .error source.refusal

/-- A whole number of 64 bits with a sign. -/
def signed64 : Source → Except Fault Int64
  | number (.ok (.integer n)) _ =>
      if fitsSigned 64 n then .ok (Int64.ofInt n) else .error .mismatched
  | source => .error source.refusal

/-- Any number, as a 32-bit binary number. -/
def real32 : Source → Except Fault Binary32
  | number (.ok n) _ => .ok n.toBinary32
  | source => .error source.refusal

/-- A boolean. -/
def boolean : Source → Except Fault Bool
  | bool b => .ok b
  | source => .error source.refusal

/-- A string. -/
def text : Source → Except Fault String
  | string (.ok s) _ => .ok s
  | source => .error source.refusal

/-- Nothing but `null`. -/
def unit : Source → Except Fault Unit
  | null => .ok ()
  | source => .error source.refusal

/-! ## Compound values -/

/-- A value that may be `null`. -/
def optional {α : Type} (item : Source → Except Fault α) : Source → Except Fault (Option α)
  | null => .ok none
  | source => (item source).map some

/-- An array of values of one kind. -/
def list {α : Type} (item : Source → Except Fault α) : Source → Except Fault (List α)
  | array deep items closing =>
      if deep then .error .malformed
      else do
        let values ← items.mapM item
        closed closing values
  | source => .error source.refusal

/-- The members of a record, each known one at most once; `seen` are the names met so far. -/
def readMembers {α : Type} (shape : Shape α) :
    List (Source × Source) → List String → α → Except Fault (α × List String)
  | [], seen, record => .ok (record, seen)
  | (key, value) :: rest, seen, record => do
      let name ← key.name
      match shape.fields.lookup name with
      | none =>
          match value.skip with
          | some f => .error f
          | none => readMembers shape rest seen record
      | some assign =>
          if seen.contains name then .error .mismatched
          else do
            let record ← assign record value
            readMembers shape rest (name :: seen) record

/-- The fields of a record in order, as far as there are items. -/
def readItems {α : Type} :
    List (String × (α → Source → Except Fault α)) → List Source → α → Except Fault α
  | (_, assign) :: fields, item :: items, record => do
      let record ← assign record item
      readItems fields items record
  | _, _, record => .ok record

/-- The record, if the fields that must be there are among the names met. -/
def requireAll {α : Type} (shape : Shape α) (seen : List String) (record : α) : Except Fault α :=
  if shape.required.all seen.contains then .ok record else .error .mismatched

/-- A record; what is not mentioned stays as in `start`. -/
def record {α : Type} (shape : Shape α) (start : α) : Source → Except Fault α
  | object deep members closing =>
      if deep then .error .malformed
      else do
        let (value, seen) ← readMembers shape members [] start
        let () ← closed closing ()
        requireAll shape seen value
  | array deep items closing =>
      if deep then .error .malformed
      else do
        let value ← readItems shape.fields items start
        if shape.fields.length < items.length then .error .malformed
        else do
          let () ← closed closing ()
          requireAll shape ((shape.fields.map Prod.fst).take items.length) value
  | source => .error source.refusal

/-- One of a few names, written as a string, or as an object whose one member has that name and is
`null`. -/
def oneOf {α : Type} (named : String → Option α) : Source → Except Fault α
  | string (.ok s) _ =>
      match named s with
      | some value => .ok value
      | none => .error .mismatched
  | string (.error f) _ => .error f
  | fault f => .error f
  | object deep [] closing =>
      .error (if deep then .malformed else closing.getD .malformed)
  | object deep ((key, value) :: rest) closing =>
      if deep then .error .malformed
      else do
        let name ← key.text
        match named name with
        | none => .error .mismatched
        | some result => do
            let () ← value.unit
            if rest.isEmpty then closed closing result else .error .malformed
  | _ => .error .malformed

/-- What the reader finds in a whole text. -/
def readText {α : Type} (reader : Source → Except Fault α) (text : List Char) : Except Fault α := do
  let (source, trailing) := ofText text
  let value ← reader source
  if trailing then .error .malformed else return value

end Source

/-- What the reader finds in a value. A value is well formed, so that only its shape can be
wrong. -/
def readAs {α : Type} (reader : Source → Except Fault α) (value : Json) : Except Fault α :=
  match reader value.toSource with
  | .ok x => .ok x
  | .error _ => .error .mismatched

end Json

end EventFinder
