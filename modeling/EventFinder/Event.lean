import EventFinder.Number.Binary

/-!
# Events

What is indexed and searched: an event with its texts, its place and its shows, the times at which it
happens. Times are milliseconds since the start of 1970. The identity is what all stored records of
an event share.
-/

set_option autoImplicit false

namespace EventFinder

/-- What is known about whether a show takes place. -/
inductive ShowStatus where
  | scheduled
  | cancelled
  | postponed
  | rescheduled
deriving DecidableEq, Repr, Inhabited

/-- One time at which an event happens. -/
structure Show where
  status : ShowStatus
  start : Int64
  finish : Option Int64
deriving DecidableEq, Repr

/-- Where on earth a place is: a point, or a shape that is not indexed. -/
inductive GeoPosition where
  | coordinates (latitude longitude : Binary64)
  | unsupported
deriving DecidableEq, Repr

/-- A postal address. -/
structure PostalAddress where
  name : Option String
  streetAddress : Option String
  postalCode : Option String
  locality : Option String
  country : Option String
deriving DecidableEq, Repr

/-- The place of an event. -/
structure Location where
  name : Option String
  postalAddress : Option PostalAddress
  geo : Option GeoPosition
deriving DecidableEq, Repr

/-- An event. -/
structure Event where
  identity : UInt64
  created : Int64
  modified : Int64
  name : Option String
  description : Option String
  tags : List String
  location : Option Location
  shows : List Show
deriving DecidableEq, Repr

namespace ShowStatus

/-- The name of a status, as it is written and indexed. -/
def name : ShowStatus → String
  | scheduled => "scheduled"
  | cancelled => "cancelled"
  | postponed => "postponed"
  | rescheduled => "rescheduled"

/-- The status of a name. -/
def ofName? : String → Option ShowStatus
  | "scheduled" => some scheduled
  | "cancelled" => some cancelled
  | "postponed" => some postponed
  | "rescheduled" => some rescheduled
  | _ => none

theorem ofName?_name (s : ShowStatus) : ofName? s.name = some s := by
  cases s <;> rfl

end ShowStatus

/-- An address of which nothing is known. -/
def PostalAddress.empty : PostalAddress := ⟨none, none, none, none, none⟩

/-- A place of which nothing is known. -/
def Location.empty : Location := ⟨none, none, none⟩

/-- A show of which only the start, zero, is known. -/
def Show.empty : Show := ⟨.scheduled, 0, none⟩

/-- An event of which nothing is known. -/
def Event.empty : Event := ⟨0, 0, 0, none, none, [], none, []⟩

end EventFinder
