import EventFinder.Event

/-!
# Records

What is stored of an event: one record for each of its shows, or a single one if it has none. All
records of an event share its identity, its payload (the text it was read from) and everything else
but the show. `Event.records` makes them.
-/

set_option autoImplicit false

namespace EventFinder

/-- A point on earth, in degrees. -/
structure GeoPoint where
  latitude : Binary64
  longitude : Binary64
deriving DecidableEq, Repr

/-- What is stored of an event at one of its shows. -/
structure Record where
  identity : UInt64
  payload : String
  created : Int64
  modified : Int64
  name : Option String
  description : Option String
  tags : List String
  locationName : Option String
  addressName : Option String
  streetAddress : Option String
  postalCode : Option String
  locality : Option String
  country : Option String
  point : Option GeoPoint
  combinedText : List String
  occurrence : Option Show
deriving DecidableEq, Repr

/-- The point of a position, if it is one. -/
def GeoPosition.point? : GeoPosition → Option GeoPoint
  | coordinates latitude longitude => some ⟨latitude, longitude⟩
  | unsupported => none

namespace Event

/-- The place of an event, empty if it has none. -/
def place (e : Event) : Location := e.location.getD Location.empty

/-- The address of an event, empty if it has none. -/
def address (e : Event) : PostalAddress := e.place.postalAddress.getD PostalAddress.empty

/-- The texts that are searched for parts of words: the name, the description and each tag. -/
def combinedText (e : Event) : List String := e.name.toList ++ e.description.toList ++ e.tags

/-- The record of an event at a show. -/
def recordAt (e : Event) (payload : String) (occurrence : Option Show) : Record where
  identity := e.identity
  payload := payload
  created := e.created
  modified := e.modified
  name := e.name
  description := e.description
  tags := e.tags
  locationName := e.place.name
  addressName := e.address.name
  streetAddress := e.address.streetAddress
  postalCode := e.address.postalCode
  locality := e.address.locality
  country := e.address.country
  point := e.place.geo.bind GeoPosition.point?
  combinedText := e.combinedText
  occurrence := occurrence

/-- The records of an event: one for each show, or one without a show. -/
def records (e : Event) (payload : String) : List Record :=
  match e.shows with
  | [] => [e.recordAt payload none]
  | shows => shows.map fun s => e.recordAt payload (some s)

end Event

end EventFinder
