import EventFinder.Event
import EventFinder.Json.Shape

/-!
# Events as JSON

How an event is read from JSON and written as JSON. `Event.ofText` and `Event.ofJson` read one;
everything in it may be missing but the start of a show. `Event.toJson` writes one with all its
members.
-/

set_option autoImplicit false

namespace EventFinder

open Json (Fault Shape Source)

namespace Show

/-- The fields of a show; its start must be there. -/
def shape : Shape Show where
  fields :=
    [("status", fun s v => return { s with status := ← v.oneOf ShowStatus.ofName? }),
     ("start", fun s v => return { s with start := ← v.signed64 }),
     ("end", fun s v => return { s with finish := ← v.optional Source.signed64 })]
  required := ["start"]

/-- Reads a show. -/
def read : Source → Except Fault Show := Source.record shape Show.empty

/-- Writes a show. -/
def toJson (s : Show) : Json :=
  .object
    [("status", .string s.status.name),
     ("start", .number (.integer s.start.toInt)),
     ("end", match s.finish with
       | some t => .number (.integer t.toInt)
       | none => .null)]

end Show

/-- Writes an optional text. -/
def optionalTextToJson : Option String → Json
  | some s => .string s
  | none => .null

namespace PostalAddress

/-- The fields of an address. -/
def shape : Shape PostalAddress where
  fields :=
    [("name", fun a v => return { a with name := ← v.optional Source.text }),
     ("streetAddress", fun a v => return { a with streetAddress := ← v.optional Source.text }),
     ("postalCode", fun a v => return { a with postalCode := ← v.optional Source.text }),
     ("addressLocality", fun a v => return { a with locality := ← v.optional Source.text }),
     ("addressCountry", fun a v => return { a with country := ← v.optional Source.text })]
  required := []

/-- Reads an address. -/
def read : Source → Except Fault PostalAddress := Source.record shape PostalAddress.empty

/-- Writes an address. -/
def toJson (a : PostalAddress) : Json :=
  .object
    [("name", optionalTextToJson a.name),
     ("streetAddress", optionalTextToJson a.streetAddress),
     ("postalCode", optionalTextToJson a.postalCode),
     ("addressLocality", optionalTextToJson a.locality),
     ("addressCountry", optionalTextToJson a.country)]

end PostalAddress

namespace GeoPosition

/-- What a position holds besides its kind: named members, or items in order. -/
inductive Content where
  | members (values : List (String × Json))
  | items (values : List Json)

/-- The members of a position: the one called `type` is its kind and comes once, the others are kept
as they are. -/
def readMembers : List (Source × Source) → Option String → List (String × Json) →
    Except Fault (Option String × List (String × Json))
  | [], kind, content => .ok (kind, content.reverse)
  | (key, value) :: rest, kind, content => do
      let name ← key.name
      if name = "type" then
        if kind.isSome then .error .mismatched
        else do
          let k ← value.text
          readMembers rest (some k) content
      else do
        let v ← value.whole
        readMembers rest kind ((name, v) :: content)

/-- The number of the one member called `name`. -/
def coordinate? (name : String) (members : List (String × Json)) : Option Binary64 :=
  match members.filter (fun member => member.1 = name) with
  | [(_, value)] => value.real?
  | _ => none

/-- The position of a kind with its content. Of the kind `coordinates` a latitude and a longitude must
be there; any other kind is a shape that is not indexed. -/
def ofContent (kind : String) (content : Content) : Except Fault GeoPosition :=
  if kind = "coordinates" then
    let found := match content with
      | .members values =>
          match coordinate? "latitude" values, coordinate? "longitude" values with
          | some latitude, some longitude => some (coordinates latitude longitude)
          | _, _ => none
      | .items [latitude, longitude] =>
          match latitude.real?, longitude.real? with
          | some latitude, some longitude => some (coordinates latitude longitude)
          | _, _ => none
      | .items _ => none
    match found with
    | some position => .ok position
    | none => .error .mismatched
  else
    match content with
    | .items (_ :: _) => .error .mismatched
    | _ => .ok unsupported

/-- Reads a position: an object whose `type` is its kind, or an array that begins with the kind. -/
def read : Source → Except Fault GeoPosition
  | .object deep members closing =>
      if deep then .error .malformed
      else do
        let (kind, content) ← readMembers members none []
        let () ← Source.closed closing ()
        match kind with
        | none => .error .mismatched
        | some kind => ofContent kind (.members content)
  | .array deep items closing =>
      if deep then .error .malformed
      else
        match items with
        | [] => do
            let () ← Source.closed closing ()
            .error .mismatched
        | kind :: rest => do
            let kind ← kind.text
            let rest ← Source.wholeItems rest
            let () ← Source.closed closing ()
            ofContent kind (.items rest)
  | source => .error source.refusal

/-- Writes a position. -/
def toJson : GeoPosition → Json
  | coordinates latitude longitude =>
      .object
        [("type", .string "coordinates"),
         ("latitude", .number (.real latitude)),
         ("longitude", .number (.real longitude))]
  | unsupported => .object [("type", .string "unsupported")]

end GeoPosition

namespace Location

/-- The fields of a place. -/
def shape : Shape Location where
  fields :=
    [("name", fun l v => return { l with name := ← v.optional Source.text }),
     ("postalAddress", fun l v => return { l with postalAddress := ← v.optional PostalAddress.read }),
     ("geo", fun l v => return { l with geo := ← v.optional GeoPosition.read })]
  required := []

/-- Reads a place. -/
def read : Source → Except Fault Location := Source.record shape Location.empty

/-- Writes a place. -/
def toJson (l : Location) : Json :=
  .object
    [("name", optionalTextToJson l.name),
     ("postalAddress", match l.postalAddress with
       | some a => a.toJson
       | none => .null),
     ("geo", match l.geo with
       | some g => g.toJson
       | none => .null)]

end Location

namespace Event

/-- The fields of an event. -/
def shape : Shape Event where
  fields :=
    [("identity", fun e v => return { e with identity := ← v.unsigned64 }),
     ("created", fun e v => return { e with created := ← v.signed64 }),
     ("modified", fun e v => return { e with modified := ← v.signed64 }),
     ("name", fun e v => return { e with name := ← v.optional Source.text }),
     ("description", fun e v => return { e with description := ← v.optional Source.text }),
     ("tags", fun e v => return { e with tags := ← v.list Source.text }),
     ("location", fun e v => return { e with location := ← v.optional Location.read }),
     ("shows", fun e v => return { e with shows := ← v.list Show.read })]
  required := []

/-- Reads an event. -/
def read : Source → Except Fault Event := Source.record shape Event.empty

/-- The event that a text is. -/
def ofText (text : List Char) : Except Fault Event := Source.readText read text

/-- The event that a value is. -/
def ofJson (value : Json) : Except Fault Event := Json.readAs read value

/-- Writes an event. -/
def toJson (e : Event) : Json :=
  .object
    [("identity", .number (.integer e.identity.toNat)),
     ("created", .number (.integer e.created.toInt)),
     ("modified", .number (.integer e.modified.toInt)),
     ("name", optionalTextToJson e.name),
     ("description", optionalTextToJson e.description),
     ("tags", .array (e.tags.map Json.string)),
     ("location", match e.location with
       | some l => l.toJson
       | none => .null),
     ("shows", .array (e.shows.map Show.toJson))]

end Event

end EventFinder
