import EventFinder.Analysis
import EventFinder.Record

/-!
# Fields

The parts of a record that queries name. A field has a name and a kind, which says what its values are
and how they become *terms*, the things that a query looks for. `Record.terms` gives the terms of a
record in a field, each as often as it occurs there.
-/

set_option autoImplicit false

namespace EventFinder

/-- A part of a record that queries name. -/
inductive Field where
  | identity
  | payload
  | created
  | modified
  | name
  | description
  | tag
  | exactTag
  | locationName
  | addressName
  | streetAddress
  | postalCode
  | locality
  | country
  | latitude
  | longitude
  | combinedGrams
  | showStatus
  | showStart
  | showEnd
deriving DecidableEq, Repr

/-- What the values of a field are: texts that are cut into tokens, texts that are one token each,
texts that are only stored, or numbers. -/
inductive FieldKind where
  | analyzed (pipeline : Analysis.Pipeline)
  | whole
  | stored
  | unsigned
  | integer
  | real
deriving DecidableEq, Repr

/-- What a query looks for in a field. -/
inductive Term where
  | text (s : String)
  | unsigned (n : UInt64)
  | integer (n : Int64)
  | real (x : Binary64)
deriving DecidableEq, Repr

namespace Field

/-- The name by which queries know a field. -/
def label : Field → String
  | identity => "identity"
  | payload => "payload"
  | created => "created"
  | modified => "modified"
  | name => "name"
  | description => "description"
  | tag => "tag"
  | exactTag => "tag_exact"
  | locationName => "location_name"
  | addressName => "address_name"
  | streetAddress => "street_address"
  | postalCode => "postal_code"
  | locality => "address_locality"
  | country => "address_country"
  | latitude => "latitude"
  | longitude => "longitude"
  | combinedGrams => "combined_ngrams"
  | showStatus => "show_status"
  | showStart => "show_start"
  | showEnd => "show_end"

/-- All fields. -/
def all : List Field :=
  [identity, payload, created, modified, name, description, tag, exactTag, locationName, addressName,
   streetAddress, postalCode, locality, country, latitude, longitude, combinedGrams, showStatus,
   showStart, showEnd]

/-- The field of a name. -/
def ofLabel? (s : String) : Option Field := all.find? fun field => field.label = s

theorem mem_all (field : Field) : field ∈ all := by
  cases field <;> decide

theorem ofLabel?_label (field : Field) : ofLabel? field.label = some field := by
  cases field <;> decide +kernel

/-- The kind of a field. -/
def kind : Field → FieldKind
  | identity => .unsigned
  | payload => .stored
  | created | modified | showStart | showEnd => .integer
  | name | description | locationName | addressName | streetAddress | postalCode | locality
  | country => .analyzed .word
  | tag => .analyzed .tag
  | combinedGrams => .analyzed .gram
  | exactTag | showStatus => .whole
  | latitude | longitude => .real

end Field

/-! ## The terms of a record -/

/-- Tokens of more bytes are not kept. -/
def tokenByteLimit : Nat := 65530

/-- The terms of texts that are cut into tokens, each text by itself. -/
def analyzedTerms (pipeline : Analysis.Pipeline) (texts : List String) : List Term :=
  texts.flatMap fun s => (pipeline.terms s).map Term.text

/-- The terms of texts that are one token each. -/
def wholeTerms (texts : List String) : List Term :=
  (texts.filter fun s => decide (s.utf8ByteSize ≤ tokenByteLimit)).map Term.text

namespace Record

/-- The terms of a record in a field, each as often as it occurs. -/
def terms (r : Record) : Field → List Term
  | .identity => [.unsigned r.identity]
  | .payload => []
  | .created => [.integer r.created]
  | .modified => [.integer r.modified]
  | .name => analyzedTerms .word r.name.toList
  | .description => analyzedTerms .word r.description.toList
  | .tag => analyzedTerms .tag r.tags
  | .exactTag => wholeTerms (r.tags.map upperCase)
  | .locationName => analyzedTerms .word r.locationName.toList
  | .addressName => analyzedTerms .word r.addressName.toList
  | .streetAddress => analyzedTerms .word r.streetAddress.toList
  | .postalCode => analyzedTerms .word r.postalCode.toList
  | .locality => analyzedTerms .word r.locality.toList
  | .country => analyzedTerms .word r.country.toList
  | .latitude => (r.point.map fun p => Term.real p.latitude).toList
  | .longitude => (r.point.map fun p => Term.real p.longitude).toList
  | .combinedGrams => analyzedTerms .gram r.combinedText
  | .showStatus => wholeTerms (r.occurrence.map fun s => s.status.name).toList
  | .showStart => (r.occurrence.map fun s => Term.integer s.start).toList
  | .showEnd => ((r.occurrence.bind Show.finish).map Term.integer).toList

end Record

end EventFinder
