import EventFinder.Json.Shape
import EventFinder.Query.FreeText

/-!
# Settings

What can be set: the memory that the writer of the index may use, in bytes, and the weights of free
texts. Settings are read from JSON in which everything may be missing, and checked.
-/

set_option autoImplicit false

namespace EventFinder

/-- What can be set. -/
structure Settings where
  writerMemory : UInt64
  weights : TextWeights
deriving DecidableEq, Repr

/-- Why a file holds no settings. -/
inductive SettingsError where
  | notText
  | unreadable
  | noWriterMemory
  | badWeights
deriving DecidableEq, Repr

namespace SettingsError

/-- Why a file holds no settings, in words. -/
def message : SettingsError → String
  | notText => "I/O error: stream did not contain valid UTF-8"
  | unreadable => "configuration error: invalid file"
  | noWriterMemory => "configuration error: writer_memory_budget must be positive"
  | badWeights => "configuration error: text_query weights must be finite and non-negative"

end SettingsError

namespace TextWeights

/-- The fields of weights. -/
def shape : Json.Shape TextWeights where
  fields :=
    [("name", fun w v => return { w with name := ← v.real32 }),
     ("description", fun w v => return { w with description := ← v.real32 }),
     ("tag", fun w v => return { w with tag := ← v.real32 }),
     ("ngram", fun w v => return { w with grams := ← v.real32 }),
     ("tie_breaker", fun w v => return { w with tieBreaker := ← v.real32 })]
  required := []

/-- Reads weights; those not mentioned are the standard ones. -/
def read : Json.Source → Except Json.Fault TextWeights := Json.Source.record shape standard

/-- The weights in the order in which they are read. -/
def toList (w : TextWeights) : List Binary32 := [w.name, w.description, w.tag, w.grams, w.tieBreaker]

/-- Are all weights finite and none negative? -/
def acceptable (w : TextWeights) : Bool := w.toList.all fun x => x.isFinite && !x.lt .zero

end TextWeights

namespace Settings

/-- The settings where nothing is set. -/
def standard : Settings := ⟨50000000, .standard⟩

/-- The fields of settings. -/
def shape : Json.Shape Settings where
  fields :=
    [("writer_memory_budget", fun s v => return { s with writerMemory := ← v.unsigned64 }),
     ("text_query", fun s v => return { s with weights := ← TextWeights.read v })]
  required := []

/-- Reads settings. -/
def read : Json.Source → Except Json.Fault Settings := Json.Source.record shape standard

/-- The settings, if they are acceptable. -/
def check (s : Settings) : Except SettingsError Settings :=
  if s.writerMemory = 0 then .error .noWriterMemory
  else if s.weights.acceptable then .ok s
  else .error .badWeights

/-- The settings that a file holds; without a file the standard ones. -/
def ofFile : Option ByteArray → Except SettingsError Settings
  | none => .ok standard
  | some bytes =>
      match String.fromUTF8? bytes with
      | none => .error .notText
      | some text =>
          match Json.Source.readText read text.toList with
          | .error _ => .error .unreadable
          | .ok s => s.check

end Settings

end EventFinder
