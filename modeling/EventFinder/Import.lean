import EventFinder.Event.Format
import EventFinder.Text.Blank

/-!
# Importing events

Events come as lines of bytes, one event in JSON on each. A line is trimmed; a line of blanks is passed
over. The first line at fault decides the error, with its number among all lines.
-/

set_option autoImplicit false

namespace EventFinder

/-- An event and the text it was read from. -/
structure ImportedEvent where
  event : Event
  payload : String
deriving DecidableEq, Repr

/-- Why an input has no events: bytes that are no text, or a line that is no event. -/
inductive ImportError where
  | notText
  | notEvent (line : Nat) (fault : Json.Fault)
deriving DecidableEq, Repr

namespace Import

/-- The byte that ends a line. -/
def lineFeed : UInt8 := 10

/-- The lines of an input of which `current`, in reverse, has been read. -/
def linesFrom (current : List UInt8) : List UInt8 → List (List UInt8)
  | [] => if current.isEmpty then [] else [current.reverse]
  | byte :: rest =>
      if byte = lineFeed then current.reverse :: linesFrom [] rest
      else linesFrom (byte :: current) rest

/-- The lines of an input. A last line without an end counts unless it is empty. -/
def lines (input : List UInt8) : List (List UInt8) := linesFrom [] input

theorem linesFrom_append {line : List UInt8} (h : lineFeed ∉ line) (current rest : List UInt8) :
    linesFrom current (line ++ lineFeed :: rest) = (current.reverse ++ line) :: linesFrom [] rest := by
  induction line generalizing current with
  | nil => simp [linesFrom]
  | cons byte line ih =>
      simp only [List.mem_cons, not_or] at h
      simp [linesFrom, Ne.symm h.1, ih h.2]

/-- A line with its end is the first line. -/
theorem lines_append {line : List UInt8} (h : lineFeed ∉ line) (rest : List UInt8) :
    lines (line ++ lineFeed :: rest) = line :: lines rest := by
  simp [lines, linesFrom_append h]

/-- The text that bytes are in UTF-8. -/
def text? (bytes : List UInt8) : Option String := String.fromUTF8? (ByteArray.mk bytes.toArray)

/-- The event of a line, none if the line is blank; `number` counts lines from one. -/
def readLine (number : Nat) (line : List UInt8) : Except ImportError (Option ImportedEvent) :=
  match text? line with
  | none => .error .notText
  | some text =>
      let payload := trim text.toList
      if payload.isEmpty then .ok none
      else
        match Event.ofText payload with
        | .ok event => .ok (some ⟨event, String.ofList payload⟩)
        | .error fault => .error (.notEvent number fault)

/-- The events of lines, of which the first has the given number. -/
def readLines (number : Nat) : List (List UInt8) → Except ImportError (List ImportedEvent)
  | [] => .ok []
  | line :: rest => do
      let found ← readLine number line
      let others ← readLines (number + 1) rest
      return found.toList ++ others

/-- The events of an input. -/
def readEvents (input : List UInt8) : Except ImportError (List ImportedEvent) :=
  readLines 1 (lines input)

end Import

end EventFinder
