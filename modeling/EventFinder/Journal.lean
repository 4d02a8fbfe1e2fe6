import EventFinder.Import
import EventFinder.Index
import EventFinder.Number.Numeral
import EventFinder.Number.Layout

/-!
# Journals

What was written to an index, commit by commit. Replaying a journal gives the index, so a journal is
how an index is kept: `Journal.text` writes one as lines, and `Journal.ofBytes?` reads it back.
-/

set_option autoImplicit false

namespace EventFinder

/-- A single write: the records of an event replaced, or those of an identity removed. -/
inductive Change where
  | put (imported : ImportedEvent)
  | remove (identity : UInt64)
deriving DecidableEq, Repr

namespace Index

/-- Makes a single write. -/
def apply (index : Index) : Change → Index
  | .put imported => index.putEvent imported.event imported.payload
  | .remove identity => index.remove identity

/-- Makes some writes and commits them. -/
def applyBatch (index : Index) (batch : List Change) : Index :=
  (batch.foldl apply index).commit

end Index

/-- The writes of each commit, in order. -/
abbrev Journal := List (List Change)

namespace Journal

/-- The index that the writes lead to. -/
def index (journal : Journal) : Index := journal.foldl Index.applyBatch Index.empty

/-- One more commit is one more batch applied. -/
theorem index_append (journal : Journal) (batch : List Change) :
    index (journal ++ [batch]) = (index journal).applyBatch batch := by
  simp [index]

/-! ## Text -/

/-- The line of a write: the payload of an event, or an identity in decimal. -/
def line : Change → List Char
  | .put imported => imported.payload.toList
  | .remove identity => decimalDigits identity.toNat

/-- The lines of a commit: its writes and an empty line. -/
def batchChars (batch : List Change) : List Char :=
  batch.flatMap (fun change => line change ++ ['\n']) ++ ['\n']

/-- The text of a journal. -/
def text (journal : Journal) : String := String.ofList (journal.flatMap batchChars)

/-- The write of a line. -/
def ofLine? (s : String) : Option Change :=
  match Numeral.unsigned? s with
  | some identity => some (.remove identity)
  | none =>
      match Event.ofText s.toList with
      | .ok event => some (.put ⟨event, s⟩)
      | .error _ => none

/-- The commits that lines hold, the writes of the first one being begun with `batch` in reverse. A
commit that is not ended does not count. -/
def ofLines? (batch : List Change) : List (List UInt8) → Option Journal
  | [] => some []
  | bytes :: rest =>
      if bytes.isEmpty then (ofLines? [] rest).map (batch.reverse :: ·)
      else do
        let change ← (Import.text? bytes).bind ofLine?
        ofLines? (change :: batch) rest

/-- The journal that bytes hold. -/
def ofBytes? (bytes : List UInt8) : Option Journal := ofLines? [] (Import.lines bytes)

end Journal

end EventFinder
