import EventFinder.Journal

/-!
# Storage

What the program needs of the place where files are kept. Indexes are kept by the journal in their
directory.
-/

set_option autoImplicit false

namespace EventFinder

/-- What stands at a path. -/
inductive FileContent where
  | missing
  | unreadable
  | bytes (content : ByteArray)

/-- Access to files. -/
class Storage (m : Type → Type) where
  /-- What stands at a path. -/
  read : String → m FileContent
  /-- Makes a directory and those that lead to it; says whether it is there now. -/
  makeDirectory : String → m Bool
  /-- The journal of the index in a directory, empty if there is none yet. -/
  loadJournal : String → m Journal
  /-- Keeps the journal of the index in a directory. -/
  saveJournal : String → Journal → m Unit

end EventFinder
