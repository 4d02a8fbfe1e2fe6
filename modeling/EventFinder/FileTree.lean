import EventFinder.Path
import EventFinder.Storage

/-!
# File trees

Files and directories as a value. Paths that do not begin at the root begin in the working directory.
`FileTree.entryAt` says what stands at a path, and the instance of `Storage` lets a program run on a file
tree.
-/

set_option autoImplicit false

namespace EventFinder

/-- What a file tree holds at a place: a directory, with the journal of an index if there is one in
it, or a file. -/
inductive Entry where
  | directory (journal : Journal)
  | file (content : ByteArray)

/-- The names that lead to an entry, the last one first; none for the root. -/
abbrev Place := List String

/-- Files and directories, and the directory in which paths begin. -/
structure FileTree where
  workingDirectory : Place
  entries : List (Place × Entry)

namespace FileTree

/-- Where a path begins. -/
def origin (tree : FileTree) (path : String) : Place :=
  if Path.isAbsolute path then [] else tree.workingDirectory

/-- What stands at a place. The root is always there. -/
def entry? (tree : FileTree) : Place → Option Entry
  | [] => some ((tree.entries.lookup []).getD (.directory []))
  | place => tree.entries.lookup place

/-- The tree with an entry put at a place. -/
def put (tree : FileTree) (place : Place) (entry : Entry) : FileTree :=
  { tree with entries := (place, entry) :: tree.entries.filter fun e => e.1 ≠ place }

/-- The place that a name leads to. -/
def follow (place : Place) (name : String) : Place :=
  if name = "" ∨ name = "." then place
  else if name = ".." then place.tail
  else name :: place

/-- The place that a name leads to, if it is followed from a directory. -/
def step (tree : FileTree) (place : Place) (name : String) : Option Place :=
  match tree.entry? place with
  | some (.directory _) => some (follow place name)
  | _ => none

/-- The place of a path, if directories lead to it. -/
def locate (tree : FileTree) (path : String) : Option Place :=
  if path = "" then none else (Path.names path).foldlM tree.step (tree.origin path)

/-- What stands at a path. -/
def entryAt (tree : FileTree) (path : String) : Option Entry := (tree.locate path).bind tree.entry?

/-! ## Making directories and files -/

/-- A further name followed from a place, a directory being made where nothing stands. There is no
place any more where a file is in the way. -/
def makeStep (state : FileTree × Option Place) (name : String) : FileTree × Option Place :=
  match state with
  | (tree, none) => (tree, none)
  | (tree, some place) =>
      let next := follow place name
      match tree.entry? next with
      | some (.directory _) => (tree, some next)
      | some (.file _) => (tree, none)
      | none => (tree.put next (.directory []), some next)

/-- Makes a directory and those that lead to it, and gives its place. -/
def makeDirectory (tree : FileTree) (path : String) : FileTree × Option Place :=
  if path = "" then (tree, some tree.workingDirectory)
  else (Path.names path).foldl makeStep (tree, some (tree.origin path))

/-- The tree with a file written at a path, the directories that lead to it being made. -/
def writeFile (tree : FileTree) (path : String) (content : ByteArray) : FileTree :=
  let names := Path.names path
  match names.dropLast.foldl makeStep (tree, some (tree.origin path)), names.getLast? with
  | (tree, some place), some name => tree.put (follow place name) (.file content)
  | (tree, _), _ => tree

/-- A tree of one directory. -/
def ofDirectory (path : String) : FileTree :=
  match makeDirectory ⟨[], []⟩ path with
  | (tree, some place) => { tree with workingDirectory := place }
  | (tree, none) => tree

/-! ## Storage -/

/-- What a program reads at a path. -/
def read (tree : FileTree) (path : String) : FileContent :=
  match tree.entryAt path with
  | none => .missing
  | some (.directory _) => .unreadable
  | some (.file content) => .bytes content

/-- The journal of the index in a directory. -/
def journal (tree : FileTree) (path : String) : Journal :=
  match tree.entryAt path with
  | some (.directory journal) => journal
  | _ => []

/-- The tree with the journal of the index in a directory replaced. -/
def setJournal (tree : FileTree) (path : String) (journal : Journal) : FileTree :=
  match tree.locate path with
  | some place => tree.put place (.directory journal)
  | none => tree

instance : Storage (StateM FileTree) where
  read path := return (← get).read path
  makeDirectory path := do
    let (tree, place) := (← get).makeDirectory path
    set tree
    return place.isSome
  loadJournal path := return (← get).journal path
  saveJournal path journal := modify fun tree => tree.setJournal path journal

end FileTree

end EventFinder
