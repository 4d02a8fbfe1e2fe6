/-!
# Paths

A path is names separated by slashes. It begins at the root if it begins with a slash. A single dot is the
same directory, and two are the one above.
-/

set_option autoImplicit false

namespace EventFinder

namespace Path

/-- Does a path begin at the root? -/
def isAbsolute (path : String) : Bool := path.toList.head? = some '/'

/-- A path continued by a relative one. -/
def join (path name : String) : String :=
  if path = "" then name
  else if path.toList.getLast? = some '/' then path ++ name
  else path ++ "/" ++ name

/-- The parts of a path between slashes. -/
def parts : List Char → List (List Char)
  | [] => [[]]
  | c :: cs =>
      if c = '/' then [] :: parts cs
      else
        match parts cs with
        | [] => [[c]]
        | part :: rest => (c :: part) :: rest

/-- The names in a path; empty ones stand for the same directory. -/
def names (path : String) : List String := (parts path.toList).map String.ofList

example : names "/a//b" = ["", "a", "", "b"] := by decide +kernel

example : join "a" "b" = "a/b" ∧ join "a/" "b" = "a/b" ∧ join "" "b" = "b" := by decide +kernel

end Path

end EventFinder
