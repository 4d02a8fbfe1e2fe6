/-!
# Lengths in UTF-8

How many bytes a text takes when it is written in UTF-8.
-/

set_option autoImplicit false

namespace EventFinder

/-- How many bytes characters take in UTF-8. -/
def byteLength : List Char → Nat
  | [] => 0
  | c :: cs => c.utf8Size + byteLength cs

theorem byteLength_append (cs ds : List Char) : byteLength (cs ++ ds) = byteLength cs + byteLength ds := by
  induction cs with
  | nil => simp [byteLength]
  | cons c cs ih => simp [byteLength, ih, Nat.add_assoc]

end EventFinder
