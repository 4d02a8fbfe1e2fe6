import EventFinder.Text.Alphanumeric

/-!
# Blanks

The characters with the Unicode property `White_Space`, and texts without blanks at their ends.
-/

set_option autoImplicit false

namespace EventFinder

/-- The ranges of blanks. -/
def blankRanges : List (Nat × Nat) :=
  [(9, 13), (32, 32), (133, 133), (160, 160), (5760, 5760), (8192, 8202), (8232, 8233),
   (8239, 8239), (8287, 8287), (12288, 12288)]

/-- Is `c` a blank? -/
def isBlank (c : Char) : Bool := inRanges c.toNat blankRanges

/-- A text without the blanks at both ends. -/
def trim (cs : List Char) : List Char :=
  ((cs.dropWhile isBlank).reverse.dropWhile isBlank).reverse

/-- What core takes for a blank is one. -/
theorem isBlank_of_isWhitespace {c : Char} (h : c.isWhitespace = true) : isBlank c = true := by
  simp only [Char.isWhitespace, Bool.or_eq_true, decide_eq_true_eq] at h
  rcases h with ((h | h) | h) | h <;> subst h <;> decide

example : trim ['\u00a0', 'a', ' ', 'b', '\t'] = ['a', ' ', 'b'] := by decide +kernel

end EventFinder
