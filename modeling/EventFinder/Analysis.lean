import EventFinder.Text.Alphanumeric
import EventFinder.Text.LetterCase
import EventFinder.Text.Utf8

/-!
# Text analysis

How texts are cut into the tokens that are indexed and searched. There are four ways:

- `words`: the maximal runs of letters and digits, the overlong ones left out;
- `shingles`: two or three neighbouring words, joined by a blank;
- `tagTokens`: the words and their shingles;
- `grams`: every three, four or five neighbouring characters of the text.

All tokens are in lower case. A token says where it stands: its bytes in the text (the text written in
UTF-8), the number of its first word, and how many words it takes.
-/

set_option autoImplicit false

namespace EventFinder

namespace Analysis

/-- A token and its place in the text. -/
structure Token where
  text : String
  start : Nat
  stop : Nat
  position : Nat
  span : Nat
deriving DecidableEq, Repr

/-- A text in lower case. -/
def lowered (cs : List Char) : String := String.ofList (cs.flatMap lowerChar)

/-! ## Words -/

/-- A run of letters and digits, and the place of its first byte. -/
structure Run where
  chars : List Char
  start : Nat
deriving DecidableEq, Repr

/-- The place after the last byte of a run. -/
def Run.stop (run : Run) : Nat := run.start + byteLength run.chars

/-- A letter or digit at `start` put before the runs after it: it joins the first of them if that one
begins right behind it. -/
def joinRun (c : Char) (start : Nat) : List Run → List Run
  | [] => [⟨[c], start⟩]
  | run :: rest =>
      if run.start = start + c.utf8Size then ⟨c :: run.chars, start⟩ :: rest
      else ⟨[c], start⟩ :: run :: rest

/-- The maximal runs of letters and digits of a text that begins at byte `start`. -/
def runs (start : Nat) : List Char → List Run
  | [] => []
  | c :: cs =>
      let after := runs (start + c.utf8Size) cs
      if isAlphanumeric c then joinRun c start after else after

/-- Runs of so many bytes or more are no words. -/
def wordLimit : Nat := 40

/-- The word that a run is, if it is short enough; `position` is the number of the run. -/
def Run.word? (run : Run) (position : Nat) : Option Token :=
  if byteLength run.chars < wordLimit then
    some ⟨lowered run.chars, run.start, run.stop, position, 1⟩
  else none

/-- The words among runs, of which the first has the number `position`. -/
def wordsOfRuns (position : Nat) : List Run → List Token
  | [] => []
  | run :: rest =>
      match run.word? position with
      | some token => token :: wordsOfRuns (position + 1) rest
      | none => wordsOfRuns (position + 1) rest

/-- The words of a text. -/
def words (text : List Char) : List Token := wordsOfRuns 0 (runs 0 text)

/-! ## Shingles -/

/-- The sizes of shingles. -/
def shingleSizes : List Nat := [2, 3]

/-- Neighbouring words as one token; there is at least one word. -/
def joinWords (first : Token) (others : List Token) : Token where
  text := " ".intercalate ((first :: others).map Token.text)
  start := first.start
  stop := (others.getLast?.getD first).stop
  position := first.position
  span := others.length + 1

/-- The shingles of the given sizes that begin with `first`. -/
def shinglesAt (first : Token) (others : List Token) : List Token :=
  shingleSizes.filterMap fun size =>
    if size ≤ others.length + 1 then some (joinWords first (others.take (size - 1))) else none

/-- The shingles of words, by first word and then by size. -/
def shinglesOf : List Token → List Token
  | [] => []
  | word :: rest => shinglesAt word rest ++ shinglesOf rest

/-- The words, each before the shingles that begin with it. -/
def withShingles : List Token → List Token
  | [] => []
  | word :: rest => word :: (shinglesAt word rest ++ withShingles rest)

/-- The shingles of a text. -/
def shingles (text : List Char) : List Token := shinglesOf (words text)

/-- The words and shingles of a text. -/
def tagTokens (text : List Char) : List Token := withShingles (words text)

/-! ## Grams -/

/-- The lengths of grams. -/
def gramSizes : List Nat := [3, 4, 5]

/-- The grams of the given lengths with which a text that begins at byte `start` begins. -/
def gramsAt (start : Nat) (text : List Char) : List Token :=
  gramSizes.filterMap fun size =>
    let chars := text.take size
    if chars.length = size then
      some ⟨lowered chars, start, start + byteLength chars, 0, 1⟩
    else none

/-- The grams of a text that begins at byte `start`, by first character and then by length. -/
def gramsFrom (start : Nat) : List Char → List Token
  | [] => []
  | c :: cs => gramsAt start (c :: cs) ++ gramsFrom (start + c.utf8Size) cs

/-- The grams of a text. -/
def grams (text : List Char) : List Token := gramsFrom 0 text

/-! ## Choosing a way -/

/-- A way to cut texts into tokens. -/
inductive Pipeline where
  | word
  | shingle
  | tag
  | gram
deriving DecidableEq, Repr

/-- The tokens of a text. -/
def Pipeline.tokens (pipeline : Pipeline) (text : String) : List Token :=
  match pipeline with
  | word => words text.toList
  | shingle => shingles text.toList
  | tag => tagTokens text.toList
  | gram => grams text.toList

/-- The texts of the tokens of a text. -/
def Pipeline.terms (pipeline : Pipeline) (text : String) : List String :=
  (pipeline.tokens text).map Token.text

example : (words "Jazz, at 8".toList).map (fun t => (t.text, t.start, t.stop, t.position)) =
    [("jazz", 0, 4, 0), ("at", 6, 8, 1), ("8", 9, 10, 2)] := by decide +kernel

example : Pipeline.terms .tag "Jazz Night" = ["jazz", "jazz night", "night"] := by decide +kernel

example : Pipeline.terms .gram "JAZZ" = ["jaz", "jazz", "azz"] := by decide +kernel

end Analysis

end EventFinder
