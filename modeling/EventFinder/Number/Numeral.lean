import EventFinder.Number.Rounding

/-!
# Numerals

Which texts are numbers when a plain text is taken for one: whole numbers with an optional sign and
any leading zeros, and decimals with an optional point and exponent. No blank is skipped, and only
the ten ASCII digits count.
-/

set_option autoImplicit false

namespace EventFinder

namespace Numeral

/-! ## Digits -/

/-- The value of a decimal digit. -/
def digit? (c : Char) : Option Nat :=
  if '0' ≤ c ∧ c ≤ '9' then some (c.toNat - '0'.toNat) else none

/-- Is `c` one of the ten digits? -/
def isDigit (c : Char) : Bool := (digit? c).isSome

/-- The number that a run of digits writes; other characters count as zero. -/
def valueOf (digits : List Char) : Nat :=
  digits.foldl (fun n c => n * 10 + (digit? c).getD 0) 0

/-- A text of one digit or more. -/
def digits? (cs : List Char) : Option Nat :=
  if !cs.isEmpty && cs.all isDigit then some (valueOf cs) else none

/-! ## Whole numbers -/

/-- A natural number below `bound`, with an optional plus sign. -/
def natural? (bound : Nat) (cs : List Char) : Option Nat :=
  let body := match cs with
    | '+' :: rest => rest
    | _ => cs
  (digits? body).filter (· < bound)

/-- A 64-bit natural number. -/
def unsigned? (s : String) : Option UInt64 :=
  (natural? UInt64.size s.toList).map UInt64.ofNat

/-- A 64-bit integer, with an optional sign. -/
def signed? (s : String) : Option Int64 :=
  match s.toList with
  | '-' :: rest => ((digits? rest).filter (· ≤ twoPow 63)).map fun n => Int64.ofInt (-n)
  | cs => (natural? (twoPow 63) cs).map fun n => Int64.ofInt n

/-! ## Decimals -/

/-- The number of the given sign nearest to `n · 10 ^ exponent`. Exponents so far out that the
result is infinite or zero in every format are decided without forming the power. -/
def nearestDecimal {f : Format} (negative : Bool) (n : Nat) (exponent : Int) : Binary f :=
  let magnitude := exponent + (Nat.toDigits 10 n).length
  if n = 0 then ⟨negative, 0⟩
  else if 400 < magnitude then Binary.infinity negative
  else if magnitude < -400 then ⟨negative, 0⟩
  else Binary.ofRatio negative (n * tenPow exponent.toNat) (tenPow (-exponent).toNat)

/-- An exponent after its letter: an optional sign and digits. -/
def exponent? : List Char → Option Int
  | '-' :: rest => (digits? rest).map fun n => -(n : Int)
  | '+' :: rest => (digits? rest).map Int.ofNat
  | cs => (digits? cs).map Int.ofNat

/-- A decimal without its sign: digits, an optional point with digits on at least one side, and an
optional exponent. -/
def unsignedDecimal? {f : Format} (negative : Bool) (cs : List Char) : Option (Binary f) :=
  let whole := cs.takeWhile isDigit
  let afterWhole := cs.dropWhile isDigit
  let (fraction, rest) := match afterWhole with
    | '.' :: tail => (tail.takeWhile isDigit, tail.dropWhile isDigit)
    | _ => ([], afterWhole)
  if whole.isEmpty && fraction.isEmpty then none
  else
    let scaled (e : Int) : Binary f :=
      nearestDecimal negative (valueOf (whole ++ fraction)) (e - fraction.length)
    match rest with
    | [] => some (scaled 0)
    | c :: tail => if c = 'e' || c = 'E' then (exponent? tail).map scaled else none

/-- The ASCII letters in lower case, all else as it is. -/
def lowerAscii (cs : List Char) : List Char := cs.map Char.toLower

/-- A number of a binary format: a decimal, or a name of infinity or of what is no number in any
letter case; each with an optional sign. -/
def binary? {f : Format} (s : String) : Option (Binary f) :=
  let (negative, body) := match s.toList with
    | '-' :: rest => (true, rest)
    | '+' :: rest => (false, rest)
    | cs => (false, cs)
  let name := lowerAscii body
  if name = "inf".toList || name = "infinity".toList then some (Binary.infinity negative)
  else if name = "nan".toList then some (Binary.quiet negative)
  else unsignedDecimal? negative body

end Numeral

end EventFinder
