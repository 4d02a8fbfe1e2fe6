import EventFinder.Number.Decimal

/-!
# How numbers are written

Four ways to lay out a binary floating-point number, all over the digits that
`EventFinder.Number.Decimal` selects:

- `Binary.plain`: the fewest digits, always positional, without a point if it is whole;
- `Binary.fixed`: a set number of places after the point;
- `Binary.scientific`: one digit before the point, a set number after it, and an exponent. It is for
  comparing numbers that need to agree in so many digits only, such as the scores of two runs; what
  is printed is written in the three other ways;
- `Binary.jsonText`: the fewest digits as they stand in JSON, positional in a middle range and with
  an exponent outside it.
-/

set_option autoImplicit false

namespace EventFinder

/-- The decimal digits of a natural number. -/
def decimalDigits (n : Nat) : List Char := Nat.toDigits 10 n

/-- So many zeros. -/
def zeros (n : Nat) : List Char := List.replicate n '0'

/-- An integer in decimal, with a minus sign if it is negative. -/
def decimalInt (n : Int) : List Char :=
  if n < 0 then '-' :: decimalDigits n.natAbs else decimalDigits n.natAbs

namespace Decimal

/-- Positional digits: those before the point, and those after it. -/
def positional (x : Decimal) : List Char × List Char :=
  let ds := decimalDigits x.digits
  if 0 ≤ x.exponent then (ds ++ zeros x.exponent.toNat, [])
  else
    let places := (-x.exponent).toNat
    if places < ds.length then (ds.take (ds.length - places), ds.drop (ds.length - places))
    else (['0'], zeros (places - ds.length) ++ ds)

/-- One digit, the others after a point if there are any, and the exponent of the first digit. -/
def withExponent (x : Decimal) : List Char :=
  let ds := decimalDigits x.digits
  let exponent := x.exponent + ds.length - 1
  let rest := ds.drop 1
  ds.take 1 ++ (if rest.isEmpty then [] else '.' :: rest) ++ 'e' :: decimalInt exponent

end Decimal

namespace Binary

variable {f : Format}

/-- The texts of the values that have no digits, and otherwise the sign before `digits`. -/
def signed (x : Binary f) (digits : Unit → List Char) : String :=
  if x.isNaN then "NaN"
  else if x.isInfinite then (if x.negative then "-inf" else "inf")
  else String.ofList (if x.negative then '-' :: digits () else digits ())

/-- The fewest digits, positional, without a point if the number is whole. A tie between two digits
goes up. -/
def plain (x : Binary f) : String :=
  x.signed fun _ =>
    if x.isZero then ['0']
    else
      let (whole, places) := (x.shortest .up).positional
      if places.isEmpty then whole else whole ++ '.' :: places

/-- So many places after the point, at least one; the exact value is rounded. -/
def fixed (places : Nat) (x : Binary f) : String :=
  x.signed fun _ =>
    let scaled := gridNearest (f.unitsOfRank x.rank) f.unitsPerOne (-places)
    decimalDigits (scaled / tenPow places) ++ '.' ::
      (let tail := decimalDigits (scaled % tenPow places)
       zeros (places - tail.length) ++ tail)

/-- One digit before the point, so many after it, and the exponent: the number rounded to so many digits,
whatever its size. Nothing that is printed is written this way. -/
def scientific (places : Nat) (x : Binary f) : String :=
  x.signed fun _ =>
    if x.isZero then '0' :: '.' :: zeros places ++ ['e', '0']
    else (x.roundedTo places).withExponent

/-- Where JSON writes a number positionally: up to so many digits before the point, and down to so
many zeros after it. -/
structure JsonRange where
  wholeDigits : Nat
  leadingZeros : Nat
deriving DecidableEq, Repr

/-- Wide numbers are positional up to sixteen digits and four leading zeros. -/
def JsonRange.wide : JsonRange := ⟨16, 4⟩

/-- Narrow numbers are positional up to thirteen digits and five leading zeros. -/
def JsonRange.narrow : JsonRange := ⟨13, 5⟩

/-- The fewest digits as JSON writes them. A whole number keeps `.0`; a tie goes to the even digit;
what is not finite has no JSON number and is written `null`. -/
def jsonText (range : JsonRange) (x : Binary f) : String :=
  if !x.isFinite then "null"
  else x.signed fun _ =>
    if x.isZero then ['0', '.', '0']
    else
      let d := x.shortest .toEven
      let point := (decimalDigits d.digits).length + d.exponent
      if -(range.leadingZeros : Int) ≤ point ∧ point ≤ range.wholeDigits then
        let (whole, places) := d.positional
        whole ++ '.' :: (if places.isEmpty then ['0'] else places)
      else d.withExponent

example : (ofInt (-15000000000000000) : Binary64).plain = "-15000000000000000" := by decide +kernel

example : (ofRatio true 5 2 : Binary64).plain = "-2.5" := by decide +kernel

example : (ofRatio false 1 10 : Binary32).scientific 8 = "1.00000001e-1" := by decide +kernel

example : (ofRatio false 1 2000 : Binary64).fixed 3 = "0.001" := by decide +kernel

example : (ofRatio false 1 16 : Binary64).fixed 3 = "0.062" := by decide +kernel

example : (ofInt (tenPow 17) : Binary64).jsonText .wide = "1e17" := by decide +kernel

example : (ofRatio false 1 3 : Binary32).jsonText .narrow = "0.33333334" := by decide +kernel

end Binary

end EventFinder
