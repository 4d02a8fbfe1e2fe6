import EventFinder.Number.Arithmetic

/-!
# Logarithm and cosine

Both functions are evaluated on integers that stand for fixed-point numbers, far more precisely than
any format keeps, and rounded once at the end:

- `Binary.ln` splits a positive number into a power of two and a factor between one and two and sums
  the series of the inverse hyperbolic tangent;
- `Binary.cos` reduces the exact argument by quarter turns of a pi that is known to more digits than
  the argument has, and sums the series of sine or cosine on the remainder.
-/

set_option autoImplicit false

namespace EventFinder

/-! ## Fixed-point series -/

namespace FixedPoint

/-- The sum of `power / odd + power t² / (odd + 2) + …`, so many terms, where `square` is `t²` and
all numbers have `bits` binary places. -/
def atanhSum (bits : Nat) : Nat → Nat → Nat → Nat → Nat
  | 0, _, _, _ => 0
  | terms + 1, square, power, odd =>
      power / odd + atanhSum bits terms square (power * square / twoPow bits) (odd + 2)

/-- The inverse hyperbolic tangent of `n / d`, which is at most a third. -/
def atanh (bits n d : Nat) : Nat :=
  let t := n * twoPow bits / d
  atanhSum bits (bits / 3 + 2) (t * t / twoPow bits) t 1

/-- The natural logarithm of two. -/
def lnTwo (bits : Nat) : Nat := 2 * atanh bits 1 3

/-- The alternating sum `power / odd - power / (q² (odd + 2)) + …`, so many terms. -/
def atanSum : Nat → Nat → Nat → Nat → Int
  | 0, _, _, _ => 0
  | terms + 1, square, power, odd =>
      (power / odd : Nat) - atanSum terms square (power / square) (odd + 2)

/-- The arc tangent of `1 / q`. -/
def atanInverse (bits q : Nat) : Int :=
  atanSum (bits / 4 + 2) (q * q) (twoPow bits / q) 1

/-- A half turn, that is pi. -/
def halfTurn (bits : Nat) : Nat :=
  (16 * atanInverse bits 5 - 4 * atanInverse bits 239).toNat

/-- The alternating sum `term - term r² / ((k + 1) (k + 2)) + …`, so many terms. -/
def turnSum (bits : Nat) : Nat → Nat → Nat → Nat → Int
  | 0, _, _, _ => 0
  | terms + 1, square, term, k =>
      (term : Int) - turnSum bits terms square
        (term * square / twoPow bits / ((k + 1) * (k + 2))) (k + 2)

/-- The cosine of `r`, which is at most a quarter turn. -/
def cosine (bits r : Nat) : Int :=
  turnSum bits (bits / 4 + 2) (r * r / twoPow bits) (twoPow bits) 0

/-- The sine of `r`, which is at most a quarter turn. -/
def sine (bits r : Nat) : Int :=
  turnSum bits (bits / 4 + 2) (r * r / twoPow bits) r 1

end FixedPoint

namespace Binary

variable {f : Format}

/-! ## Logarithm -/

/-- How many binary places the logarithm is summed with. -/
def lnBits : Nat := 128

/-- The natural logarithm of a positive whole number of units, with `lnBits` binary places. -/
def lnOfUnits (f : Format) (n : Nat) : Int :=
  let e := n.log2
  ((e : Int) - f.unitExponent) * FixedPoint.lnTwo lnBits
    + 2 * FixedPoint.atanh lnBits (n - twoPow e) (n + twoPow e)

/-- The natural logarithm. -/
def ln (x : Binary f) : Binary f :=
  if x.isNaN then x
  else if x.isZero then infinity true
  else if x.negative then invalid
  else if x.isInfinite then x
  else ofSignedUnits false (lnOfUnits f (f.unitsOfRank x.rank) * f.unitsPerOne) (twoPow lnBits)

/-! ## Cosine -/

/-- How many binary places of the remainder are kept. -/
def cosBits : Nat := 192

/-- The cosine of a whole number of units, with `cosBits` binary places. The sign of the argument
does not matter. -/
def cosOfUnits (f : Format) (n : Nat) : Int :=
  let guard := 256
  let quarter := FixedPoint.halfTurn (f.unitExponent + guard) / 2
  let angle := n * twoPow guard
  let turns := angle / quarter
  let rest := (angle % quarter) * twoPow cosBits / twoPow (f.unitExponent + guard)
  match turns % 4 with
  | 0 => FixedPoint.cosine cosBits rest
  | 1 => -FixedPoint.sine cosBits rest
  | 2 => -FixedPoint.cosine cosBits rest
  | _ => FixedPoint.sine cosBits rest

/-- The cosine of an angle in radians. -/
def cos (x : Binary f) : Binary f :=
  if x.isNaN then x
  else if x.isInfinite then invalid
  else ofSignedUnits false (cosOfUnits f (f.unitsOfRank x.rank) * f.unitsPerOne) (twoPow cosBits)

/-- The number nearest to pi. -/
def pi : Binary f :=
  ofUnits false (FixedPoint.halfTurn (f.unitExponent + 8)) (twoPow 8)

example : (pi : Binary64).rank = 0x400921FB54442D18 := by decide +kernel

example : (cos (zero : Binary64)) = one := by decide +kernel

example : (cos (ofRatio false 1 2) : Binary64).rank = 0x3FEC1528065B7D50 := by decide +kernel

example : (ln (ofInt 2) : Binary32).rank = 0x3F317218 := by decide +kernel

end Binary

end EventFinder
