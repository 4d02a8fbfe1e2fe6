import EventFinder.Number.Rounding

/-!
# Arithmetic on binary floating-point numbers

Each operation forms the exact result in units and rounds it once. A result that is exactly zero
keeps the sign that the operands agree on; an operand that is no number is the result, the first
one if both are; an operation without a result gives `Binary.invalid`.
-/

set_option autoImplicit false

namespace EventFinder

namespace Binary

variable {f : Format}

/-- The number nearest to a whole number of units over `d`, with the given sign if it is zero. -/
def ofSignedUnits (zeroSign : Bool) (n : Int) (d : Nat) : Binary f :=
  if n = 0 then ⟨zeroSign, 0⟩ else ofUnits (decide (n < 0)) n.natAbs d

/-- The sum, rounded once. -/
def add (x y : Binary f) : Binary f :=
  if x.isNaN then x
  else if y.isNaN then y
  else if x.isInfinite then
    if y.isInfinite && (x.negative != y.negative) then invalid else x
  else if y.isInfinite then y
  else ofSignedUnits (x.negative && y.negative) (x.units + y.units) 1

/-- The difference, rounded once. -/
def sub (x y : Binary f) : Binary f :=
  if x.isNaN then x
  else if y.isNaN then y
  else add x (neg y)

/-- The product, rounded once. -/
def mul (x y : Binary f) : Binary f :=
  let sign := x.negative != y.negative
  if x.isNaN then x
  else if y.isNaN then y
  else if x.isInfinite || y.isInfinite then
    if x.isZero || y.isZero then invalid else infinity sign
  else ofUnits sign (f.unitsOfRank x.rank * f.unitsOfRank y.rank) f.unitsPerOne

/-- The quotient, rounded once. -/
def div (x y : Binary f) : Binary f :=
  let sign := x.negative != y.negative
  if x.isNaN then x
  else if y.isNaN then y
  else if x.isInfinite then
    if y.isInfinite then invalid else infinity sign
  else if y.isInfinite then ⟨sign, 0⟩
  else if y.isZero then
    if x.isZero then invalid else infinity sign
  else ofUnits sign (f.unitsOfRank x.rank * f.unitsPerOne) (f.unitsOfRank y.rank)

instance : Add (Binary f) := ⟨add⟩
instance : Sub (Binary f) := ⟨sub⟩
instance : Mul (Binary f) := ⟨mul⟩
instance : Div (Binary f) := ⟨div⟩

/-- One, in any format. -/
def one : Binary f := ofRatio false 1 1

example : (ofRatio false 1 10 + ofRatio false 2 10 : Binary64).rank = 0x3FD3333333333334 := by
  decide +kernel

example : (infinity false - infinity false : Binary32) = invalid := by
  decide +kernel

example : (ofInt 1 / ofInt 3 : Binary32).rank = 0x3EAAAAAB := by
  decide +kernel

end Binary

end EventFinder
