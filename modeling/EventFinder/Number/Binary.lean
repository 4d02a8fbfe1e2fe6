import EventFinder.Number.Power

/-!
# Binary floating-point numbers

A format fixes how many values there are; a number is its sign and the *rank* of its magnitude,
that is, how many smaller magnitudes the format has. Ranks below the rank of infinity are the
finite values, ranks above it are the values that are no number. Since the rank grows with the
magnitude, both orders on numbers are orders on integers:

- `Binary.numericKey`: the order of the values, in which both zeros are equal;
- `Binary.totalKey`: the total order of the encodings, in which minus zero is below zero.

Every finite value is a whole number of *units*, the least positive value of its format
(`Binary.units`), so exact arithmetic on values is arithmetic on integers.
-/

set_option autoImplicit false

namespace EventFinder

/-- The widths of the fraction and exponent fields of a binary format. -/
structure Format where
  fractionBits : Nat
  exponentBits : Nat
deriving DecidableEq, Repr

namespace Format

/-- The 32-bit format. -/
def binary32 : Format := ⟨23, 8⟩

/-- The 64-bit format. -/
def binary64 : Format := ⟨52, 11⟩

/-- The rank of infinity: every smaller rank is a finite magnitude. -/
def infinityRank (f : Format) : Nat :=
  (twoPow f.exponentBits - 1) * twoPow f.fractionBits

/-- The least positive value of the format is two to the minus this number. -/
def unitExponent (f : Format) : Nat :=
  f.fractionBits + twoPow (f.exponentBits - 1) - 2

/-- How many units make one. -/
def unitsPerOne (f : Format) : Nat :=
  twoPow f.unitExponent

/-- The magnitude of a finite rank, in units. Ranks below `2 ^ fractionBits` are the subnormal
magnitudes and count themselves; above, each further block of that many ranks doubles the step. -/
def unitsOfRank (f : Format) (rank : Nat) : Nat :=
  let block := rank / twoPow f.fractionBits
  if block = 0 then rank
  else (twoPow f.fractionBits + rank % twoPow f.fractionBits) * twoPow (block - 1)

end Format

/-- A number of a binary format: a sign and the rank of its magnitude. -/
structure Binary (f : Format) where
  negative : Bool
  rank : Nat
deriving DecidableEq, Repr

/-- A 32-bit number. -/
abbrev Binary32 := Binary Format.binary32

/-- A 64-bit number. -/
abbrev Binary64 := Binary Format.binary64

namespace Binary

variable {f : Format}

/-! ## Special values -/

/-- Zero without a sign. -/
def zero : Binary f := ⟨false, 0⟩

instance : Inhabited (Binary f) := ⟨zero⟩

/-- The infinity of the given sign. -/
def infinity (negative : Bool) : Binary f := ⟨negative, f.infinityRank⟩

/-- The quiet value that is no number, of the given sign. -/
def quiet (negative : Bool) : Binary f :=
  ⟨negative, f.infinityRank + twoPow (f.fractionBits - 1)⟩

/-- The result of an operation that has none, such as infinity minus infinity: its sign is set. -/
def invalid : Binary f := quiet true

/-- Is `x` no number? -/
def isNaN (x : Binary f) : Bool := decide (f.infinityRank < x.rank)

/-- Is `x` one of the two infinities? -/
def isInfinite (x : Binary f) : Bool := decide (x.rank = f.infinityRank)

/-- Is `x` a value of finite magnitude? -/
def isFinite (x : Binary f) : Bool := decide (x.rank < f.infinityRank)

/-- Is `x` one of the two zeros? -/
def isZero (x : Binary f) : Bool := decide (x.rank = 0)

/-- The number with its sign turned. -/
def neg (x : Binary f) : Binary f := ⟨!x.negative, x.rank⟩

instance : Neg (Binary f) := ⟨neg⟩

/-! ## Order -/

/-- The integer by which numbers compare as values: both zeros have the same one. -/
def numericKey (x : Binary f) : Int :=
  if x.negative then -(x.rank : Int) else x.rank

/-- The integer by which numbers compare in the total order of encodings: every negative number,
minus zero included, is below every other. -/
def totalKey (x : Binary f) : Int :=
  if x.negative then -(x.rank : Int) - 1 else x.rank

/-- Is `x` below `y` as a value? Nothing is below or above what is no number. -/
def lt (x y : Binary f) : Bool :=
  !x.isNaN && !y.isNaN && decide (x.numericKey < y.numericKey)

/-- Is `x` at most `y` as a value? -/
def le (x y : Binary f) : Bool :=
  !x.isNaN && !y.isNaN && decide (x.numericKey ≤ y.numericKey)

/-- Are `x` and `y` the same value? -/
def same (x y : Binary f) : Bool :=
  !x.isNaN && !y.isNaN && decide (x.numericKey = y.numericKey)

/-- The larger of two numbers; what is no number is passed over. -/
def max (x y : Binary f) : Binary f :=
  if x.isNaN then y
  else if y.isNaN then x
  else if x.lt y then y else x

/-- The smaller of two numbers; what is no number is passed over. -/
def min (x y : Binary f) : Binary f :=
  if x.isNaN then y
  else if y.isNaN then x
  else if y.lt x then y else x

/-! ## Exact values -/

/-- The value of a finite number, in units of its format. -/
def units (x : Binary f) : Int :=
  if x.negative then -(f.unitsOfRank x.rank : Int) else f.unitsOfRank x.rank

end Binary

end EventFinder
