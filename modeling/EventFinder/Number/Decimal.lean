import EventFinder.Number.Rounding

/-!
# Decimals of binary floating-point numbers

Which digits a number is written with. `Binary.shortest` takes the fewest digits that read back as
the number: of the two neighbours of the exact value on the coarsest decimal grid that has a point
among the reals that round to the number, the nearer one. `Binary.roundedTo` takes a set number of
digits of the exact value, a half going to the even digit.
-/

set_option autoImplicit false

namespace EventFinder

/-- The decimal `digits · 10 ^ exponent`. -/
structure Decimal where
  digits : Nat
  exponent : Int
deriving DecidableEq, Repr

/-! ## Powers of ten and quotients -/

/-- Is `10 ^ e` at most `n / d`? -/
def tenPowerAtMost (e : Int) (n d : Nat) : Bool :=
  decide (tenPow e.toNat * d ≤ n * tenPow (-e).toNat)

/-- The exponent of the leading decimal digit of `n / d`, estimated from the binary one and then
corrected by exact comparison. -/
def leadingExponent (n d : Nat) : Int :=
  let guess : Int := ((n.log2 : Int) - d.log2) * 30103 / 100000
  if tenPowerAtMost (guess + 2) n d then guess + 2
  else if tenPowerAtMost (guess + 1) n d then guess + 1
  else if tenPowerAtMost guess n d then guess
  else if tenPowerAtMost (guess - 1) n d then guess - 1
  else guess - 2

/-- The whole part of `n / d` over `10 ^ e`. -/
def gridFloor (n d : Nat) (e : Int) : Nat :=
  n * tenPow (-e).toNat / (d * tenPow e.toNat)

/-- The whole number nearest to `n / d` over `10 ^ e`, a half going to the even one. -/
def gridNearest (n d : Nat) (e : Int) : Nat :=
  roundHalfEven (n * tenPow (-e).toNat) (d * tenPow e.toNat)

namespace Decimal

/-- The decimal without the zeros at its end. -/
def strip (limit : Nat) (x : Decimal) : Decimal :=
  match limit with
  | 0 => x
  | limit + 1 =>
      if x.digits ≠ 0 ∧ x.digits % 10 = 0 then strip limit ⟨x.digits / 10, x.exponent + 1⟩ else x

/-- How a decimal half-way between two candidates goes. -/
inductive Tie where
  | toEven
  | up
deriving DecidableEq, Repr

end Decimal

namespace Binary

variable {f : Format}

/-! ## A set number of digits -/

/-- The exact magnitude of a finite number other than zero with `places` digits after the leading
one. -/
def roundedTo (places : Nat) (x : Binary f) : Decimal :=
  let n := f.unitsOfRank x.rank
  let e := leadingExponent n f.unitsPerOne
  let digits := gridNearest n f.unitsPerOne (e - places)
  if digits = tenPow (places + 1) then ⟨tenPow places, e + 1 - places⟩ else ⟨digits, e - places⟩

/-! ## The fewest digits -/

/-- Is `d` among the reals that round to the finite number of rank `rank`? Its ends, half-way to the
neighbours, belong to it exactly when the rank is even. -/
def readsBack (f : Format) (rank : Nat) (d : Decimal) : Bool :=
  let low := f.unitsOfRank (rank - 1) + f.unitsOfRank rank
  let high := f.unitsOfRank rank + f.unitsOfRank (rank + 1)
  let left := 2 * d.digits * tenPow d.exponent.toNat * f.unitsPerOne
  let scale := tenPow (-d.exponent).toNat
  if rank % 2 = 0 then decide (low * scale ≤ left ∧ left ≤ high * scale)
  else decide (low * scale < left ∧ left < high * scale)

/-- The better of the value's two neighbours on the grid `10 ^ e`, if one reads back. -/
def gridCandidate (f : Format) (tie : Decimal.Tie) (rank : Nat) (e : Int) : Option Decimal :=
  let n := f.unitsOfRank rank
  let below : Decimal := ⟨gridFloor n f.unitsPerOne e, e⟩
  let above : Decimal := ⟨below.digits + 1, e⟩
  match readsBack f rank below, readsBack f rank above with
  | false, false => none
  | true, false => some below
  | false, true => some above
  | true, true =>
      let twice := 2 * n * tenPow (-e).toNat
      let middle := (2 * below.digits + 1) * tenPow e.toNat * f.unitsPerOne
      if twice < middle then some below
      else if middle < twice then some above
      else match tie with
        | .up => some above
        | .toEven => if below.digits % 2 = 0 then some below else some above

/-- The fewest digits that read back as the finite number `x` other than zero, tried from one digit
up to `17`, which always suffice for the formats here. -/
def shortest (tie : Decimal.Tie) (x : Binary f) : Decimal :=
  let e := leadingExponent (f.unitsOfRank x.rank) f.unitsPerOne
  let found := (List.range 17).findSome? fun (places : Nat) =>
    gridCandidate f tie x.rank (e - places)
  (found.getD (roundedTo 17 x)).strip 20

example : (ofRatio false 1 10 : Binary64).shortest .toEven = ⟨1, -1⟩ := by decide +kernel

example : (⟨false, 1⟩ : Binary64).shortest .toEven = ⟨5, -324⟩ := by decide +kernel

example : (ofInt (tenPow 23) : Binary64).shortest .toEven = ⟨1, 23⟩ := by decide +kernel

example : (ofRatio false 1 (twoPow 25) : Binary64).shortest .up = ⟨29802322387695313, -24⟩ := by
  decide +kernel

end Binary

end EventFinder
