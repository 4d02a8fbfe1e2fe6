import EventFinder.Number.Binary

/-!
# Rounding exact values to a binary format

An exact magnitude is a quotient of naturals, measured in units of the format. `Format.nearestRank`
is the rank of the value nearest to it, an exact tie going to the even rank, and infinity from the
point on where the next value would be too large for the format. Every operation that is exact up
to one rounding is this function after integer arithmetic.
-/

set_option autoImplicit false

namespace EventFinder

/-! ## Quotients rounded to whole numbers -/

/-- The whole number nearest to `n / d`; a half goes to the even neighbour. -/
def roundHalfEven (n d : Nat) : Nat :=
  let q := n / d
  let r := n % d
  if 2 * r < d then q
  else if d < 2 * r then q + 1
  else if q % 2 = 0 then q else q + 1

/-- A whole quotient is its own rounding. -/
theorem roundHalfEven_mul (q d : Nat) (hd : 0 < d) : roundHalfEven (q * d) d = q := by
  simp [roundHalfEven, Nat.mul_div_cancel _ hd, hd]

/-- The rounding is one of the two whole neighbours. -/
theorem roundHalfEven_bounds (n d : Nat) :
    n / d ≤ roundHalfEven n d ∧ roundHalfEven n d ≤ n / d + 1 := by
  unfold roundHalfEven
  simp only
  split
  · omega
  · split
    · omega
    · split <;> omega

namespace Format

/-- The rank of the magnitude nearest to `n / d` units. Magnitudes whose quotient has more binary
digits than the format keeps are rounded at the last digit kept. -/
def nearestRank (f : Format) (n d : Nat) : Nat :=
  let shift := (n / d).log2 - f.fractionBits
  Nat.min f.infinityRank (roundHalfEven n (d * twoPow shift) + shift * twoPow f.fractionBits)

end Format

namespace Binary

variable {f : Format}

/-! ## Numbers from exact values -/

/-- The number of the given sign nearest to `n / d` units. -/
def ofUnits (negative : Bool) (n d : Nat) : Binary f :=
  ⟨negative, f.nearestRank n d⟩

/-- The number of the given sign nearest to `n / d`. -/
def ofRatio (negative : Bool) (n d : Nat) : Binary f :=
  ofUnits negative (n * f.unitsPerOne) d

/-- The number nearest to a whole number; zero has no sign. -/
def ofInt (n : Int) : Binary f :=
  ofRatio (decide (n < 0)) n.natAbs 1

/-- The number of another format nearest to `x`. Signs are kept, also those of zero, of infinity
and of what is no number. -/
def convert {g : Format} (x : Binary f) : Binary g :=
  if x.isNaN then quiet x.negative
  else if x.isInfinite then infinity x.negative
  else ofUnits x.negative (f.unitsOfRank x.rank * g.unitsPerOne) f.unitsPerOne

example : (ofRatio false 1 10 : Binary64).rank = 0x3FB999999999999A := by decide +kernel

example : (convert (ofRatio false 1 10 : Binary64) : Binary32).rank = 0x3DCCCCCD := by
  decide +kernel

end Binary

end EventFinder
