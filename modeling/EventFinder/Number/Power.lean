/-!
# Powers and widths

Powers of two and of ten as natural numbers, and the integers that fit a number of bits.
-/

set_option autoImplicit false

namespace EventFinder

/-- Two to the power `n`. -/
def twoPow (n : Nat) : Nat := Nat.pow 2 n

/-- Ten to the power `n`. -/
def tenPow (n : Nat) : Nat := Nat.pow 10 n

theorem twoPow_zero : twoPow 0 = 1 := rfl

theorem twoPow_succ (n : Nat) : twoPow (n + 1) = twoPow n * 2 := rfl

theorem tenPow_zero : tenPow 0 = 1 := rfl

theorem tenPow_succ (n : Nat) : tenPow (n + 1) = tenPow n * 10 := rfl

theorem twoPow_pos (n : Nat) : 0 < twoPow n := by
  induction n with
  | zero => decide
  | succ n ih => rw [twoPow_succ]; omega

theorem tenPow_pos (n : Nat) : 0 < tenPow n := by
  induction n with
  | zero => decide
  | succ n ih => rw [tenPow_succ]; omega

/-- Does an integer fit so many bits without a sign? -/
def fitsUnsigned (bits : Nat) (n : Int) : Bool := decide (0 ≤ n ∧ n < twoPow bits)

/-- Does an integer fit so many bits with a sign? -/
def fitsSigned (bits : Nat) (n : Int) : Bool :=
  decide (-(twoPow (bits - 1) : Int) ≤ n ∧ n < twoPow (bits - 1))

example : fitsSigned 8 (-128) = true ∧ fitsSigned 8 128 = false ∧ fitsUnsigned 8 255 = true := by
  decide

end EventFinder
