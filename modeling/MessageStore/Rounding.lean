/-!
# Rounded quotients

Quotients of natural numbers rounded to the nearest integer, with a tie going
to the even neighbour or upwards, and the powers of two and ten that scale
them.
-/

namespace MessageStore.Rounding

/-- A power of two. -/
def twoTo (exponent : Nat) : Nat :=
  Nat.pow 2 exponent

/-- A power of ten. -/
def tenTo (exponent : Nat) : Nat :=
  Nat.pow 10 exponent

/-- The integer nearest to a quotient; a tie goes to the even one. -/
def toEven (numerator denominator : Nat) : Nat :=
  let quotient := numerator / denominator
  let twice := 2 * (numerator % denominator)
  if denominator < twice ∨ (twice = denominator ∧ quotient % 2 = 1) then quotient + 1
  else quotient

/-- The integer nearest to a quotient; a tie goes upwards. -/
def upwards (numerator denominator : Nat) : Nat :=
  (2 * numerator + denominator) / (2 * denominator)

@[simp]
theorem toEven_one (n : Nat) : toEven n 1 = n := by
  simp [toEven, Nat.mod_one]

end MessageStore.Rounding
