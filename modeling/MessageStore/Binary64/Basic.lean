import MessageStore.Rounding

/-!
# The 64-bit binary format

The values of the 64-bit binary format: dyadic rationals with 53 significant
bits, and the two infinities.  They are kept exactly, so that comparing them
with integers is exact as well.  What lies between two values is rounded to the
nearest; a tie goes to the value whose last bit is zero.
-/

namespace MessageStore

open Rounding (tenTo twoTo)

/-- A value of the 64-bit binary format.  There is only one zero. -/
inductive Binary64
  | finite (value : Dyadic)
  | infinite (negative : Bool)
  deriving DecidableEq

namespace Binary64

/-- The exponent of the unit in the last place of a number whose leading bit has the given
exponent. -/
def unitExponent (leading : Int) : Int :=
  max (leading - 52) (-1074)

/-- The value nearest to a fraction that is not negative. -/
def ofFraction (numerator denominator : Nat) : Binary64 :=
  let estimate : Int := (Nat.log2 numerator : Int) - Nat.log2 denominator
  -- The exponent of the leading bit is the estimate or one less.
  let reaches : Bool :=
    if 0 ≤ estimate then denominator * twoTo estimate.toNat ≤ numerator
    else denominator ≤ numerator * twoTo (-estimate).toNat
  let place := unitExponent (if reaches then estimate else estimate - 1)
  let significand :=
    if 0 ≤ place then Rounding.toEven numerator (denominator * twoTo place.toNat)
    else Rounding.toEven (numerator * twoTo (-place).toNat) denominator
  if 0 ≤ place ∧ twoTo 1024 ≤ significand * twoTo place.toNat then infinite false
  else finite (Dyadic.ofIntWithPrec significand (-place))

/-- The value with the other sign. -/
def negate : Binary64 → Binary64
  | finite value => finite (-value)
  | infinite negative => infinite (!negative)

/-- A value with the given sign whose magnitude is the given value. -/
def signed (negative : Bool) (magnitude : Binary64) : Binary64 :=
  if negative then magnitude.negate else magnitude

/-- The sign of a finite value and its magnitude as a fraction. -/
def fraction (value : Dyadic) : Bool × Nat × Nat :=
  match value with
  | .zero => (false, 0, 1)
  | .ofOdd odd precision _ =>
      if 0 ≤ precision then (odd < 0, odd.natAbs, twoTo precision.toNat)
      else (odd < 0, odd.natAbs * twoTo (-precision).toNat, 1)

/-- The value nearest to a dyadic rational. -/
def ofDyadic (value : Dyadic) : Binary64 :=
  let (negative, numerator, denominator) := fraction value
  signed negative (ofFraction numerator denominator)

/-- The value nearest to a decimal: digits times a power of ten. -/
def ofDecimal (negative : Bool) (digits : Nat) (exponent : Int) : Binary64 :=
  let places : Int := (Nat.toDigits 10 digits).length
  signed negative <|
    if digits = 0 ∨ places + exponent < -330 then finite 0
    else if 310 < places + exponent then infinite false
    else if 0 ≤ exponent then ofFraction (digits * tenTo exponent.toNat) 1
    else ofFraction digits (tenTo (-exponent).toNat)

/-- An integer as a value to compare with; no bits are lost. -/
def exact (value : Int) : Binary64 :=
  finite value

/-- A value that is not an infinity. -/
def finite? : Binary64 → Option Dyadic
  | finite value => some value
  | infinite _ => none

/-- The order of the values, with an infinity at each end. -/
def order : Binary64 → Binary64 → Ordering
  | finite x, finite y => if x < y then .lt else if x = y then .eq else .gt
  | infinite true, infinite true => .eq
  | infinite false, infinite false => .eq
  | infinite true, _ => .lt
  | infinite false, _ => .gt
  | finite _, infinite negative => if negative then .gt else .lt

/-- The integer that a value is, if it is one. -/
def integer? : Binary64 → Option Int
  | finite .zero => some 0
  | finite (.ofOdd odd precision _) =>
      if precision ≤ 0 then some (odd * twoTo (-precision).toNat) else none
  | infinite _ => none

/-- The sum of two values, rounded.  Infinities of both signs have no sum. -/
def add? : Binary64 → Binary64 → Option Binary64
  | finite x, finite y => some (ofDyadic (x + y))
  | infinite x, infinite y => if x = y then some (infinite x) else none
  | infinite x, finite _ => some (infinite x)
  | finite _, infinite y => some (infinite y)

/-- The greatest power of ten that is not an infinity. -/
def greatestPower : Nat := 308

/-- A value that is not negative times a power of ten that is not an infinity; the power is
rounded first, then the product. -/
def timesTen (value : Dyadic) (power : Nat) : Binary64 :=
  match ofFraction (tenTo power) 1 with
  | finite factor => ofDyadic (value * factor)
  | infinite _ => infinite false

/-- A value that is not negative over a power of ten that is not an infinity; the power is
rounded first, then the quotient. -/
def overTen (value : Dyadic) (power : Nat) : Binary64 :=
  match ofFraction (tenTo power) 1 with
  | finite divisor =>
      let (_, p, q) := fraction value
      let (_, r, s) := fraction divisor
      ofFraction (p * s) (q * r)
  | infinite _ => finite 0

@[simp]
theorem signed_false (magnitude : Binary64) : signed false magnitude = magnitude :=
  rfl

end Binary64

end MessageStore
