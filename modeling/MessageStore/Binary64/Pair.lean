import MessageStore.Binary64.Basic

/-!
# Pairs of 64-bit values

A real as the sum of a 64-bit value and a 64-bit correction, which together hold
about twice as many significant bits as one value.  Products of such pairs are
taken in 64-bit arithmetic: each value is split into a coarse and a fine half, so
that the products of the halves lose next to nothing.  A product is missing if
something on the way to it is not finite.
-/

namespace MessageStore.Binary64

open Rounding (tenTo twoTo)

/-- The value nearest to a dyadic rational, if it is finite. -/
def nearest? (value : Dyadic) : Option Dyadic :=
  (ofDyadic value).finite?

/-- The coarse half of a value: it without the low 26 bits of its significand. -/
def coarse (value : Dyadic) : Dyadic :=
  match value with
  | .zero => 0
  | .ofOdd odd precision _ =>
      let unit := unitExponent (odd.natAbs.log2 - precision) + 26
      if unit ≤ -precision then value
      else
        let magnitude := odd.natAbs / twoTo (unit + precision).toNat
        Dyadic.ofIntWithPrec (if odd < 0 then -(magnitude : Int) else magnitude) (-unit)

/-- A value and its correction. -/
structure Pair where
  value : Dyadic
  correction : Dyadic
  deriving DecidableEq

namespace Pair

/-- The product of two pairs; that of their corrections is left out. -/
def times? (x y : Pair) : Option Pair := do
  let xCoarse := coarse x.value
  let yCoarse := coarse y.value
  let xFine := x.value - xCoarse
  let yFine := y.value - yCoarse
  let main ← nearest? (xCoarse * yCoarse)
  let mixed ← nearest? ((← nearest? (xCoarse * yFine)) + (← nearest? (xFine * yCoarse)))
  let product ← nearest? (main + mixed)
  let lost ← nearest? ((← nearest? (main - product)) + mixed)
  let rest ← nearest? (lost + (← nearest? (xFine * yFine)))
  let outer ← nearest?
    ((← nearest? (x.value * y.correction)) + (← nearest? (x.correction * y.value)))
  let correction ← nearest? (outer + rest)
  let value ← nearest? (product + correction)
  return ⟨value, ← nearest? ((← nearest? (product - value)) + correction)⟩

/-- A pair times a factor, as often as told. -/
def timesOften? (factor : Pair) : Nat → Pair → Option Pair
  | 0, pair => some pair
  | n + 1, pair => do timesOften? factor n (← pair.times? factor)

/-- The pair nearest to a power of ten. -/
def powerOfTen (exponent : Int) : Pair :=
  match ofDecimal false 1 exponent with
  | infinite _ => ⟨0, 0⟩
  | finite value =>
      let (_, p, q) := fraction value
      let numerator := if 0 ≤ exponent then tenTo exponent.toNat else 1
      let denominator := if 0 ≤ exponent then 1 else tenTo (-exponent).toNat
      let difference : Int := (numerator * q : Nat) - (p * denominator : Nat)
      let correction := ofFraction difference.natAbs (denominator * q)
      ⟨value, ((signed (difference < 0) correction).finite?).getD 0⟩

/-- A pair moved by decimal places, in steps of a hundred, ten and one. -/
def move? (pair : Pair) (places : Int) : Option Pair := do
  let count := places.natAbs
  let step (size : Int) : Pair := powerOfTen (if 0 ≤ places then size else -size)
  let byHundreds ← timesOften? (step 100) (count / 100) pair
  let byTens ← timesOften? (step 10) (count % 100 / 10) byHundreds
  timesOften? (step 1) (count % 10) byTens

/-- The pair of an integer below 2^64.  The value of an integer that rounds to 2^64 itself has no
correction. -/
def ofNat (n : Nat) : Pair :=
  match ofFraction n 1 with
  | infinite _ => ⟨0, 0⟩
  | finite value =>
      if value < (twoTo 64 : Int) then
        ⟨value, ((ofDyadic ((n : Int) - value)).finite?).getD 0⟩
      else ⟨value, 0⟩

/-- The value nearest to the sum of a value and its correction. -/
def sum (pair : Pair) : Binary64 :=
  ofDyadic (pair.value + pair.correction)

end Pair

end MessageStore.Binary64
