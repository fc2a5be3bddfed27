import MessageStore.Binary64.Pair

/-!
# Real cells as decimal text

Two decimal texts of a real cell: the one that it turns into in a text column,
with fifteen significant digits, and the one it is shown with, the fewest
digits that read back as the same value.  Both write at least one digit after a
point, and both turn to an exponent for very large and very small values.

The fifteen digits are those of an integer of 18 or 19 digits, to which the value
is scaled in pairs; the sixteenth digit decides alone how they are rounded.
-/

namespace MessageStore.Relational.Decimal

open Rounding (tenTo)

/-- Significant digits, and the power of ten of the first. -/
structure Digits where
  digits : List Char
  exponent : Int
  deriving DecidableEq, Repr

/-- The power of ten of the first digit of a positive fraction. -/
def leadingExponent (numerator denominator : Nat) : Int :=
  let estimate : Int :=
    ((Nat.toDigits 10 numerator).length : Int) - (Nat.toDigits 10 denominator).length
  let reaches : Bool :=
    if 0 ≤ estimate then denominator * tenTo estimate.toNat ≤ numerator
    else denominator ≤ numerator * tenTo (-estimate).toNat
  if reaches then estimate else estimate - 1

/-- A fraction times a power of ten. -/
def scaled (numerator denominator : Nat) (power : Int) : Nat × Nat :=
  if 0 ≤ power then (numerator * tenTo power.toNat, denominator)
  else (numerator, denominator * tenTo (-power).toNat)

/-- A number of `count` digits or the power of ten above them, as digits. -/
def Digits.ofCount (count : Nat) (value : Nat) (exponent : Int) : Digits :=
  let digits := Nat.toDigits 10 value
  ⟨digits.take count, if digits.length = count then exponent else exponent + 1⟩

/-- A positive fraction rounded to a number of significant digits; a tie goes away from zero. -/
def rounded (count numerator denominator : Nat) : Digits :=
  let exponent := leadingExponent numerator denominator
  let (p, q) := scaled numerator denominator (count - 1 - exponent)
  .ofCount count (Rounding.upwards p q) exponent

/-- The decimal with the given number of digits that reads back as the value, if there is one.

Only the two neighbours of the value can be; the nearer comes first, in a tie the greater. -/
def readsBack? (count numerator denominator : Nat) : Option Digits :=
  let exponent := leadingExponent numerator denominator
  let power : Int := count - 1 - exponent
  let (p, q) := scaled numerator denominator power
  let below := p / q
  let neighbours := if 2 * (p % q) < q then [below, below + 1] else [below + 1, below]
  let value := Binary64.ofFraction numerator denominator
  (neighbours.find? fun near => Binary64.ofDecimal false near (-power) == value).map fun near =>
    .ofCount count near exponent

/-- The fewest digits that read back as the value; seventeen are always enough. -/
def shortest (numerator denominator : Nat) : Digits :=
  ((List.range 17).findSome? fun fewer => readsBack? (fewer + 1) numerator denominator).getD
    (rounded 17 numerator denominator)

/-- Digits without the zeros at their end. -/
def withoutTrailingZeros (digits : List Char) : List Char :=
  (digits.reverse.dropWhile (· == '0')).reverse

/-- Digits of which at least one is written. -/
def atLeastOne (digits : List Char) : List Char :=
  if digits = [] then ['0'] else digits

/-- Digits with a point in their place, and at least one digit on each side of it. -/
def positional (value : Digits) : List Char :=
  let digits := withoutTrailingZeros value.digits
  if value.exponent < 0 then
    '0' :: '.' :: (List.replicate ((-value.exponent).toNat - 1) '0' ++ atLeastOne digits)
  else
    let whole := value.exponent.toNat + 1
    digits.take whole ++ List.replicate (whole - digits.length) '0' ++
      '.' :: atLeastOne (digits.drop whole)

/-- A decimal from 10^17 to 10^19, about, times a power of ten. -/
structure Scaled where
  pair : Binary64.Pair
  exponent : Int

/-- A scaled value moved down by the given places as often as it is above a bound, and at most
as often as told. -/
def Scaled.lower (bound : Dyadic) (places : Nat) : Nat → Scaled → Option Scaled
  | 0, value => some value
  | n + 1, value =>
      if bound < value.pair.value then do
        lower bound places n ⟨← value.pair.move? (-places), value.exponent + places⟩
      else some value

/-- A scaled value moved up by the given places as often as it is below a bound, and at most as
often as told. -/
def Scaled.raise (bound : Dyadic) (places : Nat) : Nat → Scaled → Option Scaled
  | 0, value => some value
  | n + 1, value =>
      if value.pair.value < bound then do
        raise bound places n ⟨← value.pair.move? places, value.exponent - places⟩
      else some value

/-- The value nearest to the given digits times a power of ten. -/
def bound (digits : Nat) (power : Int) : Dyadic :=
  ((Binary64.ofDecimal false digits power).finite?).getD 0

/-- How often a value has to be moved at most, whatever the number of places. -/
def mostMoves : Nat := 20

/-- A positive value as an integer of 18 or 19 digits times a power of ten. -/
def Scaled.of? (value : Dyadic) : Option Scaled := do
  let largest := bound 9223372036854774784 0
  let start : Scaled := ⟨⟨value, 0⟩, 0⟩
  if largest < value then
    let byHundreds ← start.lower (bound 9223372036854774784 100) 100 mostMoves
    let byTens ← byHundreds.lower (bound 9223372036854774784 10) 10 mostMoves
    byTens.lower largest 1 mostMoves
  else
    let byHundreds ← start.raise (bound 9223372036854774784 (-101)) 100 mostMoves
    let byTens ← byHundreds.raise (bound 9223372036854774784 (-11)) 10 mostMoves
    byTens.raise (bound 922337203685477478 0) 1 mostMoves

/-- The whole part of a value. -/
def wholePart (value : Dyadic) : Nat :=
  let (_, numerator, denominator) := Binary64.fraction value
  numerator / denominator

/-- The integer that a scaled value stands for: the whole parts of the value and of its
correction. -/
def Scaled.integer (value : Scaled) : Nat :=
  if value.pair.correction < 0 then
    wholePart value.pair.value - wholePart value.pair.correction
  else wholePart value.pair.value + wholePart value.pair.correction

/-- The digits of an integer times a power of ten, of which the given number is kept; the first
digit that is not kept decides whether the last one that is goes up. -/
def keep (count value : Nat) (exponent : Int) : Digits :=
  let length := (Nat.toDigits 10 value).length
  let first : Int := length - 1 + exponent
  if length ≤ count then ⟨Nat.toDigits 10 value, first⟩
  else .ofCount count ((value / tenTo (length - count - 1) + 5) / 10) first

/-- Fifteen significant digits of a positive value. -/
def fifteen (value : Dyadic) : Digits :=
  match Scaled.of? value with
  | some scaled => keep 15 scaled.integer scaled.exponent
  | none =>
      let (_, numerator, denominator) := Binary64.fraction value
      rounded 15 numerator denominator

/-- The text in a text column: fifteen digits; outside 10^-4 to 10^15 an exponent with a sign
and at least two digits. -/
def columnText : Binary64 → String
  | .infinite negative => if negative then "-Inf" else "Inf"
  | .finite value =>
      let sign := if value < 0 then ['-'] else []
      if value = 0 then "0.0"
      else
        let value := fifteen (if value < 0 then -value else value)
        if -4 ≤ value.exponent ∧ value.exponent ≤ 14 then
          String.ofList (sign ++ positional value)
        else
          let magnitude := Nat.toDigits 10 value.exponent.natAbs
          String.ofList (sign ++ positional ⟨value.digits, 0⟩ ++
            ['e', if value.exponent < 0 then '-' else '+'] ++
            List.replicate (2 - magnitude.length) '0' ++ magnitude)

/-- The text that a real cell is shown with: the shortest digits; below 10^-4 and from 10^16 on
an exponent. -/
def shownText : Binary64 → String
  | .infinite negative => if negative then "-inf" else "inf"
  | .finite value =>
      let (negative, numerator, denominator) := Binary64.fraction value
      let sign := if negative then ['-'] else []
      if numerator = 0 then "0.0"
      else
        let value := shortest numerator denominator
        if -4 ≤ value.exponent ∧ value.exponent ≤ 15 then
          String.ofList (sign ++ positional value)
        else
          let digits := withoutTrailingZeros value.digits
          let point := if 1 < digits.length then ['.'] else []
          String.ofList (sign ++ digits.take 1 ++ point ++ digits.drop 1 ++ 'e' ::
            (toString value.exponent).toList)

end MessageStore.Relational.Decimal
