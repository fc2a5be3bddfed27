import MessageStore.Binary64.Pair
import MessageStore.Text.Digits

/-!
# Numerals

Texts that look like a number, and the real that a numeral stands for.  The
first digits, as many as an unsigned 64-bit integer is sure to hold, make a
significand; the others count by their places only.  The significand is moved by
the power of ten in pairs and rounded at the end, so that the result can miss
the nearest value in the last place.
-/

namespace MessageStore.Relational

open Rounding (twoTo)
open Text (isDigit digitValue digitsValue)

/-- A decimal numeral in parts. -/
structure Numeral where
  negative : Bool
  whole : List Char
  /-- The digits after the point, if there is a point. -/
  fraction : Option (List Char)
  /-- The sign and the digits of the exponent, if there is one. -/
  exponent : Option (Bool × List Char)
  deriving DecidableEq, Repr

namespace Numeral

/-- A blank that may stand around a numeral: a space or a line control. -/
def isBlank (c : Char) : Bool :=
  c == ' ' || ('\x09' ≤ c && c ≤ '\x0d')

/-- A sign, plus if there is none, and the text after it. -/
def splitSign : List Char → Bool × List Char
  | '-' :: rest => (true, rest)
  | '+' :: rest => (false, rest)
  | text => (false, text)

/-- The digits after a point, if the text begins with one, and what follows. -/
def splitFraction : List Char → Option (List Char) × List Char
  | '.' :: rest => (some (rest.takeWhile isDigit), rest.dropWhile isDigit)
  | text => (none, text)

/-- The exponent, if the text begins with one, and what follows. -/
def splitExponent : List Char → Option (Bool × List Char) × List Char
  | [] => (none, [])
  | c :: rest =>
      if c = 'e' ∨ c = 'E' then
        let (negative, digitsOn) := splitSign rest
        match digitsOn.takeWhile isDigit with
        | [] => (none, c :: rest)
        | digits => (some (negative, digits), digitsOn.dropWhile isDigit)
      else (none, c :: rest)

/-- The numeral at the front of a text, behind blanks, and what follows.  It may have no digits. -/
def split (text : List Char) : Numeral × List Char :=
  let (negative, unsigned) := splitSign (text.dropWhile isBlank)
  let (fraction, afterFraction) := splitFraction (unsigned.dropWhile isDigit)
  let (exponent, rest) := splitExponent afterFraction
  (⟨negative, unsigned.takeWhile isDigit, fraction, exponent⟩, rest)

/-- The numeral that a text is, blanks around it apart. -/
def ofText? (text : String) : Option Numeral :=
  let (numeral, rest) := split text.toList
  if (numeral.whole ≠ [] ∨ numeral.fraction.getD [] ≠ []) ∧ rest.all isBlank then some numeral
  else none

/-- The integer that a numeral without point and exponent stands for. -/
def integer? (numeral : Numeral) : Option Int :=
  if numeral.fraction.isNone ∧ numeral.exponent.isNone then
    some (if numeral.negative then -(digitsValue numeral.whole : Int)
      else digitsValue numeral.whole)
  else none

/-- A significand and a power of ten. -/
structure Scientific where
  significand : Nat
  power : Int
  deriving DecidableEq, Repr

/-- A significand that has reached this bound takes in no more digits. -/
def gatherBound : Nat := (twoTo 64 - 10) / 10

/-- Take digits into a significand while it is below the bound.  Returns how many there are left
over as well. -/
def gather (significand : Nat) : List Char → Nat × Nat
  | [] => (significand, 0)
  | c :: digits =>
      if significand < gatherBound then gather (10 * significand + digitValue c) digits
      else (significand, digits.length + 1)

/-- The greatest power of ten that is told apart. -/
def exponentBound : Nat := 10000

/-- The number that the digits of an exponent stand for; from the bound on it goes no further. -/
def exponentValue (digits : List Char) : Nat :=
  digits.foldl (fun value c =>
    if value < exponentBound then 10 * value + digitValue c else exponentBound) 0

/-- The significand and the power of ten of a numeral. -/
def scientific (numeral : Numeral) : Scientific :=
  let (significand, dropped) := gather 0 numeral.whole
  let fraction := numeral.fraction.getD []
  let (significand, ignored) := gather significand fraction
  let power : Int :=
    match numeral.exponent with
    | none => 0
    | some (negative, digits) =>
        if negative then -(exponentValue digits : Int) else exponentValue digits
  ⟨significand, power + dropped - (fraction.length - ignored : Nat)⟩

/-- Below this bound a significand takes in a factor of ten. -/
def growthBound : Nat := (twoTo 64 - 2048) / 10

/-- Take factors of ten into a significand.  Returns how many there are left over as well. -/
def grow (significand : Nat) : Nat → Nat × Nat
  | 0 => (significand, 0)
  | power + 1 =>
      if significand < growthBound then grow (10 * significand) power
      else (significand, power + 1)

/-- Take factors of ten out of a significand, at most as many as told.  Returns how many are left
to be taken out as well. -/
def shrink (significand : Nat) : Nat → Nat × Nat
  | 0 => (significand, 0)
  | places + 1 =>
      if significand % 10 = 0 then shrink (significand / 10) places
      else (significand, places + 1)

/-- The significand and the power of ten with as much as possible of the power in the
significand. -/
def Scientific.reduced (number : Scientific) : Scientific :=
  if 0 ≤ number.power then
    let (significand, power) := grow number.significand number.power.toNat
    ⟨significand, power⟩
  else
    let (significand, places) := shrink number.significand (-number.power).toNat
    ⟨significand, -places⟩

/-- The magnitude of a significand times a power of ten; too large a number is an infinity. -/
def Scientific.magnitude (number : Scientific) : Binary64 :=
  if number.significand = 0 then .finite 0
  else
    let reduced := number.reduced
    match (Binary64.Pair.ofNat reduced.significand).move? reduced.power with
    | some pair => pair.sum
    | none => .infinite false

/-- The real that a numeral stands for. -/
def real (numeral : Numeral) : Binary64 :=
  .signed numeral.negative numeral.scientific.magnitude

end Numeral

end MessageStore.Relational
