import MessageStore.Binary64.Basic
import MessageStore.Json.Reader
import MessageStore.Text.Digits

/-!
# JSON numbers

Reading a number and skipping one.  A number that is read is a natural number
below 2^64, a negative integer not below -2^63, or anything else, which counts
as fractional: numbers with a point or an exponent, larger integers, and `-0`.

A fractional number has a value in the 64-bit binary format and must not be too
large for it.  The value is the leading digits, as many as fit into 64 bits,
times or over a power of ten; both and the result are rounded.
-/

namespace MessageStore.Json

open Rounding (twoTo)
open Text (isDigit digitValue digitsValue)

/-- A number that has been read. -/
inductive Number
  /-- An integer from 0 to 2^64 - 1. -/
  | natural (value : Nat)
  /-- The negative of an integer from 1 to 2^63. -/
  | negative (magnitude : Nat)
  /-- Any other number, by its value in the 64-bit binary format. -/
  | fractional (value : Dyadic)
  deriving DecidableEq

/-- The bound below which digits are gathered into one significand. -/
def significandBound : Nat := twoTo 64

/-- Gather digits into a significand until the next one does not fit.

Returns the significand and the digits that are left over. -/
def gather (significand : Nat) : List Char → Nat × List Char
  | [] => (significand, [])
  | c :: digits =>
      let grown := 10 * significand + digitValue c
      if grown < significandBound then gather grown digits
      else (significand, c :: digits)

/-- A significand times a power of ten, unless it is too large for the 64-bit binary format.

The value is taken over a large power of ten twice: first over the greatest that there is. -/
def magnitude? (significand : Nat) (power : Int) : Option Dyadic := do
  let value ← (Binary64.ofFraction significand 1).finite?
  let greatest := Binary64.greatestPower
  if value = 0 then return 0
  else if greatest < power then none
  else if 0 ≤ power then (Binary64.timesTen value power.toNat).finite?
  else
    let places := (-power).toNat
    if places ≤ greatest then (Binary64.overTen value places).finite?
    else if places ≤ 2 * greatest then
      (Binary64.overTen (← (Binary64.overTen value greatest).finite?) (places - greatest)).finite?
    else return 0

/-- The digits at the front of a text, and what follows them. -/
def splitDigits (text : List Char) : List Char × List Char :=
  (text.takeWhile isDigit, text.dropWhile isDigit)

/-- The parts of a number as it is written. -/
structure NumberText where
  /-- The digits before the point. -/
  whole : List Char
  /-- The digits after the point, if there is a point. -/
  fraction : Option (List Char)
  /-- The sign and the digits of the exponent, if there is one. -/
  exponent : Option (Bool × List Char)

/-- The exponent, if the text goes on with one.

A text that ends before the digits is truncated. -/
def exponentPart (text : List Char) : Except Fault (Option (Bool × List Char) × List Char) :=
  match text with
  | c :: rest =>
      if c = 'e' ∨ c = 'E' then
        let (negative, digitsOn) :=
          match rest with
          | '+' :: later => (false, later)
          | '-' :: later => (true, later)
          | _ => (false, rest)
        match splitDigits digitsOn with
        | ([], []) => .error .truncated
        | ([], _ :: _) => .error .malformed
        | (digits, later) => .ok (some (negative, digits), later)
      else .ok (none, text)
  | [] => .ok (none, text)

/-- The fraction, if the text goes on with a point. -/
def fractionPart (text : List Char) : Except Fault (Option (List Char) × List Char) :=
  match text with
  | '.' :: rest =>
      match splitDigits rest with
      | ([], []) => .error .truncated
      | ([], _ :: _) => .error .malformed
      | (digits, later) => .ok (some digits, later)
  | _ => .ok (none, text)

/-- The parts of a number without its sign, and what follows it.

A number has no leading zero beside a lone one. -/
def numberText (text : List Char) : Except Fault (NumberText × List Char) :=
  match splitDigits text with
  | ([], []) => .error .truncated
  | ([], _ :: _) => .error .malformed
  | ('0' :: _ :: _, _) => .error .malformed
  | (whole, afterWhole) =>
      match fractionPart afterWhole with
      | .error fault => .error fault
      | .ok (fraction, afterFraction) =>
          match exponentPart afterFraction with
          | .error fault => .error fault
          | .ok (exponent, rest) => .ok (⟨whole, fraction, exponent⟩, rest)

/-- The significand and the power of ten that the parts of a number stand for. -/
def NumberText.scaled (number : NumberText) : Nat × Int :=
  let (significand, dropped) := gather 0 number.whole
  let fraction := number.fraction.getD []
  let (significand, unused) := gather significand fraction
  let power : Int :=
    match number.exponent with
    | none => 0
    | some (negative, digits) =>
        if negative then -(digitsValue digits : Int) else digitsValue digits
  (significand, dropped.length - (fraction.length - unused.length : Nat) + power)

/-- The number with the given sign and parts, unless it is too large. -/
def NumberText.value (negative : Bool) (number : NumberText) : Except Fault Number :=
  let magnitude := digitsValue number.whole
  if number.fraction.isNone ∧ number.exponent.isNone ∧ magnitude < significandBound then
    if negative = false then .ok (.natural magnitude)
    else if 0 < magnitude ∧ magnitude ≤ twoTo 63 then .ok (.negative magnitude)
    else fractional number
  else fractional number
where
  /-- The number by its value. -/
  fractional (number : NumberText) : Except Fault Number :=
    let (significand, power) := number.scaled
    match magnitude? significand power with
    | some magnitude => .ok (.fractional (if negative then -magnitude else magnitude))
    | none => .error .malformed

theorem splitDigits_append (text : List Char) :
    (splitDigits text).1 ++ (splitDigits text).2 = text :=
  List.takeWhile_append_dropWhile

theorem length_of_splitDigits {text digits rest : List Char}
    (split : splitDigits text = (digits, rest)) :
    digits.length + rest.length = text.length := by
  have whole := splitDigits_append text
  rw [split] at whole
  simp only at whole
  rw [← List.length_append, whole]

theorem length_of_fractionPart {text rest : List Char} {fraction : Option (List Char)}
    (read : fractionPart text = .ok (fraction, rest)) : rest.length ≤ text.length := by
  unfold fractionPart at read
  split at read
  · rename_i later
    split at read
    · cases read
    · cases read
    · rename_i split
      have size := length_of_splitDigits split
      cases read
      simp only [List.length_cons]
      omega
  · cases read
    exact Nat.le_refl _

theorem length_of_exponentPart {text rest : List Char} {exponent : Option (Bool × List Char)}
    (read : exponentPart text = .ok (exponent, rest)) : rest.length ≤ text.length := by
  unfold exponentPart at read
  split at read
  · rename_i c later
    split at read
    · split at read
      rename_i signed
      split at read
      · cases read
      · cases read
      · rename_i split
        have size := length_of_splitDigits split
        cases read
        split at signed <;> cases signed <;> simp only [List.length_cons] at * <;> omega
    · cases read
      exact Nat.le_refl _
  · cases read
    exact Nat.le_refl _

/-- A number takes at least one character. -/
theorem length_of_numberText {text rest : List Char} {parts : NumberText}
    (read : numberText text = .ok (parts, rest)) : rest.length < text.length := by
  unfold numberText at read
  split at read
  · cases read
  · cases read
  · cases read
  · rename_i whole afterWhole notEmpty notBlocked _ split
    have size := length_of_splitDigits split
    split at read
    · cases read
    · rename_i fractionRead
      split at read
      · cases read
      · rename_i exponentRead
        have := length_of_fractionPart fractionRead
        have := length_of_exponentPart exponentRead
        cases read
        cases whole with
        | nil =>
            cases afterWhole with
            | nil => simp at notEmpty
            | cons c later => exact absurd split (by simpa using notBlocked c later)
        | cons c digits =>
            simp only [List.length_cons] at size
            omega

/-- Whether a number can begin with this character. -/
def beginsNumber (c : Char) : Bool :=
  c == '-' || isDigit c

/-- Whether a text begins with a minus sign, and the text after it. -/
def splitSign (text : List Char) : Bool × List Char :=
  match text with
  | '-' :: rest => (true, rest)
  | _ => (false, text)

theorem length_splitSign_le (text : List Char) : (splitSign text).2.length ≤ text.length := by
  unfold splitSign
  split
  · exact Nat.le_succ _
  · exact Nat.le_refl _

/-- The number at the front of a text that begins with its sign or its first digit. -/
def number : Reader Number := fun text =>
  match h : numberText (splitSign text).2 with
  | .error fault => .error fault
  | .ok (parts, rest) =>
      match parts.value (splitSign text).1 with
      | .error fault => .error fault
      | .ok value =>
          .ok (value, Rest.of (length_splitSign_le text) ⟨rest, length_of_numberText h⟩)

/-- What is left after the number at the front of a text.

Its magnitude is not judged, and a text that ends inside a number is malformed. -/
def skipNumber (text : List Char) : Except Fault (Rest text) :=
  match h : numberText (splitSign text).2 with
  | .error _ => .error .malformed
  | .ok (_, rest) => .ok (Rest.of (length_splitSign_le text) ⟨rest, length_of_numberText h⟩)

end MessageStore.Json
