import MessageStore.Relational.Cell
import MessageStore.Relational.Decimal
import MessageStore.Relational.Numeral

/-!
# Affinities

A column prefers a class of cells and converts what is put into it where
nothing is lost by that.  An integer column turns text that looks like a number
into the number, and a real with an integral value into the integer.  A text
column turns numbers into their text.
-/

namespace MessageStore.Relational

/-- The class of cells that a column prefers. -/
inductive Affinity
  | integer
  | text
  deriving DecidableEq, Repr

/-- The integer cell of an integer in the range of 64 bits. -/
def Cell.ofInt? (value : Int) : Option Cell :=
  if Int64.minValue.toInt ≤ value ∧ value ≤ Int64.maxValue.toInt then
    some (.integer (Int64.ofInt value))
  else none

/-- A real as the integer that it is, if it lies strictly inside the range of 64 bits. -/
def Cell.ofReal (value : Binary64) : Cell :=
  match value.integer? with
  | some n =>
      if Int64.minValue.toInt < n ∧ n < Int64.maxValue.toInt then .integer (Int64.ofInt n)
      else .real value
  | none => .real value

/-- A text as the number that it looks like, if it does. -/
def Cell.ofNumeral (text : String) : Cell :=
  match Numeral.ofText? text with
  | none => .text text
  | some numeral =>
      match numeral.integer?.bind Cell.ofInt? with
      | some cell => cell
      | none => .ofReal numeral.real

/-- The cell that a column of this affinity stores for the given one. -/
def Affinity.convert : Affinity → Cell → Cell
  | integer, .real value => .ofReal value
  | integer, .text value => .ofNumeral value
  | text, .integer value => .text (toString value.toInt)
  | text, .real value => .text (Decimal.columnText value)
  | _, cell => cell

@[simp]
theorem Affinity.convert_null (affinity : Affinity) : affinity.convert .null = .null := by
  cases affinity <;> rfl

@[simp]
theorem Affinity.convert_blob (affinity : Affinity) (bytes : List UInt8) :
    affinity.convert (.blob bytes) = .blob bytes := by
  cases affinity <;> rfl

@[simp]
theorem Affinity.convert_integer (value : Int64) :
    Affinity.integer.convert (.integer value) = .integer value :=
  rfl

@[simp]
theorem Affinity.convert_text (value : String) :
    Affinity.text.convert (.text value) = .text value :=
  rfl

end MessageStore.Relational
