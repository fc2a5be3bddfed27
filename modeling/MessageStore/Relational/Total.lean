import MessageStore.Relational.Cell
import MessageStore.Relational.Fault
import MessageStore.Relational.Numeral

/-!
# Sums of cells

The sum of a column.  Integers are added exactly; the sum is an integer if all
cells are and every running sum is in range.  From the first cell on that is no
integer, or that leaves the range, the sum goes on in reals.  That a running sum
left the range is a fault at the end, unless a cell that is no integer came
later.
-/

namespace MessageStore.Relational

/-- A sum of cells. -/
inductive Total
  | integer (sum : Int64)
  | real
  /-- Infinities of both signs have been added. -/
  | undefined
  deriving DecidableEq, Repr

namespace Total

/-- What a cell counts as in a sum. -/
inductive Summand
  | integer (value : Int64)
  | real (value : Binary64)

/-- What a text counts as: the number that it looks like, or else the one that it begins with. -/
def Summand.ofText (text : String) : Summand :=
  match (Numeral.ofText? text).bind Numeral.integer? with
  | some value =>
      if Int64.minValue.toInt ≤ value ∧ value ≤ Int64.maxValue.toInt then
        integer (Int64.ofInt value)
      else real (Numeral.split text.toList).1.real
  | none => real (Numeral.split text.toList).1.real

/-- What a cell counts as; a null does not count. -/
def summand? : Cell → Option Summand
  | .null => none
  | .integer value => some (.integer value)
  | .real value => some (.real value)
  | .text text => some (.ofText text)
  | .blob bytes =>
      some (.real (Numeral.split (bytes.map fun byte => Char.ofNat byte.toNat)).1.real)

/-- A sum as far as it has been taken. -/
inductive Partial
  | exact (sum : Int)
  /-- A sum in reals, if it is defined, and whether integers have left the range. -/
  | approximate (sum : Option Binary64) (overflowed : Bool)

/-- The real nearest to an integer. -/
def nearest (value : Int) : Binary64 :=
  .ofDyadic value

/-- Add to a sum. -/
def Partial.add : Partial → Summand → Partial
  | exact sum, .integer value =>
      let next := sum + value.toInt
      if Int64.minValue.toInt ≤ next ∧ next ≤ Int64.maxValue.toInt then exact next
      else approximate ((nearest sum).add? (nearest value.toInt)) true
  | exact sum, .real value => approximate ((nearest sum).add? value) false
  | approximate sum overflowed, .integer value =>
      approximate (sum.bind (·.add? (nearest value.toInt))) overflowed
  | approximate sum _, .real value => approximate (sum.bind (·.add? value)) false

/-- The sum that has been taken. -/
def Partial.total : Partial → Except Fault Total
  | exact sum => .ok (integer (Int64.ofInt sum))
  | approximate _ true => .error .integerOverflow
  | approximate none false => .ok undefined
  | approximate (some _) false => .ok real

/-- The sum of cells.  Nulls do not count; without any other cell the sum is zero. -/
def ofCells (cells : List Cell) : Except Fault Total :=
  ((cells.filterMap summand?).foldl Partial.add (.exact 0)).total

end Total

end MessageStore.Relational
