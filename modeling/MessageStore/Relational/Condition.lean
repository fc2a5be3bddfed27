import MessageStore.Relational.Table

/-!
# Conditions

Which rows a query or a statement is about.  A condition compares columns with
cells, and joins comparisons by `and` and `or`.  The cell that a column is
compared with is first converted as the column would convert it, and a
comparison with null never holds.
-/

namespace MessageStore.Relational

/-- A comparison. -/
inductive Test
  | equal
  | less
  | atMost
  | greater
  | atLeast
  deriving DecidableEq, Repr

/-- Whether a comparison holds of things in the given order. -/
def Test.holds : Test → Ordering → Bool
  | equal, order => order == .eq
  | less, order => order == .lt
  | atMost, order => order != .gt
  | greater, order => order == .gt
  | atLeast, order => order != .lt

/-- A condition on rows. -/
inductive Condition
  | compare (column : String) (test : Test) (cell : Cell)
  | both (first second : Condition)
  | either (first second : Condition)
  deriving DecidableEq

namespace Condition

/-- The columns that a condition names, from left to right. -/
def names : Condition → List String
  | compare column _ _ => [column]
  | both first second => first.names ++ second.names
  | either first second => first.names ++ second.names

/-- Whether a cell of a column compares with another cell as wanted. -/
def cellHolds (affinity : Affinity) (test : Test) (cell operand : Cell) : Bool :=
  let operand := affinity.convert operand
  cell != .null && operand != .null && test.holds (cell.order operand)

/-- Whether a row of a table meets a condition. -/
def holds (table : Table) (row : Row) : Condition → Bool
  | compare name test operand =>
      match table.column? name with
      | none => false
      | some column => cellHolds column.affinity test (row.cell column) operand
  | both first second => first.holds table row && second.holds table row
  | either first second => first.holds table row || second.holds table row

end Condition

end MessageStore.Relational
