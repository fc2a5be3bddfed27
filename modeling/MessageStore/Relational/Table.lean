import MessageStore.Relational.Affinity
import MessageStore.Relational.Fault

/-!
# Tables

A table has columns in a physical order and rows in the order of their
positions.  A row holds its cells under the names of the columns; the cell of a
key column of positions is the position itself.  Names are compared without
regard to the case of ASCII letters.

New rows get the next position.  Some tables count on from the largest position
that is present, others from the largest that was ever used, so that no
position returns.
-/

namespace MessageStore.Relational

/-- A name with its ASCII letters in lower case. -/
def foldName (name : String) : List Char :=
  name.toList.map Char.toLower

/-- Whether two names are the same, letter case apart. -/
def sameName (first second : String) : Bool :=
  foldName first == foldName second

@[simp]
theorem sameName_self (name : String) : sameName name name = true := by
  simp [sameName]

theorem sameName_comm (first second : String) :
    sameName first second = sameName second first := by
  simp [sameName, Bool.beq_comm]

/-- What a column is a key of. -/
inductive Key
  /-- The column is no key. -/
  | none
  /-- Cells that are not null differ from row to row. -/
  | unique
  /-- The column shows the positions of the rows. -/
  | position
  deriving DecidableEq, Repr

/-- A column. -/
structure Column where
  name : String
  affinity : Affinity
  notNull : Bool := false
  /-- The cell of rows that are not given one. -/
  fallback : Cell := .null
  key : Key := .none
  deriving DecidableEq

/-- A row: its position, and its cells under the names of their columns. -/
structure Row where
  position : Int64
  cells : List (String × Cell)
  deriving DecidableEq

/-- The cell of a row in a column. -/
def Row.cell (row : Row) (column : Column) : Cell :=
  if column.key = .position then .integer row.position
  else (row.cells.lookup column.name).getD .null

/-- How new rows get their positions. -/
inductive Numbering
  /-- Count on from the largest position present. -/
  | fromPresent
  /-- Count on from the largest position ever used, if one has been recorded. -/
  | fromLargest (used : Option Int64)
  deriving DecidableEq, Repr

/-- A table. -/
structure Table where
  name : String
  columns : List Column
  rows : List Row
  numbering : Numbering
  deriving DecidableEq

namespace Table

/-- The column with the given name. -/
def column? (table : Table) (name : String) : Option Column :=
  table.columns.find? fun column => sameName column.name name

/-- The columns whose cells the rows hold. -/
def dataColumns (table : Table) : List Column :=
  table.columns.filter fun column => column.key ≠ .position

/-- The largest position of a row, if there are rows. -/
def largestPresent (table : Table) : Option Int :=
  (table.rows.map fun row => row.position.toInt).max?

/-- The position of the next row, unless the last position has been used.  A table that numbers its
rows from those present could still get a free position below it, which is not covered. -/
def nextPosition? (table : Table) : Option Int64 :=
  let afterPresent := (table.largestPresent.map (· + 1)).getD 1
  let next :=
    match table.numbering with
    | .fromPresent => afterPresent
    | .fromLargest used => max afterPresent ((used.map Int64.toInt).getD 0 + 1)
  if next ≤ Int64.maxValue.toInt then some (Int64.ofInt next) else none

/-- Record that a position has been used. -/
def Numbering.use (position : Int64) : Numbering → Numbering
  | .fromPresent => .fromPresent
  | .fromLargest used =>
      let before := used.getD 0
      .fromLargest (some (if before < position then position else before))

/-- Record that rows may have been added, if only none. -/
def Numbering.touch : Numbering → Numbering
  | .fromPresent => .fromPresent
  | .fromLargest used => .fromLargest (some (used.getD 0))

/-- A row among the others, in the order of positions. -/
def insertOrdered (row : Row) : List Row → List Row
  | [] => [row]
  | first :: rest =>
      if row.position < first.position then row :: first :: rest
      else first :: insertOrdered row rest

/-- The cells of a new row: those given, converted for their columns, and the fallbacks of the
other columns. -/
def newCells (table : Table) (given : List (String × Cell)) : List (String × Cell) :=
  table.dataColumns.map fun column =>
    let cell :=
      match given.find? fun (name, _) => sameName name column.name with
      | some (_, cell) => cell
      | none => column.fallback
    (column.name, column.affinity.convert cell)

/-- The first column, in table order, that may not be null and is null in the row. -/
def nullViolation? (table : Table) (row : Row) : Option Column :=
  table.dataColumns.find? fun column => column.notNull && row.cell column == .null

/-- The first unique column in which the row repeats a cell of the table. -/
def uniqueViolation? (table : Table) (row : Row) : Option Column :=
  table.dataColumns.find? fun column =>
    column.key == .unique && row.cell column != .null &&
      table.rows.any fun other => (other.cell column).order (row.cell column) == .eq

/-- The name under which positions are shown. -/
def positionName (table : Table) : String :=
  match table.columns.find? fun column => column.key == .position with
  | some column => column.name
  | none => "rowid"

/-- Why a row may not join the others, if it may not: a null, a position that is taken, or a
repeated cell. -/
def violation? (table : Table) (row : Row) : Option Fault :=
  match table.nullViolation? row with
  | some column => some (.notNull table.name column.name)
  | none =>
      if table.rows.any fun other => other.position == row.position then
        some (.notUnique table.name table.positionName)
      else
        (table.uniqueViolation? row).map fun column => .notUnique table.name column.name

/-- A table with one more row, whose position counts as used. -/
def withRow (table : Table) (row : Row) : Table :=
  { table with
    rows := insertOrdered row table.rows
    numbering := Numbering.use row.position table.numbering }

/-- Add a row that meets the constraints of the table, at the given position or the next one. -/
def insert (table : Table) (position? : Option Int64) (given : List (String × Cell)) :
    Except Fault Table :=
  match position?.or table.nextPosition? with
  | none => .error .full
  | some position =>
      let row : Row := ⟨position, table.newCells given⟩
      match table.violation? row with
      | some fault => .error fault
      | none => .ok (table.withRow row)

/-- Add a column at the end; the rows get its fallback. -/
def addColumn (table : Table) (column : Column) : Except Fault Table :=
  if (table.column? column.name).isSome then .error (.duplicateColumn column.name)
  else
    .ok { table with
      columns := table.columns ++ [column]
      rows := table.rows.map fun row =>
        { row with cells := row.cells ++ [(column.name, column.fallback)] } }

end Table

/-- A row with one cell replaced. -/
def Row.put (row : Row) (name : String) (cell : Cell) : Row :=
  { row with
    cells := row.cells.map fun (other, old) => (other, if other = name then cell else old) }

end MessageStore.Relational
