import MessageStore.Relational.Condition

/-!
# Databases

A database holds tables, views and indexes.  Views and indexes matter by their
names only: a name that one of them has is taken.  So databases with triggers,
with unique indexes, or with views that a change of a table would break are not
covered.  This module holds the operations that change a database; each either
does all it should or fails.
-/

namespace MessageStore.Relational

/-- An index on a table. -/
structure Index where
  name : String
  table : String
  deriving DecidableEq, Repr

/-- A database. -/
structure Database where
  tables : List Table
  views : List String
  indexes : List Index
  deriving DecidableEq

/-- A cell that a statement assigns: one that is given, or the one in another column. -/
inductive Operand
  | cell (value : Cell)
  | column (name : String)
  deriving DecidableEq

namespace Database

/-- The database without any object. -/
def empty : Database :=
  ⟨[], [], []⟩

/-- The table with the given name. -/
def table? (db : Database) (name : String) : Option Table :=
  db.tables.find? fun table => sameName table.name name

/-- The view with the given name. -/
def view? (db : Database) (name : String) : Option String :=
  db.views.find? fun view => sameName view name

/-- The index with the given name. -/
def index? (db : Database) (name : String) : Option Index :=
  db.indexes.find? fun index => sameName index.name name

/-- The table whose name is spelled exactly so. -/
def tableNamed? (db : Database) (name : String) : Option Table :=
  db.tables.find? fun table => table.name == name

/-- The table that a statement is to read. -/
def readable (db : Database) (name : String) : Except Fault Table :=
  match db.table? name with
  | some table => .ok table
  | none => .error (.noSuchTable name)

/-- The table that a statement is to change; a view cannot be changed. -/
def writable (db : Database) (name : String) : Except Fault Table :=
  match db.view? name with
  | some view => .error (.viewIsFixed view)
  | none => db.readable name

/-- Put a table in the place of the one of its name. -/
def replace (db : Database) (table : Table) : Database :=
  { db with tables := db.tables.map fun old => if old.name = table.name then table else old }

/-- The columns that a statement names must be there. -/
def requireColumns (table : Table) (names : List String) : Except Fault Unit :=
  match names.find? fun name => (table.column? name).isNone with
  | some name => .error (.noSuchColumn name)
  | none => .ok ()

/-- Create a table without rows.  Where a table or a view of its name may stay, nothing
happens if there is one. -/
def createTable (db : Database) (name : String) (columns : List Column) (numbering : Numbering)
    (mayStay : Bool) : Except Fault Database :=
  if (db.table? name).isSome then
    if mayStay then .ok db else .error (.tableExists name)
  else if (db.view? name).isSome then
    if mayStay then .ok db else .error (.viewExists name)
  else if (db.index? name).isSome then .error (.nameOfIndex name)
  else .ok { db with tables := db.tables ++ [⟨name, columns, [], numbering⟩] }

/-- Create an index. -/
def createIndex (db : Database) (name table : String) : Except Fault Database := do
  let table ← db.readable table
  if (db.table? name).isSome || (db.view? name).isSome then .error (.nameOfTable name)
  else if (db.index? name).isSome then .error (.indexExists name)
  else .ok { db with indexes := db.indexes ++ [⟨name, table.name⟩] }

/-- Add a column to a table. -/
def addColumn (db : Database) (table : String) (column : Column) : Except Fault Database := do
  let table ← db.writable table
  return db.replace (← table.addColumn column)

/-- Insert one row, with the given cells in the named columns, at a position or at the next. -/
def insertAt (db : Database) (name : String) (position? : Option Int64)
    (given : List (String × Cell)) : Except Fault Database := do
  let table ← db.writable name
  match given.find? fun (column, _) => (table.column? column).isNone with
  | some (column, _) => throw (.unknownTarget name column)
  | none => return db.replace (← table.insert position? given)

/-- Insert one row at the next position. -/
def insert (db : Database) (name : String) (given : List (String × Cell)) :
    Except Fault Database :=
  db.insertAt name none given

/-- Copy the rows of one table, in the order of their positions, into another.  Each pair names
a column to fill and the column that fills it. -/
def copyRows (db : Database) (target : String) (pairs : List (String × String))
    (source : String) : Except Fault Database := do
  let target ← db.writable target
  let source ← db.readable source
  requireColumns source (pairs.map Prod.snd)
  let filled ← source.rows.foldlM (fun (table : Table) row =>
    table.insert none <| pairs.filterMap fun (filled, filling) =>
      (source.column? filling).map fun column => (filled, row.cell column)) target
  return db.replace { filled with numbering := Table.Numbering.touch filled.numbering }

/-- The cell that an operand stands for in a row. -/
def operandCell (table : Table) (row : Row) : Operand → Cell
  | .cell value => value
  | .column name =>
      match table.column? name with
      | some column => row.cell column
      | none => .null

/-- The columns that an assignment names: those read, then the one assigned. -/
def assignmentNames : String × Operand → List String
  | (name, .cell _) => [name]
  | (name, .column source) => [source, name]

/-- A row with the assigned cells, converted for their columns. -/
def assignRow (table : Table) (assignments : List (String × Operand)) (row : Row) : Row :=
  assignments.foldl (fun changed (name, operand) =>
    match table.column? name with
    | some column =>
        changed.put column.name (column.affinity.convert (operandCell table row operand))
    | none => changed) row

/-- A table whose rows that meet the condition have the assigned cells; no condition means all
rows.  Columns of keys are not assigned. -/
def updateTable (table : Table) (assignments : List (String × Operand))
    (condition : Option Condition) : Except Fault Table := do
  let rows ← table.rows.mapM fun row =>
    if condition.all (·.holds table row) then
      let changed := assignRow table assignments row
      match table.nullViolation? changed with
      | some column => throw (.notNull table.name column.name)
      | none => pure changed
    else pure row
  return { table with rows }

/-- Assign cells in the rows that meet the condition. -/
def update (db : Database) (name : String) (assignments : List (String × Operand))
    (condition : Option Condition) : Except Fault Database := do
  let table ← db.writable name
  requireColumns table
    (assignments.flatMap assignmentNames ++ (condition.map Condition.names).getD [])
  return db.replace (← updateTable table assignments condition)

/-- Delete the rows that meet the condition.  Returns how many there were as well. -/
def delete (db : Database) (name : String) (condition : Condition) :
    Except Fault (Database × Nat) := do
  let table ← db.writable name
  requireColumns table condition.names
  let kept := table.rows.filter fun row => !condition.holds table row
  return (db.replace { table with rows := kept }, table.rows.length - kept.length)

/-- Drop a table and its indexes. -/
def dropTable (db : Database) (name : String) : Except Fault Database := do
  let table ← db.writable name
  return { db with
    tables := db.tables.filter fun other => other.name ≠ table.name
    indexes := db.indexes.filter fun index => index.table ≠ table.name }

/-- Rename a table; its indexes follow. -/
def renameTable (db : Database) (name newName : String) : Except Fault Database := do
  let table ← db.writable name
  return { db with
    tables := db.tables.map fun other =>
      if other.name = table.name then { other with name := newName } else other
    indexes := db.indexes.map fun index =>
      if index.table = table.name then { index with table := newName } else index }

end Database

end MessageStore.Relational
