import MessageStore.Schema.Layout

/-!
# Inventories

What a database holds, written out: the names of its tables, the record of the
version, and the table of messages with its columns, rows, indexes and the
largest position ever used.
-/

namespace MessageStore.Schema

open Relational (Cell Database Fault Query Table)

/-- What the table of messages holds. -/
structure Contents where
  columns : List String
  /-- The cells of the rows, in the order of columns and positions. -/
  rows : List (List Cell)
  indexes : List String
  /-- The largest position ever used, if one is recorded. -/
  largestUsed : Option Int64
  deriving DecidableEq

/-- What a database holds. -/
structure Inventory where
  tables : List String
  /-- The rows of the table of versions, if there is one. -/
  versions : Option (List (List Cell))
  messages : Option Contents
  deriving DecidableEq

/-- Names in order. -/
def sortNames (names : List String) : List String :=
  names.mergeSort fun first second => decide (first ≤ second)

/-- The rows of a table as lists of cells. -/
def cellsOf (table : Table) : List (List Cell) :=
  table.rows.map fun row => table.columns.map row.cell

/-- What the table of messages holds. -/
def Contents.of (db : Database) (table : Table) : Contents :=
  { columns := table.columns.map (·.name)
    rows := cellsOf table
    indexes := sortNames <|
      (db.indexes.filter fun index => index.table = table.name).map (·.name)
    largestUsed :=
      match table.numbering with
      | .fromPresent => none
      | .fromLargest used => used }

/-- The rows of the table of versions in the order of their IDs, if there is such a table. -/
def versionsOf (db : Database) : Except Fault (Option (List (List Cell))) :=
  if (db.tableNamed? versionTable).isNone then .ok none
  else do
    let rows ← Query.run
      { table := versionTable, columns := ["id", "version"], orderBy := ["id"] } db
    return some (rows.map fun row => row.map Prod.snd)

/-- What a database holds. -/
def Inventory.of (db : Database) : Except Fault Inventory := do
  return {
    tables := sortNames (db.tables.map (·.name))
    versions := ← versionsOf db
    messages := (db.tableNamed? messageTable).map (Contents.of db) }

end MessageStore.Schema
