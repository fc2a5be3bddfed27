import MessageStore.Relational.Database

/-!
# Queries

A query reads named columns of the rows that meet a condition, in the order of
some columns; rows that agree in those stay in the order of their positions.
The names of a query must all be there: first those that it reads, then those
of the condition, then those of the order.
-/

namespace MessageStore.Relational

/-- A query of one table. -/
structure Query where
  table : String
  columns : List String
  condition : Option Condition := none
  orderBy : List String := []
  limit : Option Nat := none
  deriving DecidableEq

/-- A row of a result: the cells with the names of their columns, as the table spells them. -/
abbrev Selected :=
  List (String × Cell)

namespace Query

/-- The names that a query uses, in the order in which they are looked up. -/
def names (query : Query) : List String :=
  query.columns ++ (query.condition.map Condition.names).getD [] ++ query.orderBy

/-- The cells of a row in the named columns. -/
def project (table : Table) (names : List String) (row : Row) : Selected :=
  names.filterMap fun name => (table.column? name).map fun column => (column.name, row.cell column)

/-- Whether a row may stand before another in the order of the named columns. -/
def precedes (table : Table) (names : List String) (first second : Row) : Bool :=
  Cell.orderKeys ((project table names first).map Prod.snd)
    ((project table names second).map Prod.snd) != .gt

/-- The rows of a table that a query selects, in order. -/
def rows (query : Query) (table : Table) : List Row :=
  let met := table.rows.filter fun row => query.condition.all (·.holds table row)
  let ordered :=
    if query.orderBy = [] then met else met.mergeSort (precedes table query.orderBy)
  match query.limit with
  | some limit => ordered.take limit
  | none => ordered

/-- The result of a query. -/
def run (query : Query) (db : Database) : Except Fault (List Selected) := do
  let table ← db.readable query.table
  Database.requireColumns table query.names
  return (query.rows table).map (project table query.columns)

end Query

end MessageStore.Relational
