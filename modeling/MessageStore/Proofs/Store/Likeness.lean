import MessageStore.Proofs.Schema.Preservation
import MessageStore.Proofs.Store.Twins

/-!
# Migrated stores and new ones

A store that has been brought up from an earlier version behaves like a new one
whose table of messages holds the same rows.  The columns of the two tables
stand in different orders and give different cells to rows that are not given
them, but the tables are twins, so that no operation tells the stores apart.
-/

namespace MessageStore.Store

open Relational (Column Database Row Table)
open Schema (Laid LaidOut dataColumns early laidOut_early layoutColumns messageColumns
  messageIndexes messageTable recordRow setup versionColumns versionTable withFallback)

/-! ## Rows with the same content -/

/-- A row that has the position of another one and the same cell under the name of each column of
a message. -/
structure SameContent (row newRow : Row) : Prop where
  position : newRow.position = row.position
  cells : ∀ column ∈ dataColumns 6,
    newRow.cells.lookup column.name = row.cells.lookup column.name

/-- Rows of tables of messages in the current layout look the same if they have the same
content. -/
theorem SameContent.view_eq {table newTable : Table} {row newRow : Row}
    (same : SameContent row newRow) (laid : Laid 6 table) (newLaid : Laid 6 newTable)
    (present : row ∈ table.rows) (newPresent : newRow ∈ newTable.rows) :
    row.view = newRow.view := by
  unfold Row.view
  rw [same.position]
  congr 1
  funext name
  by_cases named : ∃ column ∈ dataColumns 6, column.name = name
  · obtain ⟨column, member, rfl⟩ := named
    exact (same.cells column member).symm
  · -- A name that no column has finds nothing in either row.
    have absent : ∀ column ∈ layoutColumns 6, column.key ≠ .position → column.name ≠ name := by
      intro column member data equal
      rcases List.mem_cons.mp member with rfl | dataMember
      · exact data rfl
      · exact named ⟨column, dataMember, equal⟩
    rw [laid.lookup_eq_none present absent, newLaid.lookup_eq_none newPresent absent]

/-! ## New stores -/

/-- The table of messages of a new store with the given rows and the largest position that has
ever been used. -/
def newMessages (rows : List Row) (used : Option Int64) : Table :=
  ⟨messageTable, messageColumns, rows, .fromLargest used⟩

/-- A store that is made anew and then filled. -/
def newStore (rows : List Row) (used : Option Int64) : Database :=
  (setup .empty).db.replace (newMessages rows used)

theorem writable_newStore (rows : List Row) (used : Option Int64) :
    (newStore rows used).writable messageTable = .ok (newMessages rows used) := by
  have made : (setup .empty).db.writable messageTable = .ok (newMessages [] none) := by
    rfl
  exact Database.writable_replace_self made rfl

/-- A new table is in the current layout if its rows fit and are in order. -/
theorem laid_newMessages {rows : List Row} {used : Option Int64}
    (fits : ∀ row ∈ rows, row.Fits (newMessages rows used))
    (ordered : (newMessages rows used).Ordered) : Laid 6 (newMessages rows used) where
  supported := by decide
  named := rfl
  columns := by
    change (messageColumns.map Column.bare).Perm ((layoutColumns 6).map Column.bare)
    decide
  rows := fits
  ordered := ordered
  numbered := by
    simp [newMessages]

/-- A table that holds the rows of another one, each with a cell for every column, and gives the
next row the same position, also once rows have been deleted. -/
structure Refilled (table newTable : Table) : Prop where
  length : newTable.rows.length = table.rows.length
  names : ∀ newRow ∈ newTable.rows,
    newRow.cells.map Prod.fst = newTable.dataColumns.map (·.name)
  rows : ∀ (index : Nat) (row newRow : Row), table.rows[index]? = some row →
    newTable.rows[index]? = some newRow → SameContent row newRow
  next : newTable.nextPosition? = table.nextPosition?
  /-- No row of the tables has a larger position than the one that is recorded as the largest ever
  used, or the same one is recorded in both. -/
  used : (∃ largest, table.Counts largest) ∧ (∃ largest, newTable.Counts largest) ∨
    newTable.largestUsed = table.largestUsed

section Filled

variable {table : Table} {rows : List Row} {used : Option Int64}

theorem Refilled.exists_row {newTable : Table} (refilled : Refilled table newTable) {newRow : Row}
    (newPresent : newRow ∈ newTable.rows) : ∃ row ∈ table.rows, SameContent row newRow := by
  obtain ⟨index, newFound⟩ := List.mem_iff_getElem?.mp newPresent
  have bound : index < table.rows.length := by
    rw [← refilled.length]
    exact (List.getElem?_eq_some_iff.mp newFound).1
  exact ⟨_, List.getElem_mem bound,
    refilled.rows index _ newRow (List.getElem?_eq_getElem bound) newFound⟩

/-- What agrees for rows with the same content agrees for the rows of both tables. -/
theorem Refilled.map_eq {α : Type} {newTable : Table} {f : Row → α}
    (refilled : Refilled table newTable)
    (agree : ∀ row ∈ table.rows, ∀ newRow ∈ newTable.rows, SameContent row newRow →
      f row = f newRow) :
    table.rows.map f = newTable.rows.map f := by
  apply List.ext_getElem
  · rw [List.length_map, List.length_map, refilled.length]
  · intro index bound newBound
    rw [List.length_map] at bound newBound
    rw [List.getElem_map, List.getElem_map]
    exact agree _ (List.getElem_mem bound) _ (List.getElem_mem newBound)
      (refilled.rows index _ _ (List.getElem?_eq_getElem bound) (List.getElem?_eq_getElem newBound))

/-- The columns of data of a new table are those of the current layout. -/
theorem mem_dataColumns {column : Column} (member : column ∈ (newMessages rows used).dataColumns) :
    column ∈ dataColumns 6 := by
  have each : ∀ column ∈ (newMessages [] none).dataColumns, column ∈ dataColumns 6 := by
    decide
  exact each column member

/-- A new table that holds the rows of a table in the current layout is in this layout. -/
theorem Refilled.laid (refilled : Refilled table (newMessages rows used)) (laid : Laid 6 table) :
    Laid 6 (newMessages rows used) := by
  refine laid_newMessages ?_ (laid.ordered.of_positions
    (refilled.map_eq fun _ _ _ _ same => same.position.symm).symm)
  intro newRow newPresent
  refine ⟨refilled.names newRow newPresent, ?_⟩
  intro column member
  obtain ⟨row, present, same⟩ := refilled.exists_row newPresent
  have data := mem_dataColumns member
  rw [same.cells column data]
  exact laid.lookup present (List.mem_cons_of_mem _ data) (dataColumns_data column data)

/-- Tables that give the next row the same position record the same one. -/
theorem Refilled.largestUsed_eq {newTable : Table} (refilled : Refilled table newTable) :
    table.largestUsed = newTable.largestUsed := by
  rcases refilled.used with ⟨⟨largest, counts⟩, newLargest, newCounts⟩ | same
  · rw [counts.largestUsed, newCounts.largestUsed]
    exact (counts.eq_of_nextPosition? newCounts refilled.next).symm
  · exact same.symm

/-- A new table that holds the rows of a table in the current layout is a twin of it. -/
theorem Refilled.twins (refilled : Refilled table (newMessages rows used)) (laid : Laid 6 table) :
    Twins table (newMessages rows used) where
  left := laid
  right := refilled.laid laid
  rows := by
    apply refilled.map_eq
    intro row present newRow newPresent same
    exact same.view_eq laid (refilled.laid laid) present newPresent
  used := refilled.largestUsed_eq

end Filled

/-! ## Rows that are moved to a new store -/

/-- A row of a new table with the content of a row. -/
def renewed (row : Row) : Row :=
  ⟨row.position, (newMessages [] none).dataColumns.map fun column => (column.name, row.cell column)⟩

/-- A row that is moved to a new table keeps its content. -/
theorem sameContent_renewed {table : Table} {row : Row} (laid : Laid 6 table)
    (present : row ∈ table.rows) : SameContent row (renewed row) where
  position := rfl
  cells := by
    have columns : ∀ column ∈ dataColumns 6, column ∈ (newMessages [] none).dataColumns := by
      decide
    have nodup : ((newMessages [] none).dataColumns.map (·.name)).Nodup := by
      decide
    intro column member
    obtain ⟨cell, found, _⟩ := laid.lookup present (List.mem_cons_of_mem _ member)
      (dataColumns_data column member)
    have moved : (renewed row).cells.lookup column.name = some (row.cell column) :=
      Relational.lookup_map_of_nodup nodup (columns column member)
    rw [moved, found, Row.cell_of_lookup (columns column member) found]

/-- The rows of a table in the current layout can be moved to a new one. -/
theorem refilled_renewed {table : Table} (laid : Laid 6 table) :
    Refilled table (newMessages (table.rows.map renewed) (some table.largestUsed)) := by
  have positions : (table.rows.map renewed).map (·.position) = table.rows.map (·.position) :=
    List.map_map
  refine
    { length := List.length_map _
      names := ?_
      rows := ?_
      next := Table.nextPosition?_of_largestUsed positions laid.recorded nofun rfl
      used := .inr rfl }
  · intro newRow newPresent
    obtain ⟨row, _, rfl⟩ := List.mem_map.mp newPresent
    exact List.map_map
  · intro index row newRow present newPresent
    change (table.rows.map renewed)[index]? = some newRow at newPresent
    rw [List.getElem?_map, present, Option.map_some, Option.some.injEq] at newPresent
    rw [← newPresent]
    exact sameContent_renewed laid (List.mem_of_getElem? present)

/-! ## Migrated stores -/

/-- A store whose table of messages has been made of an older one, and that answers all operations
like a new store that is filled with the rows of its table. -/
structure LikeNew (layout : Nat) (table : Table) (db : Database) (migrated : Table) : Prop where
  found : db.tableNamed? messageTable = some migrated
  /-- The record of the largest position ever used is right if that of the old table has been. -/
  counts : (5 ≤ layout → ∃ largest, table.Counts largest) → ∃ largest, migrated.Counts largest
  exists_refilled : ∃ rows used, Refilled migrated (newMessages rows used)
  answers : ∀ rows used, Refilled migrated (newMessages rows used) →
    ∀ operations, answers db operations = answers (newStore rows used) operations

/-- A store that a setup has brought up from an earlier version answers all operations like a new
store with the same rows. -/
theorem setup_answers {version layout : Nat} {db : Database} {table : Table}
    (laidOut : LaidOut version layout db table)
    (room : version < 5 → (table.rows.length : Int) ≤ Int64.maxValue.toInt) :
    (setup db).outcome = .ok () ∧
      ∃ migrated, LikeNew layout table (setup db).db migrated := by
  obtain ⟨migrated, result⟩ := laidOut.migrated room
  have holds := result.holds
  refine ⟨result.succeeded, migrated, holds.tableNamed?, result.counts,
    ⟨_, _, refilled_renewed holds.laid⟩, ?_⟩
  intro rows used refilled operations
  have stores : TwinStores (setup db).db (newStore rows used) :=
    ⟨migrated, _, holds.owned.writable holds.found, writable_newStore rows used,
      refilled.twins holds.laid⟩
  exact stores.answers operations

/-- A table of version 5 with one message, in which messages have been deleted. -/
def recentTable : Table :=
  { name := messageTable
    columns := layoutColumns 5
    rows := [⟨3, (dataColumns 5).map fun column => (column.name, (withFallback column).fallback)⟩]
    numbering := .fromLargest (some 7) }

/-- A database of version 5 with one message. -/
def recent : Database :=
  { tables := [recentTable, ⟨versionTable, versionColumns, [recordRow 5 1], .fromPresent⟩]
    views := []
    indexes := messageIndexes }

theorem laid_recentTable : Laid 5 recentTable where
  supported := by decide
  named := rfl
  columns := List.Perm.refl _
  rows := by decide
  ordered := by decide
  numbered := by decide

theorem laidOut_recent : LaidOut 5 5 recent recentTable where
  inLayout := .inr ⟨rfl, .inl rfl⟩
  tables := List.Perm.refl _
  views := rfl
  indexes := by decide
  found := rfl
  messages := laid_recentTable
  record := by
    intro versions found
    cases found
    exact ⟨rfl, by decide, _, rfl, rfl⟩

/-- Stores of version 0 and of version 5 answer like new ones. -/
theorem setup_answers_instances :
    let late : Instant := ⟨8, 0, by decide, by decide, by decide⟩
    let operations (topic : String) : List (Instant × Operation) :=
      [(late, .count topic), (late, .prune late), (late, .messages topic .everything true)]
    (∃ migrated rows used, (setup early).db.tableNamed? messageTable = some migrated ∧
      Refilled migrated (newMessages rows used) ∧
      answers (setup early).db (operations "t") = answers (newStore rows used) (operations "t")) ∧
    ∃ migrated rows used, (setup recent).db.tableNamed? messageTable = some migrated ∧
      Refilled migrated (newMessages rows used) ∧
      answers (setup recent).db (operations "") = answers (newStore rows used) (operations "") := by
  intro late operations
  constructor
  · obtain ⟨_, migrated, same⟩ := setup_answers laidOut_early (by decide)
    obtain ⟨rows, used, refilled⟩ := same.exists_refilled
    exact ⟨migrated, rows, used, same.found, refilled,
      same.answers rows used refilled (operations "t")⟩
  · obtain ⟨_, migrated, same⟩ :=
      setup_answers laidOut_recent fun rebuilds => absurd rebuilds (by decide)
    obtain ⟨rows, used, refilled⟩ := same.exists_refilled
    exact ⟨migrated, rows, used, same.found, refilled,
      same.answers rows used refilled (operations "")⟩

end MessageStore.Store
