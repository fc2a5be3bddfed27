import MessageStore.Proofs.Relational.Columns
import MessageStore.Schema.Earlier

/-!
# Tables of messages

A table of messages in the layout of a version: it has the columns of the
version in some order, whatever they give to new rows, and every row has a cell
of the right class for each of them.  Adding the columns that a later layout has
makes it a table in this layout.
-/

namespace MessageStore.Schema

open Relational (Cell Column Distinct Row Table sameName)

/-- The columns of the table of messages in a version. -/
def layoutColumns (layout : Nat) : List Column :=
  keyColumn layout :: dataColumns layout

@[simp]
theorem integer_name (name : String) : (integer name).name = name :=
  rfl

theorem layoutColumns_distinct {layout : Nat} (supported : layout ≤ currentVersion) :
    Distinct (layoutColumns layout) := by
  have each : ∀ layout ≤ currentVersion, Distinct (layoutColumns layout) := by
    decide +kernel
  exact each layout supported

/-- A table of messages in a layout. -/
structure Laid (layout : Nat) (table : Table) : Prop where
  supported : layout ≤ currentVersion
  named : table.name = messageTable
  columns : (table.columns.map Column.bare).Perm ((layoutColumns layout).map Column.bare)
  /-- Cells are not null, and of the classes that their columns declare. -/
  rows : ∀ row ∈ table.rows, row.Fits table
  ordered : table.Ordered
  numbered : table.numbering = .fromPresent ↔ layout < 5

section Reading

variable {layout : Nat} {table : Table}

theorem Laid.distinct (laid : Laid layout table) : Distinct table.columns :=
  (layoutColumns_distinct laid.supported).of_perm laid.columns

/-- A table in the current layout records the largest position ever used. -/
theorem Laid.recorded (laid : Laid 6 table) : table.numbering ≠ .fromPresent := by
  rw [Ne, laid.numbered]
  decide

/-- A table in a layout finds the columns of the layout. -/
theorem Laid.column? (laid : Laid layout table) {column : Column}
    (member : column ∈ layoutColumns layout) :
    ∃ own, table.column? column.name = some own ∧ own ∈ table.columns ∧ own.bare = column.bare :=
  Table.column?_of_perm laid.columns (layoutColumns_distinct laid.supported) member

/-- A column of a table in a layout agrees with one of the layout. -/
theorem Laid.exists_column (laid : Laid layout table) {own : Column}
    (member : own ∈ table.columns) :
    ∃ column ∈ layoutColumns layout, column.bare = own.bare :=
  Relational.exists_of_perm laid.columns.symm member

/-- Tables in one layout find columns of the same kind. -/
theorem Laid.column?_agree {other : Table} (laid : Laid layout table)
    (otherLaid : Laid layout other) {name : String} {own : Column} (found : table.column? name = some own) :
    ∃ otherOwn, other.column? name = some otherOwn ∧ otherOwn.bare = own.bare := by
  obtain ⟨column, member, same⟩ := laid.exists_column (List.mem_of_find?_eq_some found)
  obtain ⟨otherOwn, otherMember, otherSame⟩ :=
    Relational.exists_of_perm otherLaid.columns member
  have agree := otherSame.trans same
  have named : sameName own.name name = true := by simpa using List.find?_some found
  refine ⟨otherOwn, ?_, agree⟩
  apply Relational.find?_sameName otherLaid.distinct otherMember
  rw [(Column.of_bare_eq agree).1]
  exact named

theorem Laid.columns_agree {other : Table} (laid : Laid layout table)
    (otherLaid : Laid layout other) (name : String) :
    (table.column? name).map Column.bare = (other.column? name).map Column.bare := by
  cases found : table.column? name with
  | some own =>
      obtain ⟨otherOwn, otherFound, same⟩ := laid.column?_agree otherLaid found
      rw [otherFound, Option.map_some, Option.map_some, same]
  | none =>
      cases otherFound : other.column? name with
      | none => rfl
      | some otherOwn =>
          obtain ⟨own, ownFound, _⟩ := otherLaid.column?_agree laid otherFound
          rw [found] at ownFound
          cases ownFound

/-- A column of data of a layout agrees with one of a table in the layout. -/
theorem Laid.exists_own (laid : Laid layout table) {column : Column}
    (member : column ∈ layoutColumns layout) (data : column.key ≠ .position) :
    ∃ own ∈ table.dataColumns, own.bare = column.bare := by
  obtain ⟨own, ownMember, same⟩ := Relational.exists_of_perm laid.columns member
  refine ⟨own, List.mem_filter.mpr ⟨ownMember, ?_⟩, same⟩
  simpa [(Column.of_bare_eq same).2.2] using data

/-- A column of data of a table in a layout agrees with one of the layout. -/
theorem Laid.exists_dataColumn (laid : Laid layout table) {own : Column}
    (member : own ∈ table.dataColumns) :
    ∃ column ∈ layoutColumns layout, column.key ≠ .position ∧ column.bare = own.bare := by
  obtain ⟨present, data⟩ := List.mem_filter.mp member
  obtain ⟨column, columnMember, same⟩ := laid.exists_column present
  refine ⟨column, columnMember, ?_, same⟩
  rw [(Column.of_bare_eq same).2.2]
  simpa using data

/-- A row of a table in a layout has a cell under the name of each column that holds data. -/
theorem Laid.lookup (laid : Laid layout table) {row : Row} (present : row ∈ table.rows)
    {column : Column} (member : column ∈ layoutColumns layout) (data : column.key ≠ .position) :
    ∃ cell, row.cells.lookup column.name = some cell ∧ cell.kind = column.affinity.kind := by
  obtain ⟨own, ownMember, same⟩ := laid.exists_own member data
  obtain ⟨sameName, sameAffinity, _⟩ := Column.of_bare_eq same
  rw [← sameName, ← sameAffinity]
  exact (laid.rows row present).kinds own ownMember

/-- Cells that a row gets in addition do not change what it has under the name of a column. -/
theorem Laid.lookup_append (laid : Laid layout table) {row : Row} (present : row ∈ table.rows)
    {column : Column} (member : column ∈ layoutColumns layout) (data : column.key ≠ .position)
    (more : List (String × Cell)) :
    (row.cells ++ more).lookup column.name = row.cells.lookup column.name := by
  obtain ⟨cell, found, _⟩ := laid.lookup present member data
  rw [List.lookup_append, found, Option.some_or]

/-- A row of a table in a layout has no cell under any other name. -/
theorem Laid.lookup_eq_none (laid : Laid layout table) {row : Row} (present : row ∈ table.rows)
    {name : String}
    (other : ∀ column ∈ layoutColumns layout, column.key ≠ .position → column.name ≠ name) :
    row.cells.lookup name = none := by
  rw [List.lookup_eq_none_iff]
  intro cell member
  have named : cell.1 ∈ table.dataColumns.map (·.name) := by
    rw [← (laid.rows row present).names]
    exact List.mem_map_of_mem member
  obtain ⟨own, ownMember, sameNames⟩ := List.mem_map.mp named
  obtain ⟨column, columnMember, data, same⟩ := laid.exists_dataColumn ownMember
  rw [bne_iff_ne]
  rintro rfl
  exact other column columnMember data ((Column.of_bare_eq same).1.trans sameNames)

/-- A row of a table in a layout shows the cell under the name of a column in this column. -/
theorem Laid.cell (laid : Laid layout table) {row : Row} {column : Column}
    (member : column ∈ layoutColumns layout) (data : column.key ≠ .position) {own : Column}
    (found : table.column? column.name = some own) :
    row.cell own = (row.cells.lookup column.name).getD .null := by
  obtain ⟨other, foundOther, _, same⟩ := laid.column? member
  rw [found] at foundOther
  cases foundOther
  obtain ⟨sameName, _, sameKey⟩ := Column.of_bare_eq same
  simp [Row.cell, sameKey, data, sameName]

end Reading

/-! ## Later layouts -/

section Widening

variable {layout next : Nat} {table : Table} {columns : List Column}

/-- A table in a layout has room for columns that make up a later layout. -/
theorem Laid.distinct_append (laid : Laid layout table) (supported : next ≤ currentVersion)
    (agree : ((layoutColumns layout ++ columns).map Column.bare).Perm
      ((layoutColumns next).map Column.bare)) :
    Distinct (table.columns ++ columns) := by
  apply (layoutColumns_distinct supported).of_perm
  rw [List.map_append] at agree ⊢
  exact (laid.columns.append_right _).trans agree

/-- A table in a layout with the columns that make up a later layout is in this layout. -/
theorem Laid.withColumns (laid : Laid layout table) (supported : next ≤ currentVersion)
    (agree : ((layoutColumns layout ++ columns).map Column.bare).Perm
      ((layoutColumns next).map Column.bare))
    (data : ∀ column ∈ columns, column.key ≠ .position)
    (preferred : ∀ column ∈ columns, column.fallback.kind = column.affinity.kind)
    (numbered : layout < 5 ↔ next < 5) :
    Laid next (table.withColumns columns) where
  supported := supported
  named := laid.named
  columns := by
    rw [List.map_append] at agree
    rw [Table.withColumns, List.map_append]
    exact (laid.columns.append_right _).trans agree
  rows := by
    intro row member
    obtain ⟨old, oldMember, rfl⟩ := List.mem_map.mp member
    have distinct := laid.distinct_append supported agree
    exact (laid.rows old oldMember).withColumns distinct data preferred
  ordered := laid.ordered.of_positions List.map_map
  numbered := laid.numbered.trans numbered

/-- The columns that the layout after a version below 4 has in addition, with what they give to
the rows that are there. -/
def addedAfter (version : Nat) : List Column :=
  (addedIn (version + 1)).map withFallback

theorem layoutColumns_succ {version : Nat} (below : version < 4) :
    (layoutColumns (version + 1)).map Column.bare =
      (layoutColumns version ++ addedAfter version).map Column.bare := by
  revert version
  decide

theorem addedAfter_data {version : Nat} (below : version < 4) :
    ∀ column ∈ addedAfter version,
      column.key ≠ .position ∧ column.fallback.kind = column.affinity.kind := by
  revert version
  decide

end Widening

end MessageStore.Schema
