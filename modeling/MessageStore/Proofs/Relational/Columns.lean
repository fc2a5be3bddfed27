import MessageStore.Proofs.Relational.Frame
import MessageStore.Proofs.Relational.Positions
import MessageStore.Proofs.Relational.Rows

/-!
# Columns of tables

A table finds a column by its name, whatever the order of its columns, as long
as no two of them have the same name.  Two lists of columns that agree but for
their order and for what they give to new rows therefore find the same.  A row
fits a table if it has one cell for each of its columns, of the class that the
column prefers.
-/

namespace MessageStore.Relational

/-- Among things of distinct names, one that has a name is the one that is found. -/
theorem find?_sameName {α : Type} {nameOf : α → String} {items : List α} {item : α} {name : String}
    (distinct : items.Pairwise fun first second => sameName (nameOf first) (nameOf second) = false)
    (member : item ∈ items) (same : sameName (nameOf item) name = true) :
    items.find? (fun other => sameName (nameOf other) name) = some item := by
  induction items with
  | nil => cases member
  | cons first rest ih =>
      obtain ⟨firstDistinct, restDistinct⟩ := List.pairwise_cons.mp distinct
      rcases List.mem_cons.mp member with rfl | later
      · exact List.find?_cons_of_pos same
      · have different : sameName (nameOf first) name = false := by
          rw [sameName_comm] at same ⊢
          apply sameName_eq_false same
          rw [sameName_comm]
          exact firstDistinct item later
        rw [List.find?_cons_of_neg (by simp [different])]
        exact ih restDistinct later

/-- A column but for what new rows get in it and whether it may be null. -/
def Column.bare (column : Column) : Column :=
  { column with notNull := false, fallback := .null }

theorem Column.of_bare_eq {first second : Column} (same : first.bare = second.bare) :
    first.name = second.name ∧ first.affinity = second.affinity ∧ first.key = second.key := by
  simpa [bare] using same

/-- Columns of which no two have the same name. -/
def Distinct (columns : List Column) : Prop :=
  columns.Pairwise fun first second => sameName first.name second.name = false

instance (columns : List Column) : Decidable (Distinct columns) :=
  inferInstanceAs (Decidable (columns.Pairwise _))

/-- The class of cells that a column of an affinity prefers. -/
def Affinity.kind : Affinity → Cell.Kind
  | integer => .integer
  | text => .text

/-- A cell of the preferred class is stored as it is. -/
theorem Affinity.convert_of_kind {affinity : Affinity} {cell : Cell}
    (preferred : cell.kind = affinity.kind) : affinity.convert cell = cell := by
  cases affinity <;> cases cell <;> first | rfl | cases preferred

theorem Affinity.ne_null_of_kind {affinity : Affinity} {cell : Cell}
    (preferred : cell.kind = affinity.kind) : cell ≠ .null := by
  rintro rfl
  cases affinity <;> cases preferred

section Lists

variable {columns others : List Column}

/-- Columns that agree with distinct ones are distinct. -/
theorem Distinct.of_perm (distinct : Distinct others)
    (agree : (columns.map Column.bare).Perm (others.map Column.bare)) : Distinct columns := by
  have bare : (others.map Column.bare).Pairwise fun first second =>
      sameName first.name second.name = false :=
    List.pairwise_map.mpr distinct
  refine List.pairwise_map.mp (agree.symm.pairwise bare ?_)
  intro first second different
  rw [sameName_comm]
  exact different

theorem Distinct.nodup (distinct : Distinct columns) : (columns.map (·.name)).Nodup := by
  refine List.pairwise_map.mpr (List.Pairwise.imp ?_ distinct)
  intro first second different equal
  rw [equal, sameName_self] at different
  cases different

/-- Distinct columns of one name are the same. -/
theorem Distinct.eq_of_name (distinct : Distinct columns) {column other : Column}
    (member : column ∈ columns) (otherMember : other ∈ columns) (same : other.name = column.name) :
    other = column := by
  have found := find?_sameName distinct member (sameName_self column.name)
  have otherFound := find?_sameName distinct otherMember (sameName_self other.name)
  rw [same, found] at otherFound
  exact (Option.some.inj otherFound).symm

/-- What agrees with a column is found among columns that agree. -/
theorem exists_of_perm (agree : (columns.map Column.bare).Perm (others.map Column.bare))
    {column : Column} (member : column ∈ others) :
    ∃ own ∈ columns, own.bare = column.bare := by
  have bare := agree.symm.subset (List.mem_map_of_mem member)
  exact List.mem_map.mp bare

end Lists

/-! ## Columns that a table finds -/

section Finding

variable {table : Table} {layout : List Column}

/-- A table with the columns of a layout finds each of them. -/
theorem Table.column?_of_perm
    (agree : (table.columns.map Column.bare).Perm (layout.map Column.bare))
    (distinct : Distinct layout) {column : Column} (member : column ∈ layout) :
    ∃ own, table.column? column.name = some own ∧ own ∈ table.columns ∧
      own.bare = column.bare := by
  obtain ⟨own, ownMember, same⟩ := exists_of_perm agree member
  have sameNames := (Column.of_bare_eq same).1
  refine ⟨own, ?_, ownMember, same⟩
  exact find?_sameName (distinct.of_perm agree) ownMember (by rw [sameNames, sameName_self])

end Finding

/-! ## Rows that fit -/

/-- A row that has one cell for each column of a table, of the class that the column prefers. -/
structure Row.Fits (table : Table) (row : Row) : Prop where
  names : row.cells.map Prod.fst = table.dataColumns.map (·.name)
  kinds : ∀ column ∈ table.dataColumns,
    ∃ cell, row.cells.lookup column.name = some cell ∧ cell.kind = column.affinity.kind

theorem Row.fits_iff {table : Table} {row : Row} :
    row.Fits table ↔ row.cells.map Prod.fst = table.dataColumns.map (·.name) ∧
      ∀ column ∈ table.dataColumns,
        (row.cells.lookup column.name).map Cell.kind = some column.affinity.kind := by
  constructor
  · rintro ⟨names, kinds⟩
    exact ⟨names, fun column member => Option.map_eq_some_iff.mpr (kinds column member)⟩
  · rintro ⟨names, kinds⟩
    exact ⟨names, fun column member => Option.map_eq_some_iff.mp (kinds column member)⟩

instance (table : Table) (row : Row) : Decidable (row.Fits table) :=
  decidable_of_iff _ Row.fits_iff.symm

/-- Whether a row fits depends on the columns of the table only. -/
theorem Row.Fits.congr {table other : Table} {row : Row} (fits : row.Fits table)
    (same : other.columns = table.columns) : row.Fits other := by
  have data : other.dataColumns = table.dataColumns := by
    unfold Table.dataColumns
    rw [same]
  constructor
  · rw [data]
    exact fits.names
  · rw [data]
    exact fits.kinds

/-- The cell of a row in a column of data is the one under the name of the column. -/
theorem Row.cell_of_lookup {table : Table} {row : Row} {column : Column} {cell : Cell}
    (member : column ∈ table.dataColumns) (found : row.cells.lookup column.name = some cell) :
    row.cell column = cell := by
  have data : column.key ≠ .position := by simpa using (List.mem_filter.mp member).2
  simp [Row.cell, data, found]

/-- A row still fits once a cell has been replaced by one that the column prefers. -/
theorem Row.Fits.put {table : Table} {row : Row} {name : String} {cell : Cell}
    (fits : row.Fits table)
    (preferred : ∀ column ∈ table.dataColumns, column.name = name →
      cell.kind = column.affinity.kind) :
    (row.put name cell).Fits table := by
  constructor
  · rw [← fits.names, Row.names_put]
  · intro column member
    obtain ⟨old, found, kind⟩ := fits.kinds column member
    rw [Row.lookup_put, found]
    by_cases named : column.name = name
    · exact ⟨cell, by simp [named], preferred column member named⟩
    · exact ⟨old, by simp [named], kind⟩

theorem Row.Fits.nullViolation? {table : Table} {row : Row} (fits : row.Fits table) :
    table.nullViolation? row = none := by
  unfold Table.nullViolation?
  rw [List.find?_eq_none]
  intro column member
  obtain ⟨cell, found, preferred⟩ := fits.kinds column member
  rw [Row.cell_of_lookup member found]
  simp [Affinity.ne_null_of_kind preferred]

/-! ## New rows -/

/-- The cell that a column is given, or what it gives to new rows. -/
def givenCell (given : List (String × Cell)) (column : Column) : Cell :=
  match given.find? fun (name, _) => sameName name column.name with
  | some (_, cell) => cell
  | none => column.fallback

/-- The row that is made of the cells given for it, at a position. -/
def Table.newRow (table : Table) (given : List (String × Cell)) (position : Int64) : Row :=
  ⟨position, table.newCells given⟩

section Joining

variable {table : Table} {given : List (String × Cell)}

/-- Among cells of different names, one is found under its name. -/
theorem lookup_of_mem {cells : List (String × Cell)} {name : String} {cell : Cell}
    (nodup : (cells.map Prod.fst).Nodup) (member : (name, cell) ∈ cells) :
    cells.lookup name = some cell := by
  induction cells with
  | nil => cases member
  | cons first rest ih =>
      obtain ⟨firstNew, restNodup⟩ := List.nodup_cons.mp nodup
      rw [List.lookup_cons]
      rcases List.mem_cons.mp member with rfl | later
      · simp
      · have different : (name == first.1) = false := by
          rw [beq_eq_false_iff_ne]
          rintro rfl
          exact firstNew (List.mem_map.mpr ⟨_, later, rfl⟩)
        rw [different]
        exact ih restNodup later

theorem lookup_map_of_nodup {columns : List Column} {cellOf : Column → Cell}
    (nodup : (columns.map (·.name)).Nodup) {column : Column} (member : column ∈ columns) :
    (columns.map fun column => (column.name, cellOf column)).lookup column.name =
      some (cellOf column) := by
  apply lookup_of_mem
  · rw [List.map_map]
    exact nodup
  · exact List.mem_map_of_mem (f := fun column => (column.name, cellOf column)) member

/-- A new row holds, under the name of each column, the cell that the column is given. -/
theorem Table.lookup_newCells (distinct : Distinct table.columns) {column : Column}
    (member : column ∈ table.dataColumns) :
    (table.newCells given).lookup column.name =
      some (column.affinity.convert (givenCell given column)) := by
  have data : Distinct table.dataColumns := List.Pairwise.filter _ distinct
  exact lookup_map_of_nodup data.nodup member

theorem Table.newCells_names :
    (table.newCells given).map Prod.fst = table.dataColumns.map (·.name) := by
  simp [newCells]

/-- A new row fits if what is given for each column is of the class that the column prefers. -/
theorem Table.fits_newCells (distinct : Distinct table.columns) {position : Int64}
    (preferred : ∀ column ∈ table.dataColumns,
      (givenCell given column).kind = column.affinity.kind) :
    (table.newRow given position).Fits table := by
  refine ⟨newCells_names, ?_⟩
  intro column member
  refine ⟨_, lookup_newCells distinct member, ?_⟩
  rw [Affinity.convert_of_kind (preferred column member)]
  exact preferred column member

/-- A table without unique columns accepts a row of cells that its columns prefer, unless the last
position has been used. -/
theorem Table.insert_of_preferred (distinct : Distinct table.columns)
    (repeatable : ∀ column ∈ table.columns, column.key ≠ .unique)
    (preferred : ∀ column ∈ table.dataColumns,
      (givenCell given column).kind = column.affinity.kind) :
    table.insert none given =
      match table.nextPosition? with
      | none => .error .full
      | some position => .ok (table.withRow (table.newRow given position)) := by
  unfold insert
  rw [Option.none_or]
  cases next : table.nextPosition? with
  | none => rfl
  | some position =>
      have accepted : table.violation? ⟨position, table.newCells given⟩ = none := by
        rw [violation?_eq_none_iff]
        refine ⟨(fits_newCells distinct preferred).nullViolation?, ?_, ?_⟩
        · intro other member equal
          have before := lt_nextPosition next other member
          rw [equal] at before
          exact Int64.lt_irrefl before
        · unfold uniqueViolation?
          rw [List.find?_eq_none]
          intro column member
          have key := repeatable column (List.mem_filter.mp member).1
          simp [key]
      simp only [accepted]
      rfl

end Joining

section Giving

variable {column own : Column}

/-- A column is given the cell that is given under its name. -/
theorem givenCell_of_mem {given : List (String × Cell)} {cell : Cell}
    (distinct : given.Pairwise fun first second => sameName first.1 second.1 = false)
    (member : (column.name, cell) ∈ given) : givenCell given column = cell := by
  have found := find?_sameName distinct member (sameName_self column.name)
  unfold givenCell
  simp only [found]

/-- A column that a pair of names fills is given the cell of the column that fills it. -/
theorem givenCell_copiedCells {source : Table} {pairs : List (String × String)} {row : Row}
    {filling : String}
    (distinct : pairs.Pairwise fun first second => sameName first.1 second.1 = false)
    (member : (column.name, filling) ∈ pairs) (found : source.column? filling = some own) :
    givenCell (Database.copiedCells source pairs row) column = row.cell own := by
  apply givenCell_of_mem
  · refine List.Pairwise.filterMap _ ?_ distinct
    intro first second different cell made other madeOther
    obtain ⟨_, _, rfl⟩ := Option.map_eq_some_iff.mp made
    obtain ⟨_, _, rfl⟩ := Option.map_eq_some_iff.mp madeOther
    exact different
  · exact List.mem_filterMap.mpr ⟨_, member, by simp [found]⟩

end Giving

/-! ## More columns -/

/-- A table with more columns, in which rows have the cells of rows that are not given them. -/
def Table.withColumns (table : Table) (columns : List Column) : Table :=
  { table with
    columns := table.columns ++ columns
    rows := table.rows.map fun row =>
      { row with
        cells := row.cells ++ columns.map fun column => (column.name, column.fallback) } }

theorem Table.withColumns_nil (table : Table) : table.withColumns [] = table := by
  simp [withColumns]

theorem Table.withColumns_cons (table : Table) (column : Column) (columns : List Column) :
    table.withColumns (column :: columns) = (table.withColumn column).withColumns columns := by
  simp [withColumns, withColumn]

/-- The cells of a row with more columns: the old one under an old name, and under each new name
what the new column gives. -/
theorem Row.Fits.lookup_append {table : Table} {row : Row} {columns : List Column}
    (fits : row.Fits table) (distinct : Distinct (table.columns ++ columns)) {column : Column}
    (member : column ∈ columns) :
    (row.cells ++ columns.map fun column => (column.name, column.fallback)).lookup column.name =
      some column.fallback := by
  obtain ⟨_, addedDistinct, apart⟩ := List.pairwise_append.mp distinct
  have fresh : row.cells.lookup column.name = none := by
    rw [List.lookup_eq_none_iff]
    intro cell present
    have named : cell.1 ∈ table.dataColumns.map (·.name) := by
      rw [← fits.names]
      exact List.mem_map_of_mem present
    obtain ⟨old, oldMember, sameNames⟩ := List.mem_map.mp named
    rw [bne_iff_ne]
    intro equal
    have different := apart old (List.mem_filter.mp oldMember).1 column member
    rw [sameNames, ← equal, sameName_self] at different
    cases different
  have added : Distinct columns := addedDistinct
  rw [List.lookup_append, fresh, Option.none_or]
  exact lookup_map_of_nodup added.nodup member

/-- Rows still fit once columns of data have been added that give cells of their class. -/
theorem Row.Fits.withColumns {table : Table} {row : Row} {columns : List Column}
    (fits : row.Fits table) (distinct : Distinct (table.columns ++ columns))
    (data : ∀ column ∈ columns, column.key ≠ .position)
    (preferred : ∀ column ∈ columns, column.fallback.kind = column.affinity.kind) :
    Row.Fits (table.withColumns columns)
      { row with
        cells := row.cells ++ columns.map fun column => (column.name, column.fallback) } := by
  have dataColumns : (table.withColumns columns).dataColumns = table.dataColumns ++ columns := by
    have allData : columns.filter (fun column => column.key ≠ .position) = columns := by
      rw [List.filter_eq_self]
      simpa using data
    unfold Table.withColumns Table.dataColumns
    rw [List.filter_append, allData]
  constructor
  · rw [dataColumns, List.map_append, List.map_append, fits.names]
    simp
  · intro column member
    rw [dataColumns] at member
    rcases List.mem_append.mp member with old | added
    · obtain ⟨cell, found, kind⟩ := fits.kinds column old
      exact ⟨cell, by rw [List.lookup_append, found, Option.some_or], kind⟩
    · exact ⟨column.fallback, fits.lookup_append distinct added, preferred column added⟩

end MessageStore.Relational
