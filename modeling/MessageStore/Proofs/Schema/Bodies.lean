import MessageStore.Proofs.Schema.Ascent
import MessageStore.Proofs.Schema.Layouts

/-!
# What the steps make of the table of messages

Up to version 4 a step adds columns, so that each row keeps its cells and gets
what the new columns give.  Then the table is rebuilt: its rows are copied in
order to positions from 1 on, and the ID of a message moves to a column of its
own.  The last step adds the time of the last modification, which is the time of
delivery for rows that are there, unless there is such a column already.
-/

namespace MessageStore.Schema

open Relational (Column Database Distinct Row Statement Table sameName)

/-- A database that has no tables but the two of a store, no views, and no indexes but those of
the table of messages. -/
structure Owned (db : Database) : Prop where
  tables : ∀ name ∈ db.tables.map (·.name), name = messageTable ∨ name = versionTable
  views : db.views = []
  indexes : ∀ index ∈ db.indexes,
    index.table = messageTable ∧ (index.name = "idx_mid" ∨ index.name = "idx_topic")

theorem Owned.congr {db other : Database} (owned : Owned db) (same : other.outline = db.outline) :
    Owned other := by
  obtain ⟨names, views, indexes⟩ : other.tables.map (·.name) = db.tables.map (·.name) ∧
      other.views = db.views ∧ other.indexes = db.indexes := by
    simpa [Database.outline] using same
  constructor
  · rw [names]
    exact owned.tables
  · rw [views]
    exact owned.views
  · rw [indexes]
    exact owned.indexes

section Lookups

variable {db : Database}

theorem Owned.view? (owned : Owned db) (name : String) : db.view? name = none := by
  simp [Database.view?, owned.views]

/-- No table is found under a name that is none of a store. -/
theorem Owned.table? (owned : Owned db) {name : String}
    (different : sameName messageTable name = false)
    (differentVersion : sameName versionTable name = false) : db.table? name = none := by
  unfold Database.table?
  rw [List.find?_eq_none]
  intro table member
  rcases owned.tables table.name (List.mem_map_of_mem member) with named | named
  · simp [named, different]
  · simp [named, differentVersion]

/-- No index is found under a name that no index of a store has. -/
theorem Owned.index? (owned : Owned db) {name : String} (notMid : sameName "idx_mid" name = false)
    (notTopic : sameName "idx_topic" name = false) : db.index? name = none := by
  unfold Database.index?
  rw [List.find?_eq_none]
  intro index member
  rcases (owned.indexes index member).2 with named | named
  · simp [named, notMid]
  · simp [named, notTopic]

theorem Owned.writable (owned : Owned db) {name : String} {table : Table}
    (found : db.table? name = some table) : db.writable name = .ok table :=
  Database.writable_eq_ok_iff.mpr ⟨owned.view? name, found⟩

end Lookups

/-! ## Columns that are added -/

/-- Columns of new names can be added to the table of messages. -/
theorem execAll_addColumns {db : Database} {table : Table} {columns : List Column}
    (owned : Owned db) (found : db.table? messageTable = some table)
    (distinct : Distinct (table.columns ++ columns)) :
    ∃ changed, Statement.execAll db (addColumns columns) = .ok changed ∧
      changed.table? messageTable = some (table.withColumns columns) ∧
      changed.outline = db.outline := by
  induction columns generalizing db table with
  | nil => exact ⟨db, rfl, by rw [found, Table.withColumns_nil], rfl⟩
  | cons column rest ih =>
      have fresh : table.column? column.name = none := by
        obtain ⟨_, _, apart⟩ := List.pairwise_append.mp distinct
        unfold Table.column?
        rw [List.find?_eq_none]
        intro own member
        simp [apart own member column List.mem_cons_self]
      have added := Database.addColumn_eq_ok_iff.mpr ⟨table, owned.writable found, fresh, rfl⟩
      have distinctRest : Distinct ((table.withColumn column).columns ++ rest) := by
        simpa [Table.withColumn] using distinct
      have foundRest : (db.replace (table.withColumn column)).table? messageTable =
          some (table.withColumn column) :=
        Database.table?_replace_self found rfl
      have ownedRest := owned.congr (Database.replace_outline db (table.withColumn column))
      obtain ⟨changed, done, foundChanged, outline⟩ := ih ownedRest foundRest distinctRest
      refine ⟨changed, bind_eq_ok_iff.mpr ⟨_, added, done⟩, ?_, ?_⟩
      · rw [foundChanged, Table.withColumns_cons]
      · rw [outline, Database.replace_outline]

/-! ## The time of the last modification -/

/-- The column that the last step adds. -/
def updatedColumn : Column :=
  addedInteger "updated" 0

/-- A table of messages with the time of delivery as the time of the last modification. -/
def dated (table : Table) : Table :=
  Database.updated (table.withColumns [updatedColumn]) [("updated", .column "time")] none

theorem layoutColumns_six :
    ((layoutColumns 5 ++ [updatedColumn]).map Column.bare).Perm
      ((layoutColumns 6).map Column.bare) := by
  decide +kernel

section Dating

variable {db : Database} {table : Table}

/-- A table of version 5 with one more column is in the layout of version 6. -/
theorem Laid.widened (laid : Laid 5 table) : Laid 6 (table.withColumns [updatedColumn]) :=
  laid.withColumns (by decide) layoutColumns_six (by decide) (by decide) (by decide)

/-- A row is given its time of delivery as its time of modification. -/
theorem assignRow_updated (laid : Laid 6 table) {row : Row} (present : row ∈ table.rows) :
    ∃ time, row.cells.lookup "time" = some time ∧ time.kind = .integer ∧
      Database.assignRow table [("updated", .column "time")] row = row.put "updated" time := by
  have timeMember : integer "time" ∈ layoutColumns 6 := by decide
  have updatedMember : integer "updated" ∈ layoutColumns 6 := by decide
  obtain ⟨time, found, kind⟩ := laid.lookup present timeMember (by decide)
  obtain ⟨timeColumn, foundTime, _⟩ := laid.column? timeMember
  obtain ⟨updatedColumn, foundUpdated, _, same⟩ := laid.column? updatedMember
  obtain ⟨sameName, sameAffinity, _⟩ := Column.of_bare_eq same
  have shown : row.cell timeColumn = time := by
    rw [laid.cell timeMember (by decide) foundTime, found]
    rfl
  have converted : updatedColumn.affinity.convert time = time := by
    apply Relational.Affinity.convert_of_kind
    rw [sameAffinity]
    exact kind
  rw [integer_name] at found foundTime foundUpdated sameName
  refine ⟨time, found, kind, ?_⟩
  simp [Database.assignRow, Database.operandCell, foundUpdated, foundTime, shown, converted,
    sameName]

/-- Rows still fit once they have been given their times of modification. -/
theorem fits_assignRow_updated (laid : Laid 6 table) {row : Row} (present : row ∈ table.rows) :
    (Database.assignRow table [("updated", .column "time")] row).Fits table := by
  obtain ⟨time, _, kind, assigned⟩ := assignRow_updated laid present
  rw [assigned]
  apply (laid.rows row present).put
  intro own member named
  obtain ⟨column, columnMember, same⟩ := laid.exists_column (List.mem_filter.mp member).1
  obtain ⟨sameName, sameAffinity, _⟩ := Column.of_bare_eq same
  have integers : ∀ column ∈ layoutColumns 6, column.name = "updated" →
      column.affinity = .integer := by
    decide
  rw [← sameAffinity, integers column columnMember (sameName.trans named)]
  exact kind

/-- Rows keep their positions when they are given their times of modification. -/
theorem dated_positions (table : Table) :
    (dated table).rows.map (·.position) = table.rows.map (·.position) :=
  (Database.positions_updated _ _ _).trans List.map_map

/-- A table in which all rows have been given their times of modification is in the layout of
version 6. -/
theorem Laid.dated (laid : Laid 5 table) : Laid 6 (dated table) where
  supported := by decide
  named := laid.named
  columns := laid.widened.columns
  rows := by
    intro row member
    obtain ⟨old, oldMember, rfl⟩ := List.mem_map.mp member
    exact (fits_assignRow_updated laid.widened oldMember).congr rfl
  ordered := laid.ordered.of_positions (dated_positions table)
  numbered := laid.widened.numbered

/-- A row of a table of version 5 keeps its position and its cells, and is given its time of
delivery as its time of modification. -/
theorem dated_row (laid : Laid 5 table) {index : Nat} {old : Row}
    (present : table.rows[index]? = some old) :
    ∃ new, (Schema.dated table).rows[index]? = some new ∧ new.position = old.position ∧
      new.cells.lookup "updated" = old.cells.lookup "time" ∧
      ∀ column ∈ dataColumns 5, new.cells.lookup column.name = old.cells.lookup column.name := by
  have oldMember := List.mem_of_getElem? present
  obtain ⟨wide, made⟩ : ∃ wide : Row, wide =
      { old with cells := old.cells ++ [updatedColumn].map fun column =>
        (column.name, column.fallback) } := ⟨_, rfl⟩
  have wideMember : wide ∈ (table.withColumns [updatedColumn]).rows := by
    rw [made]
    exact List.mem_map_of_mem oldMember
  obtain ⟨time, foundTime, _, assigned⟩ := assignRow_updated laid.widened wideMember
  have kept : ∀ column ∈ dataColumns 5,
      wide.cells.lookup column.name = old.cells.lookup column.name := by
    have data : ∀ column ∈ dataColumns 5, column.key ≠ .position := by
      decide
    intro column member
    rw [made]
    exact laid.lookup_append oldMember (List.mem_cons_of_mem _ member) (data column member) _
  have newNames : ∀ column ∈ dataColumns 5, column.name ≠ "updated" := by
    decide
  refine ⟨wide.put "updated" time, ?_, by rw [made]; rfl, ?_, ?_⟩
  · rw [← assigned, made]
    simp [Schema.dated, Database.updated, Table.withColumns, Database.meets, present]
  · have updatedMember : integer "updated" ∈ layoutColumns 6 := by decide
    obtain ⟨before, foundUpdated, _⟩ := laid.widened.lookup wideMember updatedMember (by decide)
    have oldTime := kept (integer "time") (by decide)
    rw [integer_name] at foundUpdated oldTime
    rw [Row.lookup_put, foundUpdated, ← oldTime, foundTime]
    rfl
  · intro column member
    rw [Row.lookup_put, kept column member]
    simp [newNames column member]

/-- The time of modification can be added to a table of version 5. -/
theorem execAll_date (owned : Owned db) (found : db.table? messageTable = some table)
    (laid : Laid 5 table) :
    ∃ changed, Statement.execAll db (addColumns [updatedColumn] ++
        [.update messageTable [("updated", .column "time")] none]) = .ok changed ∧
      changed.table? messageTable = some (Schema.dated table) ∧ changed.outline = db.outline := by
  obtain ⟨wide, added, foundWide, outline⟩ :=
    execAll_addColumns owned found (laid.distinct_append (by decide) layoutColumns_six)
  have ownedWide := owned.congr outline
  have known : ∀ name ∈ ["time", "updated"],
      ((table.withColumns [updatedColumn]).column? name).isSome := by
    have members : ∀ name ∈ ["time", "updated"], integer name ∈ layoutColumns 6 := by
      decide
    intro name member
    obtain ⟨own, foundOwn, _⟩ := laid.widened.column? (members name member)
    rw [integer_name] at foundOwn
    rw [foundOwn]
    rfl
  have edited : wide.update messageTable [("updated", .column "time")] none = .ok _ :=
    Database.update_eq_ok_iff.mpr
      ⟨table.withColumns [updatedColumn], ownedWide.writable foundWide, known,
        fun row member _ => (fits_assignRow_updated laid.widened member).nullViolation?, rfl⟩
  refine ⟨_, Statement.execAll_append_eq_ok_iff.mpr ⟨wide, added,
    bind_eq_ok_iff.mpr ⟨_, edited, rfl⟩⟩, ?_, ?_⟩
  · exact Database.table?_replace_self foundWide rfl
  · rw [Database.replace_outline, outline]

end Dating

end MessageStore.Schema
