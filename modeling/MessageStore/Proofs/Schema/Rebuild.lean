import MessageStore.Proofs.Relational.Copies
import MessageStore.Proofs.Schema.Bodies

/-!
# The rebuilt table of messages

The step from version 4 on makes a new table, copies every row into it, and lets
it take the place of the old one.  The copies stand in the order of the old rows
at the positions from 1 on, and nothing of the old table is left.
-/

namespace MessageStore.Schema

open Relational (Column Database Distinct Index Row Statement Table givenCell sameName)

/-- The name of the new table until it takes the place of the old one. -/
def newTable : String := "messages_new"

/-- The columns of the new table. -/
def rebuiltColumns : List Column :=
  position :: text "mid" :: keptColumns

/-- The columns of the new table that are filled, each with the column of the old one that fills
it. -/
def rebuildPairs : List (String × String) :=
  ("mid", "id") :: keptColumns.map fun column => (column.name, column.name)

/-- The new table before rows are copied. -/
def blankTable : Table :=
  ⟨newTable, rebuiltColumns, [], rising⟩

theorem blankTable_distinct : Distinct blankTable.columns :=
  layoutColumns_distinct (by decide : 5 ≤ currentVersion)

theorem rebuildPairs_distinct :
    rebuildPairs.Pairwise fun first second => sameName first.1 second.1 = false := by
  decide +kernel

/-- Every column of data of the new table is filled from a column of version 4 of its class. -/
theorem exists_filling : ∀ column ∈ blankTable.dataColumns, ∃ filling ∈ layoutColumns 4,
    (column.name, filling.name) ∈ rebuildPairs ∧ filling.key ≠ .position ∧
      filling.affinity = column.affinity := by
  decide +kernel

section Copy

variable {table : Table}

/-- What a row of version 4 gives to a column of the new table. -/
theorem givenCell_rebuild (laid : Laid 4 table) (row : Row) {column filling : Column}
    (member : filling ∈ layoutColumns 4) (data : filling.key ≠ .position)
    (pair : (column.name, filling.name) ∈ rebuildPairs) :
    givenCell (Database.copiedCells table rebuildPairs row) column =
      (row.cells.lookup filling.name).getD .null := by
  obtain ⟨own, found, _⟩ := laid.column? member
  rw [Relational.givenCell_copiedCells rebuildPairs_distinct pair found]
  exact laid.cell member data found

/-- What a row of version 4 gives to a column of the new table is of the class of the column. -/
theorem givenCell_rebuild_kind (laid : Laid 4 table) {row : Row} (present : row ∈ table.rows) :
    ∀ column ∈ blankTable.dataColumns,
      (givenCell (Database.copiedCells table rebuildPairs row) column).kind =
        column.affinity.kind := by
  intro column member
  obtain ⟨filling, fillingMember, pair, data, sameAffinity⟩ := exists_filling column member
  obtain ⟨cell, found, kind⟩ := laid.lookup present fillingMember data
  rw [givenCell_rebuild laid row fillingMember data pair, found, ← sameAffinity]
  exact kind

/-- The rows of a table of version 4 can be copied, as long as there are positions for them. -/
theorem exists_filled (laid : Laid 4 table)
    (room : (table.rows.length : Int) ≤ Int64.maxValue.toInt) :
    ∃ filled, table.rows.foldlM (fun (filled : Table) row =>
        filled.insert none (Database.copiedCells table rebuildPairs row)) blankTable = .ok filled ∧
      Table.Filled blankTable (Database.copiedCells table rebuildPairs) table.rows 0 filled := by
  have counts : blankTable.Counts 0 := by
    refine ⟨⟨none, rfl, rfl⟩, by decide, ?_⟩
    intro row member
    cases member
  apply Table.foldlM_insert blankTable_distinct (by decide) _ counts List.Pairwise.nil
  · simpa using room
  · intro row present
    exact givenCell_rebuild_kind laid present

end Copy

/-! ## The database around the table -/

/-- A database with a table behind the tables of another one that are not tables of messages. -/
def withTable (db : Database) (table : Table) : Database :=
  { tables := (db.tables.filter fun other => other.name ≠ messageTable) ++ [table]
    views := db.views
    indexes := [] }

/-- The indexes of the table of messages. -/
def messageIndexes : List Index :=
  [⟨"idx_mid", messageTable⟩, ⟨"idx_topic", messageTable⟩]

section Steps

variable {db : Database} {table filled : Table}

theorem Owned.table?_new (owned : Owned db) : db.table? newTable = none :=
  owned.table? (by decide) (by decide)

/-- The blank table joins a store. -/
theorem Owned.createTable (owned : Owned db) :
    db.createTable newTable rebuiltColumns rising false =
      .ok { db with tables := db.tables ++ [blankTable] } :=
  Database.createTable_eq_ok_iff.mpr
    (.inr ⟨owned.table?_new, owned.view? _, owned.index? (by decide) (by decide), rfl⟩)

/-- A table that rows may have been copied to. -/
def touched (table : Table) : Table :=
  { table with numbering := Table.Numbering.touch table.numbering }

/-- A table that has taken the place of the table of messages. -/
def rebuilt (table : Table) : Table :=
  { touched table with name := messageTable }

/-- The rows of the table of messages are copied into the blank table. -/
theorem Owned.copyRows (owned : Owned db) (found : db.table? messageTable = some table)
    (laid : Laid 4 table)
    (fills : table.rows.foldlM (fun (filled : Table) row =>
      filled.insert none (Database.copiedCells table rebuildPairs row)) blankTable = .ok filled) :
    Database.copyRows { db with tables := db.tables ++ [blankTable] } newTable rebuildPairs
        messageTable =
      .ok { db with tables := db.tables ++ [touched filled] } := by
  have source : Database.table? { db with tables := db.tables ++ [blankTable] } messageTable =
      some table := by
    unfold Database.table? at found ⊢
    rw [List.find?_append, found]
    rfl
  have target : Database.writable { db with tables := db.tables ++ [blankTable] } newTable =
      .ok blankTable :=
    Database.writable_eq_ok_iff.mpr
      ⟨owned.view? _, Database.table?_append_self owned.table?_new rfl⟩
  have fillings : ∀ pair ∈ rebuildPairs, ∃ column ∈ layoutColumns 4, column.name = pair.2 := by
    decide +kernel
  have known : ∀ pair ∈ rebuildPairs, (table.column? pair.2).isSome := by
    intro pair member
    obtain ⟨column, columnMember, same⟩ := fillings pair member
    obtain ⟨own, foundOwn, _⟩ := laid.column? columnMember
    rw [← same, foundOwn]
    rfl
  refine Database.copyRows_eq_ok_iff.mpr
    ⟨blankTable, table, filled, target, source, known, fills, ?_⟩
  have named : (touched filled).name = newTable := (Table.foldlM_insert_frame fills).1
  exact (Database.replace_append_self owned.table?_new rfl named).symm

/-- The old table is dropped together with its indexes. -/
theorem Owned.dropTable (owned : Owned db) (found : db.table? messageTable = some table)
    (named : table.name = messageTable) (other : filled.name = newTable) :
    Database.dropTable { db with tables := db.tables ++ [filled] } messageTable =
      .ok (withTable db filled) := by
  have source : Database.table? { db with tables := db.tables ++ [filled] } messageTable =
      some table := by
    unfold Database.table? at found ⊢
    rw [List.find?_append, found]
    rfl
  have own : ∀ index ∈ db.indexes, index.table = messageTable := by
    intro index member
    exact (owned.indexes index member).1
  refine Database.dropTable_eq_ok_iff.mpr
    ⟨table, Database.writable_eq_ok_iff.mpr ⟨owned.view? _, source⟩, ?_⟩
  have kept : filled.name ≠ messageTable := by
    rw [other]
    decide
  simpa [withTable, named, kept] using own

/-- No table is found beside the new one under a name that is none of a store but messages. -/
theorem Owned.find?_others (owned : Owned db) (name : String)
    (different : sameName versionTable name = false) :
    (db.tables.filter fun other => other.name ≠ messageTable).find?
      (fun other => sameName other.name name) = none := by
  rw [List.find?_eq_none]
  intro other member
  obtain ⟨present, notMessages⟩ := List.mem_filter.mp member
  rcases owned.tables other.name (List.mem_map_of_mem present) with named | named
  · simp [named] at notMessages
  · simp [named, different]

/-- The new table gets the name of the old one. -/
theorem Owned.renameTable (owned : Owned db) (other : filled.name = newTable) :
    Database.renameTable (withTable db filled) newTable messageTable =
      .ok (withTable db { filled with name := messageTable }) := by
  have found : (withTable db filled).table? newTable = some filled :=
    Database.table?_append_self (owned.find?_others newTable (by decide)) other
  have others : ∀ old ∈ db.tables.filter fun old => old.name ≠ messageTable,
      (if old.name = newTable then { old with name := messageTable } else old) = old := by
    intro old member
    apply if_neg
    intro equal
    have missing := owned.find?_others newTable (by decide)
    rw [List.find?_eq_none] at missing
    exact missing old member (by simp [equal])
  refine Database.renameTable_eq_ok_iff.mpr
    ⟨filled, Database.writable_eq_ok_iff.mpr ⟨owned.view? _, found⟩, ?_⟩
  simp only [withTable, List.map_append, other, List.map_congr_left others, List.map_id']
  simp [other]

end Steps

section Whole

variable {db : Database} {table : Table}

/-- The indexes of the table of messages are made where their names are free. -/
theorem execAll_createIndexes (found : db.table? messageTable = some table)
    (named : table.name = messageTable)
    (free : ∀ name ∈ messageIndexes.map (·.name),
      db.table? name = none ∧ db.view? name = none ∧ db.index? name = none) :
    Statement.execAll db createIndexes =
      .ok { db with indexes := db.indexes ++ messageIndexes } := by
  obtain ⟨midTable, midView, midIndex⟩ := free "idx_mid" (by decide)
  obtain ⟨topicTable, topicView, topicIndex⟩ := free "idx_topic" (by decide)
  let indexed : Database := { db with indexes := db.indexes ++ [⟨"idx_mid", table.name⟩] }
  have topicIndexed : indexed.index? "idx_topic" = none := by
    have differ : sameName "idx_mid" "idx_topic" = false := by decide
    unfold Database.index? at topicIndex ⊢
    rw [List.find?_append, topicIndex]
    simp [differ]
  have first : db.createIndex "idx_mid" messageTable = .ok indexed :=
    Database.createIndex_eq_ok_iff.mpr ⟨table, found, midTable, midView, midIndex, rfl⟩
  have second : indexed.createIndex "idx_topic" messageTable = .ok _ :=
    Database.createIndex_eq_ok_iff.mpr ⟨table, found, topicTable, topicView, topicIndexed, rfl⟩
  have both : Statement.execAll db createIndexes = .ok _ :=
    bind_eq_ok_iff.mpr ⟨_, first, bind_eq_ok_iff.mpr ⟨_, second, rfl⟩⟩
  rw [both, List.append_assoc, named]
  rfl

/-- The indexes of the table of messages are made anew in a store. -/
theorem Owned.execAll_createIndexes (owned : Owned db) (named : table.name = messageTable) :
    Statement.execAll (withTable db table) createIndexes =
      .ok { withTable db table with indexes := messageIndexes } := by
  have found : (withTable db table).table? messageTable = some table :=
    Database.table?_append_self (owned.find?_others messageTable (by decide)) named
  have distinct : ∀ name ∈ messageIndexes.map (·.name),
      sameName versionTable name = false ∧ sameName messageTable name = false := by
    decide
  refine Schema.execAll_createIndexes found named fun name member => ⟨?_, owned.view? name, rfl⟩
  obtain ⟨notVersion, notMessage⟩ := distinct name member
  unfold Database.table? withTable
  rw [List.find?_append, owned.find?_others name notVersion]
  simp [named, notMessage]

/-- The step of version 4 leaves the rebuilt table in place of the old one. -/
theorem execAll_rebuild (owned : Owned db) (found : db.table? messageTable = some table)
    (laid : Laid 4 table) (room : (table.rows.length : Int) ≤ Int64.maxValue.toInt) :
    ∃ filled,
      Table.Filled blankTable (Database.copiedCells table rebuildPairs) table.rows 0 filled ∧
      Statement.execAll db rebuild =
        .ok { withTable db (rebuilt filled) with indexes := messageIndexes } := by
  obtain ⟨filled, fills, result⟩ := exists_filled laid room
  have copied := owned.copyRows found laid fills
  have named : (touched filled).name = newTable := result.name
  have dropped := owned.dropTable found laid.named named
  have renamed := owned.renameTable named
  have indexed : Statement.execAll (withTable db (rebuilt filled)) createIndexes = .ok _ :=
    owned.execAll_createIndexes rfl
  exact ⟨filled, result,
    bind_eq_ok_iff.mpr ⟨_, owned.createTable,
      bind_eq_ok_iff.mpr ⟨_, copied,
        bind_eq_ok_iff.mpr ⟨_, dropped,
          bind_eq_ok_iff.mpr ⟨_, renamed, indexed⟩⟩⟩⟩⟩

end Whole

/-! ## The new table -/

section Result

variable {db : Database} {table filled : Table}

/-- The rebuilt database is a store, and has the rebuilt table. -/
theorem Owned.rebuilt (owned : Owned db) (filled : Table) :
    Owned { withTable db (rebuilt filled) with indexes := messageIndexes } ∧
      Database.table? { withTable db (rebuilt filled) with indexes := messageIndexes }
        messageTable = some (Schema.rebuilt filled) := by
  constructor
  · constructor
    · intro name member
      rw [withTable, List.map_append] at member
      rcases List.mem_append.mp member with old | new
      · obtain ⟨other, otherMember, rfl⟩ := List.mem_map.mp old
        exact owned.tables _ (List.mem_map_of_mem (List.mem_filter.mp otherMember).1)
      · exact .inl (List.mem_singleton.mp new)
    · exact owned.views
    · change ∀ index ∈ messageIndexes, _
      decide
  · exact Database.table?_append_self (owned.find?_others messageTable (by decide)) rfl

variable (laid : Laid 4 table)
variable (result : Table.Filled blankTable (Database.copiedCells table rebuildPairs) table.rows 0
  filled)

omit laid in
include result in
/-- The copies stand in the order of the old rows at the positions from 1 on. -/
theorem copied_rows :
    filled.rows = table.rows.mapIdx fun index old =>
      blankTable.newRow (Database.copiedCells table rebuildPairs old)
        (Int64.ofNat (index + 1)) := by
  rw [result.rows]
  change [] ++ _ = _
  rw [List.nil_append]
  congr 1
  funext index old
  rw [← Int64.ofInt_eq_ofNat, Int64.toInt_zero, Int.zero_add]
  rfl

include laid result

/-- The rebuilt table is in the layout of version 5. -/
theorem Laid.rebuilt : Laid 5 (rebuilt filled) where
  supported := by decide
  named := rfl
  columns := by
    rw [show (Schema.rebuilt filled).columns = layoutColumns 5 from result.columns]
  rows := by
    intro row member
    change row ∈ filled.rows at member
    rw [copied_rows result] at member
    obtain ⟨index, bound, rfl⟩ := List.mem_mapIdx.mp member
    have fits : (blankTable.newRow (Database.copiedCells table rebuildPairs table.rows[index])
        (Int64.ofNat (index + 1))).Fits blankTable :=
      Table.fits_newCells blankTable_distinct
        (givenCell_rebuild_kind laid (List.getElem_mem bound))
    exact fits.congr result.columns
  ordered := result.ordered
  numbered := by
    obtain ⟨used, counts, _⟩ := result.counts
    obtain ⟨recorded, numbering, _⟩ := counts.recorded
    simp [Schema.rebuilt, touched, numbering, Table.Numbering.touch]

/-- The copy of a row holds the old ID as the ID of the message, and what the row holds under the
names of the other columns. -/
theorem rebuilt_row {index : Nat} {old : Row} (present : table.rows[index]? = some old) :
    ∃ new, (rebuilt filled).rows[index]? = some new ∧ new.position = Int64.ofNat (index + 1) ∧
      ∀ column ∈ blankTable.dataColumns, ∀ filling ∈ layoutColumns 4,
        filling.key ≠ .position → (column.name, filling.name) ∈ rebuildPairs →
          new.cells.lookup column.name = old.cells.lookup filling.name := by
  refine ⟨blankTable.newRow (Database.copiedCells table rebuildPairs old)
    (Int64.ofNat (index + 1)), ?_, rfl, ?_⟩
  · change filled.rows[index]? = _
    rw [copied_rows result, List.getElem?_mapIdx, present]
    rfl
  · intro column member filling fillingMember data pair
    have oldMember := List.mem_of_getElem? present
    obtain ⟨cell, found, _⟩ := laid.lookup oldMember fillingMember data
    have kind := givenCell_rebuild_kind laid oldMember column member
    have converted := Relational.Affinity.convert_of_kind kind
    rw [found, Table.newRow, Table.lookup_newCells blankTable_distinct member, converted,
      givenCell_rebuild laid old fillingMember data pair, found]
    rfl

omit laid in
/-- The rebuilt table counts on from the number of the copies. -/
theorem rebuilt_counts :
    ∃ used, (rebuilt filled).Counts used ∧ used.toInt = table.rows.length := by
  obtain ⟨used, counts, sum⟩ := result.counts
  obtain ⟨recorded, numbering, same⟩ := counts.recorded
  rw [Int64.toInt_zero, Int.zero_add] at sum
  refine ⟨used, ⟨⟨some used, ?_, rfl⟩, counts.nonneg, counts.bound⟩, sum⟩
  simp [Schema.rebuilt, touched, numbering, Table.Numbering.touch, same]

omit laid in
/-- The next row of the rebuilt table comes behind the copies. -/
theorem rebuilt_nextPosition? :
    (rebuilt filled).nextPosition? =
      if (table.rows.length : Int) < Int64.maxValue.toInt then
        some (Int64.ofNat (table.rows.length + 1))
      else none := by
  obtain ⟨used, counts, sum⟩ := rebuilt_counts result
  rw [counts.nextPosition?, sum, ← Int64.ofInt_eq_ofNat]
  rfl

end Result

end MessageStore.Schema
