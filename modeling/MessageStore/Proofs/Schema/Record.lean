import MessageStore.Proofs.Relational.Frame
import MessageStore.Proofs.Relational.Positions
import MessageStore.Proofs.Relational.Rows
import MessageStore.Schema.Migration

/-!
# The record of the version

What a database says about its version, read off the rows of the table of the
version, and what recording a version does to it.  The version is that of the
first row whose ID is 1.  Recording a version again changes this row, and
recording one for the first time adds it, so that in both cases the version is
found as it was recorded.
-/

namespace MessageStore.Schema

open Relational (Cell Column Condition Database Fault Query Row Statement Table sameName)

/-- The name of the table of the version finds, if anything, a table of this spelling with the
columns of the layout. -/
def PlainVersions (db : Database) : Prop :=
  ∀ table, db.table? versionTable = some table →
    table.name = versionTable ∧ table.columns = versionColumns

theorem plainVersions_of_found {db : Database} {table : Table}
    (found : db.table? versionTable = some table) (named : table.name = versionTable)
    (columns : table.columns = versionColumns) : PlainVersions db := by
  intro other foundOther
  rw [found] at foundOther
  cases foundOther
  exact ⟨named, columns⟩

/-- Whether a row of the table of the version is the record. -/
def isRecord (row : Row) : Bool :=
  Condition.cellHolds .integer .equal ((row.cells.lookup "id").getD .null) (.integer 1)

/-- The version in a cell of the record. -/
def versionOf : Cell → Except Error Nat
  | .integer version =>
      if 0 ≤ version.toInt ∧ version.toInt ≤ greatestVersion then .ok version.toInt.toNat
      else .error (.of (.cellRange 0 version.toInt))
  | cell => .error (.of (.cellKind 0 "version" cell.kind))

/-- The version that the rows of the table of the version record. -/
def recordedIn (rows : List Row) : Except Error Nat :=
  match rows.find? isRecord with
  | some row => versionOf ((row.cells.lookup "version").getD .null)
  | none => .error (.of .corruptSchema)

theorem tableNamed?_of_table?_eq_none {db : Database} {name : String}
    (missing : db.table? name = none) : db.tableNamed? name = none := by
  unfold Database.table? at missing
  unfold Database.tableNamed?
  rw [List.find?_eq_none] at missing ⊢
  intro table member named
  have same : table.name = name := by simpa using named
  exact missing table member (by simp [same])

theorem tableNamed?_isSome_iff {db : Database} {name : String} :
    (db.tableNamed? name).isSome ↔ name ∈ db.tables.map (·.name) := by
  simp [Database.tableNamed?]

theorem storedVersion_of_none {db : Database} (missing : db.table? versionTable = none) :
    storedVersion db = .ok 0 := by
  unfold storedVersion
  simp [tableNamed?_of_table?_eq_none missing]

/-! ## Reading the record -/

section Columns

variable {table : Table}

theorem column?_id (columns : table.columns = versionColumns) :
    table.column? "id" = some { name := "id", affinity := .integer, key := .unique } := by
  rw [Table.column?, columns]
  rfl

theorem column?_version (columns : table.columns = versionColumns) :
    table.column? "version" = some (integer "version") := by
  rw [Table.column?, columns]
  decide

theorem holds_record (columns : table.columns = versionColumns) (row : Row) :
    (Condition.compare "id" .equal (.integer 1)).holds table row = isRecord row := by
  simp [Condition.holds, column?_id columns, Row.cell, isRecord]

theorem project_version (columns : table.columns = versionColumns) (row : Row) :
    Query.project table ["version"] row =
      [("version", (row.cells.lookup "version").getD .null)] := by
  simp [Query.project, column?_version columns, Row.cell, integer]

end Columns

/-- The version that a database says is the one that its table of the version records. -/
theorem storedVersion_of_some {db : Database} {table : Table} (plain : PlainVersions db)
    (found : db.table? versionTable = some table) :
    storedVersion db = recordedIn table.rows := by
  obtain ⟨named, columns⟩ := plain table found
  have present : (db.tableNamed? versionTable).isSome := by
    rw [tableNamed?_isSome_iff, ← named]
    exact List.mem_map_of_mem (Database.of_table? found).1
  have required : Database.requireColumns table ["version", "id"] = .ok () := by
    rw [Database.requireColumns_eq_ok_iff]
    simp [column?_id columns, column?_version columns]
  have selected : Query.run
      { table := versionTable
        columns := ["version"]
        condition := some (.compare "id" .equal (.integer 1)) } db =
      .ok ((table.rows.filter isRecord).map fun row =>
        [("version", (row.cells.lookup "version").getD .null)]) := by
    rw [Query.run, Database.readable_eq_ok_iff.mpr found]
    change (do
      Database.requireColumns table ["version", "id"]
      return _) = _
    rw [required, funext (project_version columns)]
    simp only [Query.rows, Option.all_some, holds_record columns, if_true]
    rfl
  unfold storedVersion
  rw [selected]
  simp only [Option.isNone_iff_eq_none, Option.isSome_iff_ne_none.mp present, if_false, ofEngine_ok]
  rw [recordedIn, ← List.head?_filter]
  cases table.rows.filter isRecord with
  | nil => rfl
  | cons row rows =>
      simp only [List.map_cons, List.head?_cons]
      cases (row.cells.lookup "version").getD .null <;> rfl

/-- Databases in which the same table of the version is found say the same version. -/
theorem storedVersion_congr {db other : Database} (plain : PlainVersions db)
    (same : other.table? versionTable = db.table? versionTable) :
    PlainVersions other ∧ storedVersion other = storedVersion db := by
  have plainOther : PlainVersions other := by
    unfold PlainVersions
    rw [same]
    exact plain
  refine ⟨plainOther, ?_⟩
  cases found : db.table? versionTable with
  | none =>
      rw [storedVersion_of_none found, storedVersion_of_none (same.trans found)]
  | some table =>
      rw [storedVersion_of_some plain found, storedVersion_of_some plainOther (same.trans found)]

/-! ## Recording a version -/

theorem versionOf_versionCell {version : Nat} (small : version ≤ currentVersion) :
    versionOf (versionCell version) = .ok version := by
  have value : (Int64.ofNat version).toInt = version := by
    rw [Int64.toInt_ofNat_of_lt]
    unfold currentVersion at small
    omega
  unfold currentVersion at small
  simp [versionOf, versionCell, value, greatestVersion]
  omega

/-- Replacing the version of a row does not change whether it is the record. -/
theorem isRecord_put_version (row : Row) (cell : Cell) :
    isRecord (row.put "version" cell) = isRecord row := by
  unfold isRecord
  rw [Row.lookup_put]
  cases row.cells.lookup "id" <;> simp

/-- Rows that record a version record the new one once it has replaced the old one. -/
theorem recordedIn_put {rows : List Row} {before after : Nat}
    (recorded : recordedIn rows = .ok before) (small : after ≤ currentVersion) :
    recordedIn (rows.map fun row =>
      if isRecord row then row.put "version" (versionCell after) else row) = .ok after := by
  unfold recordedIn at recorded ⊢
  have same : (isRecord ∘ fun row : Row =>
      if isRecord row then row.put "version" (versionCell after) else row) = isRecord := by
    funext row
    simp only [Function.comp_apply]
    split
    · exact isRecord_put_version row _
    · rfl
  rw [List.find?_map, same]
  cases found : rows.find? isRecord with
  | none => simp [found] at recorded
  | some row =>
      have record : isRecord row = true := List.find?_some found
      simp only [found] at recorded
      simp only [Option.map_some, record, if_true, Row.lookup_put]
      cases old : row.cells.lookup "version" with
      | none => simp [old, versionOf] at recorded
      | some cell =>
          simp only [Option.map_some, Option.getD_some]
          exact versionOf_versionCell small

/-- Recording another version leaves a database that says this version. -/
theorem storedVersion_updateVersion {db after : Database} {source target : Nat}
    (plain : PlainVersions db) (stored : storedVersion db = .ok source)
    (small : target ≤ currentVersion)
    (done : Statement.execAll db [updateVersion target] = .ok after) :
    PlainVersions after ∧ storedVersion after = .ok target := by
  obtain ⟨_, edited, ⟨⟩⟩ := bind_eq_ok_iff.mp done
  obtain ⟨table, writable, _, _, rfl⟩ := Database.update_eq_ok_iff.mp edited
  have found := (Database.writable_eq_ok_iff.mp writable).2
  obtain ⟨named, columns⟩ := plain table found
  have replaced : (db.replace (Database.updated table [("version", .cell (versionCell target))]
      (some (.compare "id" .equal (.integer 1))))).table? versionTable = some _ :=
    Database.table?_replace_self found rfl
  have plainAfter := plainVersions_of_found replaced named columns
  refine ⟨plainAfter, ?_⟩
  rw [storedVersion_of_some plain found] at stored
  rw [storedVersion_of_some plainAfter replaced, ← recordedIn_put stored small]
  simp [Database.updated, Database.meets, holds_record columns, Database.assignRow,
    column?_version columns, Database.operandCell, integer, versionCell]

/-- Making the table of the version where there is none makes it plain. -/
theorem plainVersions_createVersions {db after : Database} (plain : PlainVersions db)
    (done : createVersions.exec db = .ok after) :
    PlainVersions after := by
  rcases Database.createTable_eq_ok_iff.mp done with ⟨_, _, rfl⟩ | ⟨absent, _, _, rfl⟩
  · exact plain
  · have found : Database.table?
        { db with tables := db.tables ++ [⟨versionTable, versionColumns, [], .fromPresent⟩] }
        versionTable = some ⟨versionTable, versionColumns, [], .fromPresent⟩ := by
      unfold Database.table? at absent ⊢
      simp [List.find?_append, absent]
    exact plainVersions_of_found found rfl rfl

/-- The record of a version at a position. -/
def recordRow (version : Nat) (position : Int64) : Row :=
  ⟨position, [("id", .integer 1), ("version", versionCell version)]⟩

theorem isRecord_recordRow (version : Nat) (position : Int64) :
    isRecord (recordRow version position) = true := by
  simp [recordRow, isRecord, Condition.cellHolds, Relational.Test.holds, Cell.order, Cell.orderInt]

/-- A row is the record if it has the ID of the record. -/
theorem isRecord_eq (row : Row) :
    isRecord row = (((row.cells.lookup "id").getD .null).order (.integer 1) == .eq) := by
  unfold isRecord Condition.cellHolds
  cases (row.cells.lookup "id").getD .null <;> simp [Relational.Test.holds, Cell.order]

section First

variable {table : Table} {version : Nat} {position : Int64}

/-- The row that recording a version for the first time makes. -/
theorem newRow_version (columns : table.columns = versionColumns) :
    (⟨position, table.newCells [("id", .integer 1), ("version", versionCell version)]⟩ : Row) =
      recordRow version position := by
  have differ : sameName "id" "version" = false := by decide
  simp [Table.newCells, Table.dataColumns, columns, versionColumns, integer, differ, versionCell,
    recordRow]

/-- A record repeats the ID of another one. -/
theorem uniqueViolation?_recordRow (columns : table.columns = versionColumns) (version : Nat)
    (position : Int64) :
    (table.uniqueViolation? (recordRow version position)).map (·.name) =
      if table.rows.any isRecord then some "id" else none := by
  have data : table.dataColumns = versionColumns := by
    rw [Table.dataColumns, columns]
    rfl
  let id : Column := { name := "id", affinity := .integer, key := .unique }
  have repeats : (id.key == .unique && (recordRow version position).cell id != .null &&
      table.rows.any fun other =>
        (other.cell id).order ((recordRow version position).cell id) == .eq) =
      table.rows.any isRecord := by
    simp only [funext isRecord_eq]
    rfl
  rw [Table.uniqueViolation?, data, show versionColumns = [id, integer "version"] from rfl,
    List.find?_cons, repeats]
  cases table.rows.any isRecord <;> rfl

/-- A table of the version takes a record unless it has one. -/
theorem insert_record (columns : table.columns = versionColumns)
    (next : table.nextPosition? = some position) :
    table.insert none [("id", .integer 1), ("version", versionCell version)] =
      if table.rows.any isRecord then .error (.notUnique table.name "id")
      else .ok (table.withRow (recordRow version position)) := by
  have filled : table.nullViolation? (recordRow version position) = none := by
    rw [Table.nullViolation?, Table.dataColumns, columns]
    rfl
  have behind : (table.rows.any fun other => other.position == position) = false := by
    rw [List.any_eq_false]
    intro other member
    have less := Table.lt_nextPosition next other member
    simp only [beq_iff_eq]
    rintro rfl
    exact Int64.lt_irrefl less
  have repeated := uniqueViolation?_recordRow columns version position
  have violation : table.violation? (recordRow version position) =
      if table.rows.any isRecord then some (.notUnique table.name "id") else none := by
    have fault : (table.uniqueViolation? (recordRow version position)).map
        (fun column => Fault.notUnique table.name column.name) = _ :=
      (Option.map_map _ _ _).symm.trans
        (congrArg (Option.map (Fault.notUnique table.name)) repeated)
    unfold Table.violation?
    rw [filled]
    change (if (table.rows.any fun other => other.position == position) = true then _ else _) = _
    rw [behind, fault]
    cases table.rows.any isRecord <;> rfl
  unfold Table.insert
  rw [Option.none_or, next]
  simp only [newRow_version columns, violation]
  cases table.rows.any isRecord <;> rfl

end First

/-- Recording a version for the first time leaves a database that says this version. -/
theorem storedVersion_insertVersion {db after : Database} {target : Nat}
    (plain : PlainVersions db) (small : target ≤ currentVersion)
    (done : Statement.execAll db [createVersions, insertVersion target] = .ok after) :
    PlainVersions after ∧ storedVersion after = .ok target := by
  obtain ⟨middle, created, done⟩ := bind_eq_ok_iff.mp done
  have plainMiddle := plainVersions_createVersions plain created
  obtain ⟨_, inserted, ⟨⟩⟩ := bind_eq_ok_iff.mp done
  obtain ⟨table, larger, writable, _, joined, rfl⟩ := Database.insertAt_eq_ok_iff.mp inserted
  have found := (Database.writable_eq_ok_iff.mp writable).2
  obtain ⟨named, columns⟩ := plainMiddle table found
  obtain ⟨position, next, -, -⟩ := Table.insert_eq_ok_iff.mp joined
  rw [insert_record columns next] at joined
  split at joined
  · cases joined
  next unrecorded =>
    cases joined
    have alone : ∀ other ∈ table.rows, isRecord other = false := by simpa using unrecorded
    have replaced : (middle.replace (table.withRow (recordRow target position))).table?
        versionTable = some (table.withRow (recordRow target position)) :=
      Database.table?_replace_self found rfl
    have plainAfter := plainVersions_of_found replaced named columns
    refine ⟨plainAfter, ?_⟩
    rw [storedVersion_of_some plainAfter replaced, recordedIn, Table.withRow,
      Table.find?_insertOrdered (isRecord_recordRow target position) alone]
    exact versionOf_versionCell small

end MessageStore.Schema
