import MessageStore.Proofs.Schema.Rebuild

/-!
# Steps of a store

Every step succeeds on a store of its version.  What the step does to the table
of messages succeeds on a table in the layout of the version and leaves one in
the next layout, and the next version can be recorded.
-/

namespace MessageStore.Schema

open Relational (Cell Column Database Row Statement Table)

/-! ## Recording a version succeeds -/

/-- What a store of a version has in the table of the version: there is none for version 0, and
otherwise its rows have the cells of the layout. -/
structure Recorded (version : Nat) (db : Database) : Prop where
  absent : version = 0 → db.table? versionTable = none
  present : 0 < version → ∃ table, db.table? versionTable = some table ∧
    table.columns = versionColumns ∧ ∀ row ∈ table.rows, row.cells.map Prod.fst = ["id", "version"]

section Recording

variable {db : Database}

/-- The table of the version before it has a record. -/
def blankVersions : Table :=
  ⟨versionTable, versionColumns, [], .fromPresent⟩

/-- The version is recorded for the first time where there is no table of the version. -/
theorem execAll_insertVersion (owned : Owned db) (absent : db.table? versionTable = none) :
    Statement.execAll db [createVersions, insertVersion 1] =
      .ok { db with tables := db.tables ++ [blankVersions.withRow (recordRow 1 1)] } := by
  have created : db.createTable versionTable versionColumns .fromPresent true =
      .ok { db with tables := db.tables ++ [blankVersions] } :=
    Database.createTable_eq_ok_iff.mpr
      (.inr ⟨absent, owned.view? _, owned.index? (by decide) (by decide), rfl⟩)
  have writable :
      Database.writable { db with tables := db.tables ++ [blankVersions] } versionTable =
        .ok blankVersions :=
    Database.writable_eq_ok_iff.mpr ⟨owned.view? _, Database.table?_append_self absent rfl⟩
  have known : ∀ cell ∈ [("id", Cell.integer 1), ("version", versionCell 1)],
      (blankVersions.column? cell.1).isSome := by
    decide
  have inserted : Database.insert { db with tables := db.tables ++ [blankVersions] } versionTable
      [("id", .integer 1), ("version", versionCell 1)] = .ok _ :=
    Database.insertAt_eq_ok_iff.mpr
      ⟨blankVersions, blankVersions.withRow (recordRow 1 1), writable, known, rfl, rfl⟩
  have both : Statement.execAll db [createVersions, insertVersion 1] = .ok _ :=
    bind_eq_ok_iff.mpr ⟨_, created, bind_eq_ok_iff.mpr ⟨_, inserted, rfl⟩⟩
  rw [both, Database.replace_append_self absent rfl rfl]

theorem exists_cells {row : Row} (names : row.cells.map Prod.fst = ["id", "version"]) :
    ∃ id version, row.cells = [("id", id), ("version", version)] := by
  rcases row with ⟨position, _ | ⟨first, _ | ⟨second, rest⟩⟩⟩
  · cases names
  · simp at names
  · obtain ⟨firstName, secondName, none⟩ : first.1 = "id" ∧ second.1 = "version" ∧ rest = [] := by
      simpa using names
    exact ⟨first.2, second.2, by rw [none, ← firstName, ← secondName]⟩

/-- Another version is recorded where the rows of the table of the version have their cells. -/
theorem exists_updateVersion (owned : Owned db) {table : Table}
    (found : db.table? versionTable = some table) (columns : table.columns = versionColumns)
    (names : ∀ row ∈ table.rows, row.cells.map Prod.fst = ["id", "version"]) (target : Nat) :
    ∃ after edited, Statement.execAll db [updateVersion target] = .ok after ∧
      after.outline = db.outline ∧ after.table? versionTable = some edited ∧
      edited.columns = versionColumns ∧
      ∀ row ∈ edited.rows, row.cells.map Prod.fst = ["id", "version"] := by
  have assigned (row : Row) :
      Database.assignRow table [("version", .cell (versionCell target))] row =
      row.put "version" (versionCell target) := by
    simp [Database.assignRow, column?_version columns, Database.operandCell, integer, versionCell]
  have filled : ∀ row ∈ table.rows, table.nullViolation?
      (Database.assignRow table [("version", .cell (versionCell target))] row) = none := by
    intro row member
    obtain ⟨id, version, cells⟩ := exists_cells (names row member)
    rw [assigned]
    unfold Table.nullViolation? Table.dataColumns
    rw [columns]
    simp [versionColumns, integer, Row.put, Row.cell, cells, versionCell, List.lookup_cons]
  have known : ∀ name ∈ ["version", "id"], (table.column? name).isSome := by
    simp [column?_id columns, column?_version columns]
  have edited : db.update versionTable [("version", .cell (versionCell target))]
      (some (.compare "id" .equal (.integer 1))) = .ok _ :=
    Database.update_eq_ok_iff.mpr
      ⟨table, owned.writable found, known, fun row member _ => filled row member, rfl⟩
  refine ⟨_, _, bind_eq_ok_iff.mpr ⟨_, edited, rfl⟩, Database.replace_outline _ _,
    Database.table?_replace_self found rfl, columns, ?_⟩
  intro row member
  obtain ⟨old, oldMember, rfl⟩ := List.mem_map.mp member
  split
  · rw [assigned, Row.names_put]
    exact names old oldMember
  · exact names old oldMember

/-- The version that a step leads to can be recorded in a store of the version of the step. -/
theorem Recorded.step {step : Step} (recorded : Recorded step.source db) (owned : Owned db) :
    ∃ after, Statement.execAll db step.recordVersion = .ok after ∧ Owned after ∧
      Recorded step.target after := by
  rcases step with ⟨source, body⟩
  cases source with
  | zero =>
      have absent := recorded.absent rfl
      refine ⟨_, execAll_insertVersion owned absent, ?_, ?_⟩
      · refine ⟨?_, owned.views, owned.indexes⟩
        intro name member
        rw [List.map_append] at member
        rcases List.mem_append.mp member with old | new
        · exact owned.tables name old
        · exact .inr (List.mem_singleton.mp new)
      · refine ⟨fun zero => absurd zero (Nat.succ_ne_zero 0), fun _ => ?_⟩
        exact ⟨_, Database.table?_append_self absent rfl, rfl, by decide⟩
  | succ source =>
      obtain ⟨table, found, columns, names⟩ := recorded.present (Nat.succ_pos source)
      obtain ⟨after, edited, done, outline, foundAfter, columnsAfter, namesAfter⟩ :=
        exists_updateVersion owned found columns names (source + 1 + 1)
      refine ⟨after, done, owned.congr outline, ?_⟩
      refine ⟨fun zero => absurd zero (Nat.succ_ne_zero _), fun _ => ?_⟩
      exact ⟨edited, foundAfter, columnsAfter, namesAfter⟩

end Recording

/-! ## Steps of a store -/

/-- A store of a version with a table of messages in a layout. -/
structure Holds (version layout : Nat) (db : Database) (table : Table) : Prop where
  standing : Standing version db
  owned : Owned db
  recorded : Recorded version db
  found : db.table? messageTable = some table
  laid : Laid layout table

section Steps

variable {db changed : Database} {table new : Table}

/-- A step succeeds if its body does and leaves a store. -/
theorem Holds.step {step : Step} {layout next : Nat} (member : step ∈ steps)
    (holds : Holds step.source layout db table)
    (body : Statement.execAll db (step.body.statementsFor db) = .ok changed)
    (owned : Owned changed) (found : changed.table? messageTable = some new)
    (laid : Laid next new) :
    ∃ after, step.apply none db = .ok after ∧ Holds step.target next after new := by
  have untouched := body_frame member body
  have recorded : Recorded step.source changed := by
    constructor
    · rw [untouched]
      exact holds.recorded.absent
    · rw [untouched]
      exact holds.recorded.present
  obtain ⟨after, done, ownedAfter, recordedAfter⟩ := recorded.step owned
  have applied : step.apply none db = .ok after :=
    Step.apply_eq_ok_iff.mpr ⟨changed, body, done⟩
  have foundAfter : after.table? messageTable = some new := by
    rw [← found]
    apply Statement.execAll_frame done
    have onlyVersions : ∀ name ∈ step.recordVersion.flatMap Statement.touched,
        name = versionTable := by
      unfold Step.recordVersion
      split <;> simp [createVersions, insertVersion, updateVersion, Statement.touched]
    intro other otherMember
    rw [onlyVersions other otherMember]
    decide
  exact ⟨after, applied, holds.standing.step member applied, ownedAfter, recordedAfter, foundAfter,
    laid⟩

theorem adding_mem {version : Nat} (below : version < 4) :
    (⟨version, .always (addColumns (addedAfter version))⟩ : Step) ∈ steps := by
  revert version
  decide

/-- A step below version 4 adds the columns of the next layout. -/
theorem Holds.widen {version : Nat} (holds : Holds version version db table) (below : version < 4) :
    ∃ after, Step.apply none ⟨version, .always (addColumns (addedAfter version))⟩ db = .ok after ∧
      Holds (version + 1) (version + 1) after (table.withColumns (addedAfter version)) := by
  have supported : version + 1 ≤ currentVersion := by
    unfold currentVersion
    omega
  have agree := List.Perm.of_eq (layoutColumns_succ below).symm
  have each := addedAfter_data below
  obtain ⟨changed, body, found, outline⟩ :=
    execAll_addColumns holds.owned holds.found (holds.laid.distinct_append supported agree)
  have laid := holds.laid.withColumns supported agree (fun column member => (each column member).1)
    (fun column member => (each column member).2) (by omega)
  exact Holds.step (adding_mem below) holds body (holds.owned.congr outline) found laid

/-- The step of version 4 rebuilds the table of messages. -/
theorem Holds.rebuild (holds : Holds 4 4 db table)
    (room : (table.rows.length : Int) ≤ Int64.maxValue.toInt) :
    ∃ after filled, Step.apply none ⟨4, .always rebuild⟩ db = .ok after ∧
      Table.Filled blankTable (Database.copiedCells table rebuildPairs) table.rows 0 filled ∧
      Holds 5 5 after (rebuilt filled) := by
  obtain ⟨filled, result, body⟩ := execAll_rebuild holds.owned holds.found holds.laid room
  have member : (⟨4, .always Schema.rebuild⟩ : Step) ∈ steps := by decide
  obtain ⟨owned, found⟩ := holds.owned.rebuilt filled
  obtain ⟨after, done, holdsAfter⟩ :=
    Holds.step member holds body owned found (holds.laid.rebuilt result)
  exact ⟨after, filled, done, result, holdsAfter⟩

/-- The step of version 5. -/
def dating : Step :=
  ⟨5, .unlessColumn messageTable "updated"
    (addColumns [updatedColumn] ++ [.update messageTable [("updated", .column "time")] none])⟩

theorem dating_mem : dating ∈ steps := by
  decide

/-- Whether the table of messages of a store has the time of the last modification. -/
theorem Holds.hasColumn {version layout : Nat} (holds : Holds version layout db table) :
    Schema.hasColumn db messageTable "updated" =
      (layoutColumns layout).any fun column => column.name == "updated" := by
  have names := (holds.laid.columns.map (·.name)).any_eq (f := (· == "updated"))
  rw [Schema.hasColumn, holds.found]
  simpa [List.any_map, Function.comp_def, Column.bare] using names

/-- The step of version 5 adds the time of the last modification where it is missing. -/
theorem Holds.date (holds : Holds 5 5 db table) :
    ∃ after, dating.apply none db = .ok after ∧ Holds 6 6 after (dated table) := by
  obtain ⟨changed, body, found, outline⟩ := execAll_date holds.owned holds.found holds.laid
  have missing : Schema.hasColumn db messageTable "updated" = false := by
    rw [holds.hasColumn]
    decide
  have needed : dating.body.statementsFor db = addColumns [updatedColumn] ++
      [.update messageTable [("updated", .column "time")] none] := by
    simp [dating, Body.statementsFor, missing]
  rw [← needed] at body
  exact Holds.step dating_mem holds body (holds.owned.congr outline) found holds.laid.dated

/-- The step of version 5 leaves a table alone that has the time of the last modification. -/
theorem Holds.keep (holds : Holds 5 6 db table) :
    ∃ after, dating.apply none db = .ok after ∧ Holds 6 6 after table := by
  have present : Schema.hasColumn db messageTable "updated" = true := by
    rw [holds.hasColumn]
    decide
  have body : Statement.execAll db (dating.body.statementsFor db) = .ok db := by
    simp [dating, Body.statementsFor, present]
  exact Holds.step dating_mem holds body holds.owned holds.found holds.laid

end Steps

end MessageStore.Schema
