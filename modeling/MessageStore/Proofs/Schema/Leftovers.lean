import MessageStore.Proofs.Schema.Preservation
import MessageStore.Proofs.Schema.Refusals

/-!
# Records that are left over

A setup records the version for the first time when it has built a new database
and when it leaves version 0.  Both make the table of the version only where there
is none, but both add a record in any case, and the table takes no second one.  So
a record that is there already, left over from another store or of version 0, fails
the setup, which leaves the database as it was and fails again every time.
-/

namespace MessageStore.Schema

open Relational (Cell Database Statement Table sameName)

/-! ## Recording a version for the first time -/

/-- A database that has a record of a version. -/
def HasRecord (db : Database) : Prop :=
  ∃ versions, db.table? versionTable = some versions ∧ ∃ row ∈ versions.rows, isRecord row = true

/-- A database in which only the table of the version has its name, and in this there is room for
another row. -/
structure Recordable (db : Database) : Prop where
  plain : PlainVersions db
  view : db.view? versionTable = none
  index : db.index? versionTable = none
  room : ∀ versions, db.table? versionTable = some versions →
    ∃ position, versions.nextPosition? = some position

section Recording

variable {db other : Database}

theorem HasRecord.congr (same : other.table? versionTable = db.table? versionTable) :
    HasRecord other ↔ HasRecord db := by
  unfold HasRecord
  rw [same]

theorem Recordable.congr (recordable : Recordable db)
    (same : other.table? versionTable = db.table? versionTable)
    (view : other.view? versionTable = none) (index : other.index? versionTable = none) :
    Recordable other :=
  ⟨(storedVersion_congr recordable.plain same).1, view, index, same ▸ recordable.room⟩

theorem exec_insertVersion {versions : Table} {position : Int64}
    (writable : db.writable versionTable = .ok versions)
    (columns : versions.columns = versionColumns) (next : versions.nextPosition? = some position)
    (target : Nat) :
    (insertVersion target).exec db =
      if versions.rows.any isRecord then .error (.notUnique versions.name "id")
      else .ok (db.replace (versions.withRow (recordRow target position))) := by
  have known : ∀ cell ∈ [("id", Cell.integer 1), ("version", versionCell target)],
      (versions.column? cell.1).isSome := by
    simp [column?_id columns, column?_version columns]
  refine (Database.insertAt_eq writable known).trans ?_
  rw [insert_record columns next]
  cases versions.rows.any isRecord <;> rfl

/-- Making the table of the version where there is none leaves one with the rows that there were. -/
theorem Recordable.exec_createVersions (recordable : Recordable db) :
    ∃ made versions position, createVersions.exec db = .ok made ∧ made.indexes = db.indexes ∧
      made.writable versionTable = .ok versions ∧ versions.name = versionTable ∧
      versions.columns = versionColumns ∧ versions.nextPosition? = some position ∧
      (versions.rows.any isRecord = true ↔ HasRecord db) := by
  cases found : db.table? versionTable with
  | none =>
      have unrecorded : ¬ HasRecord db := by
        rintro ⟨versions, present, -⟩
        rw [found] at present
        cases present
      refine ⟨{ db with tables := db.tables ++ [blankVersions] }, blankVersions, 1,
        Database.createTable_eq_ok_iff.mpr
          (.inr ⟨found, recordable.view, recordable.index, rfl⟩), rfl,
        Database.writable_eq_ok_iff.mpr
          ⟨recordable.view, Database.table?_append_self found rfl⟩, rfl, rfl, rfl, ?_⟩
      exact iff_of_false Bool.false_ne_true unrecorded
  | some versions =>
      obtain ⟨named, columns⟩ := recordable.plain versions found
      obtain ⟨position, next⟩ := recordable.room versions found
      refine ⟨db, versions, position,
        Database.createTable_eq_ok_iff.mpr (.inl ⟨rfl, .inl (by rw [found]; rfl), rfl⟩), rfl,
        Database.writable_eq_ok_iff.mpr ⟨recordable.view, found⟩, named, columns, next, ?_⟩
      simp [HasRecord, found]

/-- A version can be recorded for the first time exactly if there is no record. -/
theorem Recordable.execAll (recordable : Recordable db) (target : Nat) :
    (HasRecord db → Statement.execAll db [createVersions, insertVersion target] =
      .error (.notUnique versionTable "id")) ∧
    (¬ HasRecord db → ∃ after,
      Statement.execAll db [createVersions, insertVersion target] = .ok after ∧
        after.indexes = db.indexes) := by
  obtain ⟨made, versions, position, created, indexes, writable, named, columns, next, records⟩ :=
    recordable.exec_createVersions
  have both : Statement.execAll db [createVersions, insertVersion target] =
      (insertVersion target).exec made := by
    rw [Statement.execAll_cons, created]
    change Statement.execAll made [insertVersion target] = _
    rw [Statement.execAll_cons]
    cases (insertVersion target).exec made <;> rfl
  rw [both, exec_insertVersion writable columns next, named, ← records]
  constructor
  · intro recorded
    exact if_pos recorded
  · intro unrecorded
    exact ⟨_, if_neg unrecorded, indexes⟩

end Recording

/-! ## Databases without messages -/

/-- The names of the table of messages and of its indexes. -/
def ownNames : List String :=
  messageTable :: messageIndexes.map (·.name)

/-- A database in which the names are free that a table of messages and its indexes get. -/
structure Vacant (db : Database) : Prop where
  tables : ∀ name ∈ ownNames, db.table? name = none
  views : ∀ name ∈ ownNames, db.view? name = none
  indexes : ∀ name ∈ ownNames, db.index? name = none

/-- The table of messages of a new database. -/
def blankMessages : Table :=
  ⟨messageTable, messageColumns, [], rising⟩

/-- A database with a new table of messages. -/
def withMessages (db : Database) : Database :=
  { db with tables := db.tables ++ [blankMessages], indexes := db.indexes ++ messageIndexes }

/-- What the building of a new database reports. -/
def creationNote : Log.Record :=
  ⟨.debug, Log.migrate, s!"Creating cache database schema at version {currentVersion}"⟩

section Building

variable {db : Database}

theorem Vacant.execAll_messages (vacant : Vacant db) :
    Statement.execAll db
        (.createTable messageTable messageColumns rising false :: createIndexes) =
      .ok (withMessages db) := by
  have created : db.createTable messageTable messageColumns rising false =
      .ok { db with tables := db.tables ++ [blankMessages] } :=
    Database.createTable_eq_ok_iff.mpr (.inr
      ⟨vacant.tables _ (by decide), vacant.views _ (by decide), vacant.indexes _ (by decide), rfl⟩)
  have found : Database.table? { db with tables := db.tables ++ [blankMessages] } messageTable =
      some blankMessages :=
    Database.table?_append_self (vacant.tables messageTable (by decide)) rfl
  have differ : ∀ name ∈ messageIndexes.map (·.name), sameName messageTable name = false := by
    decide
  refine bind_eq_ok_iff.mpr ⟨_, created, execAll_createIndexes found rfl fun name member => ?_⟩
  have own : name ∈ ownNames := List.mem_cons_of_mem _ member
  refine ⟨?_, vacant.views name own, vacant.indexes name own⟩
  have absent := vacant.tables name own
  unfold Database.table? at absent ⊢
  rw [List.find?_append, absent]
  simp [blankMessages, differ name member]

theorem table?_withMessages (vacant : Vacant db) :
    (withMessages db).table? messageTable = some blankMessages :=
  Database.table?_append_self (vacant.tables messageTable (by decide)) rfl

theorem Recordable.withMessages (recordable : Recordable db) (vacant : Vacant db) :
    Recordable (withMessages db) := by
  have same := Statement.execAll_frame vacant.execAll_messages
    (show ∀ other ∈ _, sameName other versionTable = false by decide)
  refine recordable.congr same recordable.view ?_
  have absent := recordable.index
  unfold Database.index? at absent ⊢
  rw [Schema.withMessages, List.find?_append, absent]
  decide

theorem setup_of_vacant (vacant : Vacant db) :
    setup db =
      match Statement.execAll (withMessages db) [createVersions, insertVersion currentVersion] with
      | .error fault => ⟨db, [creationNote], .error (.of (.engine fault))⟩
      | .ok fresh => ⟨fresh, [creationNote], .ok ()⟩ := by
  have absent := tableNamed?_of_table?_eq_none (vacant.tables messageTable (by decide))
  have built : Statement.execAll db (createFresh currentVersion) =
      Statement.execAll (withMessages db) [createVersions, insertVersion currentVersion] := by
    rw [createFresh, Statement.execAll_append, vacant.execAll_messages]
    rfl
  change setupTo none steps currentVersion db = _
  rw [setupTo_of_absent absent, Statement.execUnder_none, built]
  rfl

/-- A new database is built where there is no record, and only there. -/
theorem Recordable.setup_of_vacant (recordable : Recordable db) (vacant : Vacant db) :
    (HasRecord db →
      setup db = ⟨db, [creationNote], .error (.of (.engine (.notUnique versionTable "id")))⟩) ∧
    (¬ HasRecord db → ∃ fresh, setup db = ⟨fresh, [creationNote], .ok ()⟩ ∧
      storedVersion fresh = .ok currentVersion ∧
      fresh.table? messageTable = some blankMessages ∧
      fresh.indexes = db.indexes ++ messageIndexes) := by
  have same := Statement.execAll_frame vacant.execAll_messages
    (show ∀ other ∈ _, sameName other versionTable = false by decide)
  obtain ⟨refused, recorded⟩ := (recordable.withMessages vacant).execAll currentVersion
  rw [HasRecord.congr same] at refused recorded
  rw [Schema.setup_of_vacant vacant]
  constructor
  · intro left
    rw [refused left]
  · intro unrecorded
    obtain ⟨fresh, done, indexes⟩ := recorded unrecorded
    have version := storedVersion_insertVersion (recordable.withMessages vacant).plain
      (Nat.le_refl currentVersion) done
    have messages := Statement.execAll_frame done
      (show ∀ other ∈ _, sameName other messageTable = false by decide)
    rw [done]
    exact ⟨fresh, rfl, version.2, messages.trans (table?_withMessages vacant), indexes⟩

end Building

/-! ## Stores of version 0 -/

section Beginning

variable {db : Database} {table : Table}

theorem hasRecord_of_stored {version : Nat} (plain : PlainVersions db)
    (present : db.table? versionTable ≠ none) (stored : storedVersion db = .ok version) :
    HasRecord db := by
  obtain ⟨versions, found⟩ := Option.ne_none_iff_exists'.mp present
  rw [storedVersion_of_some plain found, recordedIn] at stored
  cases record : versions.rows.find? isRecord with
  | none =>
      rw [record] at stored
      cases stored
  | some row =>
      exact ⟨versions, found, row, List.mem_of_find?_eq_some record, List.find?_some record⟩

/-- The step from version 0 fails where there is a record. -/
theorem display_refused (owned : Owned db) (recordable : Recordable db)
    (found : db.table? messageTable = some table) (laid : Laid 0 table) (left : HasRecord db) :
    display.apply none db = .error (.of (.engine (.notUnique versionTable "id"))) := by
  have agree := List.Perm.of_eq (layoutColumns_succ (by decide : 0 < 4)).symm
  obtain ⟨changed, body, -, outline⟩ :=
    execAll_addColumns owned found (laid.distinct_append (by decide) agree)
  have ownedChanged := owned.congr outline
  have same : changed.table? versionTable = db.table? versionTable :=
    body_frame display_mem body
  have recordableChanged : Recordable changed :=
    recordable.congr same (ownedChanged.view? _) (ownedChanged.index? (by decide) (by decide))
  have refused : Statement.execAll changed display.recordVersion = _ :=
    (recordableChanged.execAll 1).1 ((HasRecord.congr same).mpr left)
  have done : Statement.execAll db (display.body.statementsFor db) = .ok changed := body
  unfold Step.apply
  simp only [Statement.execUnder_none, done]
  change ofEngine (Statement.execAll changed display.recordVersion) = _
  rw [refused]
  rfl

/-- A store of version 0 reaches the current version if the version is not recorded, and otherwise
stays as it is. -/
theorem Recordable.setup_of_beginning (recordable : Recordable db) (owned : Owned db)
    (named : db.tableNamed? messageTable = some table) (laid : Laid 0 table)
    (stored : storedVersion db = .ok 0)
    (room : (table.rows.length : Int) ≤ Int64.maxValue.toInt) :
    (HasRecord db → setup db =
      ⟨db, [display.notice], .error (.of (.engine (.notUnique versionTable "id")))⟩) ∧
    (¬ HasRecord db → (setup db).outcome = .ok () ∧
      storedVersion (setup db).db = .ok currentVersion) := by
  have found : db.table? messageTable = some table :=
    (Database.table?_eq_tableNamed? (owned.spelled (.inl rfl))).trans named
  have standing : Standing 0 db :=
    ⟨tableNamed?_isSome_iff.mp (named ▸ rfl), recordable.plain, stored⟩
  constructor
  · intro left
    exact setupTo_of_failing standing display_mem (by decide)
      (display_refused owned recordable found laid left)
  · intro unrecorded
    have absent : db.table? versionTable = none := by
      by_contra present
      exact unrecorded (hasRecord_of_stored recordable.plain present stored)
    have holds : Holds 0 0 db table :=
      ⟨standing, owned, ⟨fun _ => absent, fun positive => absurd positive (by decide)⟩, found, laid⟩
    obtain ⟨migrated, result⟩ := holds.migrated_widened (show 0 + 4 = 4 from rfl) room
    exact ⟨result.succeeded, result.holds.standing.stored⟩

end Beginning

/-! ## Records that are left over -/

/-- A table of the version with one row. -/
def singleVersion (id version : Int64) : Table :=
  ⟨versionTable, versionColumns, [⟨1, [("id", .integer id), ("version", .integer version)]⟩],
    .fromPresent⟩

/-- A database of which only a table of the version with one row is left. -/
def leftOver (id version : Int64) : Database :=
  ⟨[singleVersion id version], [], []⟩

/-- A store of version 0 that records this version. -/
def recordedEarly : Database :=
  { early with tables := early.tables ++ [singleVersion 1 0] }

theorem vacant_leftOver (id version : Int64) : Vacant (leftOver id version) where
  tables name own := by
    have differ : ∀ name ∈ ownNames, sameName versionTable name = false := by decide
    simp [Database.table?, leftOver, singleVersion, differ name own]
  views _ _ := rfl
  indexes _ _ := rfl

theorem recordable_of_singleVersion {db : Database} (id version : Int64)
    (found : db.table? versionTable = some (singleVersion id version))
    (view : db.view? versionTable = none) (index : db.index? versionTable = none) :
    Recordable db where
  plain := plainVersions_of_found found rfl rfl
  view := view
  index := index
  room := by
    intro versions present
    rw [found] at present
    cases present
    have largest : (singleVersion id version).largestPresent = some 1 := rfl
    refine ⟨2, ?_⟩
    rw [Table.nextPosition?, largest]
    exact if_pos (show (2 : Int) ≤ Int64.maxValue.toInt by decide)

theorem recordable_leftOver (id version : Int64) : Recordable (leftOver id version) :=
  have found : (leftOver id version).table? versionTable = some (singleVersion id version) := by
    simp [Database.table?, leftOver, singleVersion]
  recordable_of_singleVersion id version found rfl rfl

theorem owned_recordedEarly : Owned recordedEarly where
  tables := by decide
  views := rfl
  indexes := by decide

theorem recordable_recordedEarly : Recordable recordedEarly :=
  recordable_of_singleVersion 1 0 rfl rfl (by decide)

/-- Without a table of messages a setup builds one, and from version 0 it climbs, exactly if there
is no record of a version.  A record that is there is in the way of the one that is to be made; then
nothing is changed. -/
theorem setup_blocked_by_record {db : Database} (recordable : Recordable db) :
    (Vacant db →
      (HasRecord db →
        setup db = ⟨db, [creationNote], .error (.of (.engine (.notUnique versionTable "id")))⟩) ∧
      (¬ HasRecord db → ∃ fresh, setup db = ⟨fresh, [creationNote], .ok ()⟩ ∧
        storedVersion fresh = .ok currentVersion ∧
        fresh.table? messageTable = some blankMessages ∧
        fresh.indexes = db.indexes ++ messageIndexes)) ∧
    ∀ table, Owned db → db.tableNamed? messageTable = some table → Laid 0 table →
      storedVersion db = .ok 0 → (table.rows.length : Int) ≤ Int64.maxValue.toInt →
        (HasRecord db → setup db =
          ⟨db, [display.notice], .error (.of (.engine (.notUnique versionTable "id")))⟩) ∧
        (¬ HasRecord db → (setup db).outcome = .ok () ∧
          storedVersion (setup db).db = .ok currentVersion) :=
  ⟨recordable.setup_of_vacant, fun _ owned named laid stored room =>
    recordable.setup_of_beginning owned named laid stored room⟩

/-- A row with another ID is not in the way, and the record of any version is. -/
theorem setup_blocked_by_record_only :
    (∃ fresh, setup (leftOver 2 6) = ⟨fresh, [creationNote], .ok ()⟩ ∧
      storedVersion fresh = .ok currentVersion) ∧
    setup (leftOver 1 6) = ⟨leftOver 1 6, [creationNote],
      .error (.of (.engine (.notUnique versionTable "id")))⟩ ∧
    setup recordedEarly = ⟨recordedEarly, [display.notice],
      .error (.of (.engine (.notUnique versionTable "id")))⟩ := by
  have unrecorded : ¬ HasRecord (leftOver 2 6) := by
    rintro ⟨versions, ⟨⟩, row, member, record⟩
    rw [List.mem_singleton.mp member] at record
    cases record
  have recorded : HasRecord (leftOver 1 6) := ⟨_, rfl, _, List.mem_singleton_self _, rfl⟩
  have recordedZero : HasRecord recordedEarly := ⟨_, rfl, _, List.mem_singleton_self _, rfl⟩
  obtain ⟨building, -⟩ := setup_blocked_by_record (recordable_leftOver 2 6)
  obtain ⟨blocked, -⟩ := setup_blocked_by_record (recordable_leftOver 1 6)
  obtain ⟨-, beginning⟩ := setup_blocked_by_record recordable_recordedEarly
  obtain ⟨fresh, built, version, -⟩ := (building (vacant_leftOver 2 6)).2 unrecorded
  exact ⟨⟨fresh, built, version⟩, (blocked (vacant_leftOver 1 6)).1 recorded,
    (beginning earlyTable owned_recordedEarly rfl laid_earlyTable rfl (by decide)).1 recordedZero⟩

/-- A record that is left over keeps a setup from building a table of messages, and a recorded
version 0 from climbing. -/
theorem left_over_record_blocks :
    (Vacant (leftOver 1 6) ∧ Recordable (leftOver 1 6) ∧
      (setup (leftOver 1 6)).outcome =
        .error (.of (.engine (.notUnique versionTable "id")))) ∧
    (Owned recordedEarly ∧ Recordable recordedEarly ∧
      recordedEarly.tableNamed? messageTable = some earlyTable ∧ Laid 0 earlyTable ∧
      storedVersion recordedEarly = .ok 0 ∧
      (setup recordedEarly).outcome =
        .error (.of (.engine (.notUnique versionTable "id")))) :=
  ⟨⟨vacant_leftOver 1 6, recordable_leftOver 1 6, rfl⟩,
    owned_recordedEarly, recordable_recordedEarly, rfl, laid_earlyTable, rfl, rfl⟩

end MessageStore.Schema
