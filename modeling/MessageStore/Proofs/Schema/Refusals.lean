import MessageStore.Proofs.Relational.Names
import MessageStore.Proofs.Schema.Ascent
import MessageStore.Proofs.Schema.Layouts

/-!
# Databases that a setup refuses

Whether a setup takes a database with a table of messages is decided by the
record of the version, before anything is changed: a database is refused if there
is no record, if the record is no version, and if it is one to come.  What is left
to fail after that is the engine, and it does where a table has the columns
already that a step is to add.
-/

namespace MessageStore

/-- An error that comes from the relational engine. -/
def Error.FromEngine (error : Error) : Prop :=
  ∃ fault, error.cause = .engine fault

namespace Schema

open Relational (Cell Column Database Fault Query Statement Table)

/-- A run that fails for a cause, whatever was being done. -/
def Run.FailsWith (run : Run) (cause : Cause) : Prop :=
  ∃ context, run.outcome = .error ⟨cause, context⟩

/-! ## Failures of the engine -/

section Engine

variable {barrier : Option Fault} {db : Database}

/-- A step fails where the engine does. -/
theorem Step.fromEngine_of_apply {step : Step} {error : Error}
    (failed : step.apply barrier db = .error error) : error.FromEngine := by
  unfold Step.apply at failed
  cases changes : Statement.execUnder barrier db (step.body.statementsFor db) with
  | error fault =>
      rw [changes] at failed
      cases failed
      exact ⟨fault, rfl⟩
  | ok changed =>
      rw [changes] at failed
      change ofEngine (Statement.execUnder barrier changed step.recordVersion) = _ at failed
      cases recording : Statement.execUnder barrier changed step.recordVersion with
      | error fault =>
          rw [recording] at failed
          cases failed
          exact ⟨fault, rfl⟩
      | ok after =>
          rw [recording] at failed
          cases failed

theorem Step.apply_of_failed {step : Step} {fault : Fault}
    (failed : Statement.execUnder barrier db (step.body.statementsFor db) = .error fault) :
    step.apply barrier db =
      .error ⟨.engine fault,
        [s!"Failed to migrate cache schema from {step.source} to {step.target}"]⟩ := by
  unfold Step.apply
  rw [failed]
  rfl

/-- There is a step from every version that a climb passes, so only the engine fails. -/
theorem fromEngine_of_climb {count version : Nat} (bounded : version + count ≤ currentVersion)
    {error : Error} (failed : (climb barrier steps count version db).outcome = .error error) :
    error.FromEngine := by
  induction count generalizing version db with
  | zero => cases failed
  | succ count ih =>
      obtain ⟨step, member, rfl⟩ := exists_step (show version < currentVersion by omega)
      cases applied : step.apply barrier db with
      | error stepError =>
          rw [climb_succ_of_error member applied] at failed
          cases failed
          exact Step.fromEngine_of_apply applied
      | ok changed =>
          rw [climb_succ_of_ok member applied] at failed
          exact ih (show step.source + 1 + count ≤ currentVersion by omega) failed

/-- A batch whose first statement fails, fails. -/
theorem exists_fault_of_exec (statement : Statement) {fault : Fault}
    (busy : statement.isIdle db = false) (failed : statement.exec db = .error fault)
    (rest : List Statement) :
    ∃ other, Statement.execUnder barrier db (statement :: rest) = .error other := by
  cases barrier with
  | none =>
      refine ⟨fault, ?_⟩
      rw [Statement.execUnder_none, Statement.execAll_cons, failed]
      rfl
  | some met =>
      refine ⟨if fault.isEarly then fault else met, ?_⟩
      simp [Statement.execUnder, Statement.execBarred, busy, failed]

/-- A column whose name is taken cannot be added. -/
theorem exists_fault_of_taken {name : String} {table : Table} (column : Column)
    (found : db.table? name = some table) (taken : (table.column? column.name).isSome) :
    ∃ fault, db.addColumn name column = .error fault := by
  cases added : db.addColumn name column with
  | error fault => exact ⟨fault, rfl⟩
  | ok after =>
      obtain ⟨other, writable, fresh, -⟩ := Database.addColumn_eq_ok_iff.mp added
      rw [(Database.writable_eq_ok_iff.mp writable).2] at found
      cases found
      rw [fresh] at taken
      cases taken

end Engine

/-! ## Reading the record -/

/-- The cell that a table of the version has for the version: that of the row whose ID is 1. -/
def record? (versions : Table) : Option Cell :=
  (versions.rows.find? isRecord).map fun row => (row.cells.lookup "version").getD .null

theorem recordedIn_eq (versions : Table) :
    recordedIn versions.rows =
      match record? versions with
      | some cell => versionOf cell
      | none => .error (.of .corruptSchema) := by
  unfold recordedIn record?
  cases versions.rows.find? isRecord <;> rfl

theorem record?_eq_none_iff {versions : Table} :
    record? versions = none ↔ ∀ row ∈ versions.rows, isRecord row = false := by
  simp [record?]

/-- Why a record of the version is refused, if it is. -/
def refusal? : Option Cell → Option Cause
  | none => some .corruptSchema
  | some (.integer version) =>
      if version.toInt < 0 ∨ greatestVersion < version.toInt then
        some (.cellRange 0 version.toInt)
      else if currentVersion < version.toInt then
        some (.futureSchema version.toInt.toNat currentVersion)
      else none
  | some cell => some (.cellKind 0 "version" cell.kind)

section Refusing

variable {record : Option Cell}

theorem refusal?_eq_corruptSchema_iff :
    refusal? record = some .corruptSchema ↔ record = none := by
  unfold refusal?
  split
  · simp
  · split_ifs <;> simp
  · simp

theorem refusal?_eq_cellRange_iff {place : Nat} {value : Int} :
    refusal? record = some (.cellRange place value) ↔
      place = 0 ∧ (value < 0 ∨ greatestVersion < value) ∧
        ∃ version, record = some (.integer version) ∧ version.toInt = value := by
  unfold refusal?
  split
  · simp
  · split_ifs <;> grind
  · simp_all

theorem refusal?_eq_cellKind_iff {place : Nat} {column : String} {kind : Cell.Kind} :
    refusal? record = some (.cellKind place column kind) ↔
      place = 0 ∧ column = "version" ∧ kind ≠ .integer ∧
        ∃ cell, record = some cell ∧ cell.kind = kind := by
  unfold refusal?
  split
  · simp
  · split_ifs <;> grind [Cell.kind]
  · rename_i cell other
    cases cell <;> grind [Cell.kind]

theorem refusal?_eq_futureSchema_iff {found current : Nat} :
    refusal? record = some (.futureSchema found current) ↔
      current = currentVersion ∧ currentVersion < found ∧ (found : Int) ≤ greatestVersion ∧
        ∃ version, record = some (.integer version) ∧ version.toInt = found := by
  unfold refusal?
  split
  · simp
  · split_ifs <;> grind
  · simp_all

end Refusing

section Setups

variable {barrier : Option Fault} {db : Database}

section Recorded

variable {versions : Table}

/-- A record is refused as it is read, or for the version that it is. -/
theorem recordedIn_of_refusal {cause : Cause} (refused : refusal? (record? versions) = some cause) :
    recordedIn versions.rows = .error (.of cause) ∨
      ∃ version, recordedIn versions.rows = .ok version ∧ currentVersion < version ∧
        cause = .futureSchema version currentVersion := by
  rw [recordedIn_eq]
  unfold refusal? at refused
  split at refused
  next missing =>
      cases refused
      exact .inl (by rw [missing])
  next version recorded =>
      rw [recorded]
      change versionOf (.integer version) = _ ∨ _
      unfold versionOf
      split_ifs at refused with outside newer
      · cases refused
        exact .inl (if_neg (by omega))
      · cases refused
        exact .inr ⟨_, if_pos (by omega), by omega, rfl⟩
  next cell other recorded =>
      cases refused
      rw [recorded]
      cases cell with
      | integer version => exact absurd rfl (other version)
      | _ => exact .inl rfl

/-- A record that is not refused is a version that is supported. -/
theorem recordedIn_of_accepted (accepted : refusal? (record? versions) = none) :
    ∃ version ≤ currentVersion, recordedIn versions.rows = .ok version := by
  rw [recordedIn_eq]
  unfold refusal? at accepted
  split at accepted
  · cases accepted
  next version recorded =>
      rw [recorded]
      split_ifs at accepted with outside newer
      exact ⟨_, by omega, if_pos (by omega)⟩
  · cases accepted

/-- A database whose record is refused is left alone. -/
theorem setupUnder_of_refusal (present : (db.tableNamed? messageTable).isSome)
    (stored : storedVersion db = recordedIn versions.rows) {cause : Cause}
    (refused : refusal? (record? versions) = some cause) :
    setupUnder barrier db = ⟨db, [], .error (.of cause)⟩ := by
  rcases recordedIn_of_refusal refused with unread | ⟨version, read, newer, rfl⟩
  · exact setupTo_of_error present (stored.trans unread)
  · exact setupTo_of_newer present (stored.trans read) newer

/-- Where the record is not refused only the engine fails, so a failure of another cause tells what
the record is. -/
theorem failsWith_iff (present : (db.tableNamed? messageTable).isSome)
    (stored : storedVersion db = recordedIn versions.rows) (cause : Cause)
    (other : ∀ fault, cause ≠ .engine fault) :
    (setupUnder barrier db).FailsWith cause ↔ refusal? (record? versions) = some cause := by
  constructor
  · rintro ⟨context, failed⟩
    cases decided : refusal? (record? versions) with
    | some refused =>
        rw [setupUnder_of_refusal present stored decided] at failed
        cases failed
        rfl
    | none =>
        obtain ⟨version, supported, read⟩ := recordedIn_of_accepted decided
        rw [setupUnder, setupTo_of_version present (stored.trans read) supported] at failed
        have bounded : version + (currentVersion - version) ≤ currentVersion := by omega
        obtain ⟨fault, same⟩ := fromEngine_of_climb bounded failed
        exact absurd same (other fault)
  · intro refused
    rw [setupUnder_of_refusal present stored refused]
    exact ⟨[], rfl⟩

end Recorded

/-- Reading the version does not say that a step is missing. -/
theorem storedVersion_known {error : Error} (failed : storedVersion db = .error error)
    (version : Nat) : error.cause ≠ .missingMigration version := by
  unfold storedVersion at failed
  split at failed
  · cases failed
  · generalize Query.run _ db = selected at failed
    cases selected with
    | error fault =>
        cases failed
        exact nofun
    | ok rows =>
        simp only [ofEngine_ok, bind, Except.bind] at failed
        split at failed
        · split at failed <;> cases failed
          exact nofun
        all_goals
          cases failed
          exact nofun

/-- No step is missing, whatever a database records. -/
theorem not_failsWith_missingMigration (present : (db.tableNamed? messageTable).isSome)
    (version : Nat) : ¬ (setupUnder barrier db).FailsWith (.missingMigration version) := by
  rintro ⟨context, failed⟩
  cases stored : storedVersion db with
  | error error =>
      rw [setupUnder, setupTo_of_error present stored] at failed
      cases failed
      exact storedVersion_known stored version rfl
  | ok recorded =>
      by_cases supported : recorded ≤ currentVersion
      · rw [setupUnder, setupTo_of_version present stored supported] at failed
        have bounded : recorded + (currentVersion - recorded) ≤ currentVersion := by omega
        obtain ⟨fault, ⟨⟩⟩ := fromEngine_of_climb bounded failed
      · rw [setupUnder, setupTo_of_newer present stored (Nat.lt_of_not_le supported)] at failed
        cases failed

/-- The first step adds a column that later layouts have. -/
theorem title_mem {layout : Nat} (positive : 1 ≤ layout) (supported : layout ≤ currentVersion) :
    text "title" ∈ layoutColumns layout := by
  have each : ∀ layout ≤ currentVersion, 1 ≤ layout → text "title" ∈ layoutColumns layout := by
    decide
  exact each layout supported positive

/-- The step from version 0, which adds the fields for display. -/
def display : Step :=
  ⟨0, .always (addColumns (addedAfter 0))⟩

theorem display_mem : display ∈ steps := by
  decide

/-- A table of a later layout is not taken for one of version 0. -/
theorem setupUnder_of_lost {layout : Nat} {table : Table} (positive : 1 ≤ layout)
    (supported : layout ≤ currentVersion) (found : db.table? messageTable = some table)
    (columns : (table.columns.map Column.bare).Perm ((layoutColumns layout).map Column.bare))
    (present : (db.tableNamed? messageTable).isSome) (stored : storedVersion db = .ok 0) :
    ∃ fault context,
      setupUnder barrier db = ⟨db, [display.notice], .error ⟨.engine fault, context⟩⟩ := by
  obtain ⟨own, foundColumn, -⟩ := Table.column?_of_perm columns (layoutColumns_distinct supported)
    (title_mem positive supported)
  obtain ⟨fault, taken⟩ := exists_fault_of_taken (withFallback (text "title")) found
    (Option.isSome_of_eq_some foundColumn)
  obtain ⟨other, failed⟩ : ∃ other,
      Statement.execUnder barrier db (display.body.statementsFor db) = .error other :=
    exists_fault_of_exec (.addColumn messageTable (withFallback (text "title"))) rfl taken _
  have climbed : climb barrier steps (currentVersion - 0) 0 db = _ :=
    climb_succ_of_error display_mem (Step.apply_of_failed failed)
  rw [setupUnder, setupTo_of_version present stored (Nat.zero_le _), climbed]
  exact ⟨other, _, rfl⟩

end Setups

/-! ## What the record decides -/

/-- How a setup of a database goes that has a table of the version: it fails for each of the causes
that are not of the engine exactly if the record is so, and then does nothing. -/
structure DecidedBy (versions : Table) (db : Database) (run : Run) : Prop where
  corrupt : run.FailsWith .corruptSchema ↔ ∀ row ∈ versions.rows, isRecord row = false
  range : ∀ place value, run.FailsWith (.cellRange place value) ↔
    place = 0 ∧ (value < 0 ∨ greatestVersion < value) ∧
      ∃ version, record? versions = some (.integer version) ∧ version.toInt = value
  kind : ∀ place column kind, run.FailsWith (.cellKind place column kind) ↔
    place = 0 ∧ column = "version" ∧ kind ≠ .integer ∧
      ∃ cell, record? versions = some cell ∧ cell.kind = kind
  future : ∀ found current, run.FailsWith (.futureSchema found current) ↔
    current = currentVersion ∧ currentVersion < found ∧ (found : Int) ≤ greatestVersion ∧
      ∃ version, record? versions = some (.integer version) ∧ version.toInt = found
  untouched : ∀ cause, (∀ fault, cause ≠ .engine fault) → run.FailsWith cause →
    run = ⟨db, [], .error (.of cause)⟩
  current : record? versions = some (versionCell currentVersion) → run = ⟨db, [], .ok ()⟩

theorem decidedBy_record {barrier : Option Fault} {db : Database} {versions : Table}
    (present : (db.tableNamed? messageTable).isSome)
    (stored : storedVersion db = recordedIn versions.rows) :
    DecidedBy versions db (setupUnder barrier db) where
  corrupt :=
    (failsWith_iff present stored .corruptSchema nofun).trans
      (refusal?_eq_corruptSchema_iff.trans record?_eq_none_iff)
  range place value :=
    (failsWith_iff present stored (.cellRange place value) nofun).trans refusal?_eq_cellRange_iff
  kind place column kind :=
    (failsWith_iff present stored (.cellKind place column kind) nofun).trans
      refusal?_eq_cellKind_iff
  future found current :=
    (failsWith_iff present stored (.futureSchema found current) nofun).trans
      refusal?_eq_futureSchema_iff
  untouched cause other failed :=
    setupUnder_of_refusal present stored ((failsWith_iff present stored cause other).mp failed)
  current recorded := by
    rw [recordedIn_eq, recorded] at stored
    have version := stored.trans (versionOf_versionCell (Nat.le_refl _))
    rw [setupUnder, setupTo_of_version present version (Nat.le_refl _), Nat.sub_self]
    rfl

/-- A setup of a database with a table of messages does what the record of the version says,
whatever fault its changes would meet: without a table of the version it climbs from version 0, and
with one it refuses every record that is not a version up to the current one.  There is no version
from which a step is missing, and a store of a later version that has lost the table of the version
is not taken for one of version 0. -/
theorem setup_decided_by_record (barrier : Option Fault) {db : Database} (apart : db.Apart)
    (present : (db.tableNamed? messageTable).isSome) :
    (db.tableNamed? versionTable = none →
      storedVersion db = .ok 0 ∧
        setupUnder barrier db = climb barrier steps currentVersion 0 db) ∧
    (∀ versions, db.tableNamed? versionTable = some versions → versions.columns = versionColumns →
      DecidedBy versions db (setupUnder barrier db)) ∧
    (∀ version, ¬ (setupUnder barrier db).FailsWith (.missingMigration version)) ∧
    ∀ table layout, db.tableNamed? messageTable = some table →
      1 ≤ layout → layout ≤ currentVersion →
      (table.columns.map Column.bare).Perm ((layoutColumns layout).map Column.bare) →
      db.tableNamed? versionTable = none →
        ∃ fault context,
          setupUnder barrier db = ⟨db, [display.notice], .error ⟨.engine fault, context⟩⟩ := by
  have unrecorded (missing : db.tableNamed? versionTable = none) : storedVersion db = .ok 0 := by
    simp [storedVersion, missing]
  refine ⟨fun missing => ⟨unrecorded missing, ?_⟩, fun versions found columns => ?_,
    not_failsWith_missingMigration present,
    fun table layout found positive supported columns missing => ?_⟩
  · exact setupTo_of_version present (unrecorded missing) (Nat.zero_le _)
  · obtain ⟨named, lookup⟩ := apart.table?_of_tableNamed? found
    have plain := plainVersions_of_found lookup named columns
    exact decidedBy_record present (storedVersion_of_some plain lookup)
  · obtain ⟨-, lookup⟩ := apart.table?_of_tableNamed? found
    exact setupUnder_of_lost positive supported lookup columns present (unrecorded missing)

/-- A current table of messages beside the record of a version to come, beside a record that is a
text, and alone. -/
theorem setup_decided_by_record_of_stores :
    let messages : Table := ⟨messageTable, messageColumns, [], rising⟩
    let recording (cell : Cell) : Database :=
      ⟨[messages, ⟨versionTable, versionColumns, [⟨1, [("id", .integer 1), ("version", cell)]⟩],
        .fromPresent⟩], [], []⟩
    let lost : Database := ⟨[messages], [], []⟩
    setup (recording (.integer 7)) =
        ⟨recording (.integer 7), [], .error (.of (.futureSchema 7 6))⟩ ∧
      setup (recording (.text "six")) =
        ⟨recording (.text "six"), [], .error (.of (.cellKind 0 "version" .text))⟩ ∧
      ∃ fault context, setup lost = ⟨lost, [display.notice], .error ⟨.engine fault, context⟩⟩ := by
  intro messages recording lost
  have apart (cell : Cell) : (recording cell).Apart := by
    change [messageTable, versionTable].Pairwise fun first second =>
      Relational.sameName first second = false
    decide
  have lostApart : lost.Apart := List.pairwise_singleton _ _
  have newer := (setup_decided_by_record none (apart (.integer 7)) rfl).2.1 _ rfl rfl
  have spelled := (setup_decided_by_record none (apart (.text "six")) rfl).2.1 _ rfl rfl
  obtain ⟨-, -, -, refused⟩ := setup_decided_by_record none lostApart rfl
  refine ⟨newer.untouched _ nofun ((newer.future 7 6).mpr ?_),
    spelled.untouched _ nofun ((spelled.kind 0 "version" .text).mpr ?_),
    refused messages 6 rfl (by decide) (by decide) (by decide) rfl⟩
  · exact ⟨rfl, by decide, by decide, 7, rfl, rfl⟩
  · exact ⟨rfl, rfl, nofun, .text "six", rfl, rfl⟩

end Schema

end MessageStore
