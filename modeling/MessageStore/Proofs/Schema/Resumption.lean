import MessageStore.Proofs.Schema.Ascent
import MessageStore.Schema.Earlier

/-!
# Migrations that stop and go on

A setup that fails stops exactly between two versions: the database that it
leaves is the one that the steps before the failing one make, and it records the
version of the failing step.  Therefore nothing is lost when a setup stops, on
purpose or by failing: a later setup takes up what is left, and both together
do what a single one would have done.

The table of the version is looked up in its exact spelling before it is read,
whereas statements find it in any.  A database whose table of the version has
another spelling records a version that is never read, and is no database of
these theorems.
-/

namespace MessageStore.Schema

open Relational (Affinity Database Table sameName)

/-- The layout that is expected of the table of the version, where there is one. -/
structure VersionLayout (db : Database) : Prop where
  columns : ∀ table, db.tableNamed? versionTable = some table → table.columns = versionColumns
  /-- No other table is found under the name of the table of the version. -/
  spelled : ∀ table ∈ db.tables, sameName table.name versionTable = true →
    table.name = versionTable

theorem VersionLayout.plain {db : Database} (layout : VersionLayout db) : PlainVersions db := by
  intro table found
  obtain ⟨member, same⟩ := Database.of_table? found
  have named := layout.spelled table member same
  refine ⟨named, layout.columns table ?_⟩
  rw [← Database.table?_eq_tableNamed? layout.spelled]
  exact found

/-! ## Setups that fail -/

/-- The steps from a version up to another are those from every version between, in order. -/
theorem stepsBetween_sources {source target : Nat} (ascending : source ≤ target)
    (bounded : target ≤ currentVersion) :
    (stepsBetween source target).map Step.source = List.range' source (target - source) := by
  have each : ∀ target ≤ currentVersion, ∀ source ≤ target,
      (stepsBetween source target).map Step.source = List.range' source (target - source) := by
    decide
  exact each target bounded source ascending

/-- A run from a version that failed at a step with an error, and stopped before this step. -/
structure Halted (source : Nat) (db : Database) (run : Run) (step : Step) (error : Error) :
    Prop where
  member : step ∈ steps
  lower : source ≤ step.source
  /-- What is left is what the steps before make. -/
  chain : ascend source step.source db = .ok run.db
  recorded : storedVersion run.db = .ok step.source
  untouched : step.source = source → run.db = db
  failed : step.apply none run.db = .error error
  notices : run.log.filter isNotice = (stepsBetween source step.target).map Step.notice
  inOrder : (stepsBetween source step.target).map Step.source =
    List.range' source (step.target - source)
  /-- Another setup fails likewise. -/
  again : setup run.db = ⟨run.db, step.log run.db, .error error⟩

/-- A setup that fails stops between two versions. -/
theorem setup_halted {version : Nat} {db : Database} {error : Error}
    (present : (db.tableNamed? messageTable).isSome) (layout : VersionLayout db)
    (stored : storedVersion db = .ok version) (supported : version ≤ currentVersion)
    (failed : (setup db).outcome = .error error) :
    ∃ step, Halted version db (setup db) step error := by
  have standing : Standing version db :=
    ⟨tableNamed?_isSome_iff.mp present, layout.plain, stored⟩
  obtain ⟨reachedVersion, reached⟩ := setupTo_reached standing supported (Nat.le_refl _)
  change Reached version currentVersion reachedVersion db (setup db) at reached
  rcases reached.stop with ⟨_, succeeded, _⟩ |
    ⟨short, step, member, rfl, other, stepFailed, outcome, notices⟩
  · rw [succeeded] at failed
    cases failed
  · rw [outcome] at failed
    cases failed
    have ascending : version ≤ step.target := Nat.le_succ_of_le reached.lower
    have untouched : step.source = version → (setup db).db = db := by
      intro same
      have chain := reached.chain
      rw [same, ascend_self] at chain
      exact (Except.ok.inj chain).symm
    exact ⟨step,
      { member
        lower := reached.lower
        chain := reached.chain
        recorded := reached.standing.stored
        untouched
        failed := stepFailed
        notices
        inOrder := stepsBetween_sources ascending (target_le member)
        again := setupTo_of_failing reached.standing member short stepFailed }⟩

/-- A database of version 3 whose table of messages lacks a column that the rebuild copies. -/
def lacking : Database :=
  { tables :=
      [⟨messageTable, keyColumn 3 :: (dataColumns 3).filter fun column => column.name ≠ "published",
        [⟨1, [("id", .text "a"), ("time", .integer 7), ("topic", .text "t")]⟩], .fromPresent⟩,
        ⟨versionTable, versionColumns, [recordRow 3 1], .fromPresent⟩]
    views := []
    indexes := [⟨"idx_topic", messageTable⟩] }

theorem versionLayout_lacking : VersionLayout lacking := by
  refine ⟨?_, by decide⟩
  intro table found
  cases found
  rfl

/-- The setup of a table without the column `published` stops at version 4. -/
theorem setup_lacking_halted :
    ∃ step, Halted 3 lacking (setup lacking) step
      ⟨.engine (.noSuchColumn "published"), ["Failed to migrate cache schema from 4 to 5"]⟩ :=
  setup_halted (by decide) versionLayout_lacking rfl (by decide) rfl

/-- A table that is found under the name of the version, but not in its spelling. -/
def capitalVersions (affinity : Affinity) : Table :=
  { name := "SCHEMAVERSION"
    columns :=
      [{ name := "id", affinity, key := .unique }, { name := "version", affinity, notNull := true }]
    rows := []
    numbering := .fromPresent }

/-- A table of messages without the columns of any version, and a table of the version in another
spelling. -/
def misspelled : Database :=
  { tables :=
      [capitalVersions .integer,
        ⟨messageTable, [{ name := "x", affinity := .integer }], [], .fromPresent⟩]
    views := []
    indexes := [] }

/-- Where the table of the version has another spelling, the next setup fails at another step. -/
theorem setup_misspelled :
    misspelled.tableNamed? versionTable = none ∧
      (setup misspelled).outcome = .error
        ⟨.engine (.noSuchColumn "id"), ["Failed to migrate cache schema from 4 to 5"]⟩ ∧
      storedVersion (setup misspelled).db = .ok 0 ∧
      (setup (setup misspelled).db).outcome = .error
        ⟨.engine (.duplicateColumn "title"), ["Failed to migrate cache schema from 0 to 1"]⟩ :=
  ⟨rfl, rfl, rfl, rfl⟩

/-! ## Setups in several runs -/

/-- A setup goes on after its first step as a setup of what this step leaves. -/
theorem setupTo_after_step {step : Step} {target : Nat} {db next : Database}
    (standing : Standing step.source db) (member : step ∈ steps) (climbs : step.source < target)
    (done : step.apply none db = .ok next) :
    setupTo none steps target db =
      { setupTo none steps target next with
        log := step.log db ++ (setupTo none steps target next).log } := by
  obtain ⟨count, rfl⟩ := Nat.exists_eq_add_of_lt climbs
  have onward : step.target ≤ step.source + count + 1 := by
    unfold Step.target
    omega
  rw [setupTo_of_standing standing (Nat.le_of_lt climbs),
    setupTo_of_standing (standing.step member done) onward,
    show step.source + count + 1 - step.source = count + 1 by omega,
    show step.source + count + 1 - step.target = count by unfold Step.target; omega]
  exact climb_succ_of_ok member done

/-- A setup of a database does the same as one of a database that is on the way. -/
theorem setupTo_of_ascent {version count target : Nat} {db next : Database}
    (standing : Standing version db) (ascent : ascend version (version + count) db = .ok next)
    (below : version + count ≤ target) (bounded : target ≤ currentVersion) :
    (setupTo none steps target db).db = (setupTo none steps target next).db ∧
      (setupTo none steps target db).outcome = (setupTo none steps target next).outcome := by
  -- The first step is split off the setup and the ascent alike; the setups differ in their logs.
  induction count generalizing version db with
  | zero =>
      rw [Nat.add_zero, ascend_self] at ascent
      rw [Except.ok.inj ascent]
      exact ⟨rfl, rfl⟩
  | succ count ih =>
      obtain ⟨step, member, rfl⟩ := exists_step (show version < currentVersion by omega)
      rw [ascend_eq_bind member (by omega)] at ascent
      obtain ⟨middle, done, ascent⟩ := bind_eq_ok_iff.mp ascent
      rw [show step.source + (count + 1) = step.target + count by unfold Step.target; omega]
        at ascent below
      have climbs : step.source < target := by
        unfold Step.target at below
        omega
      rw [setupTo_after_step standing member climbs done]
      exact ih (standing.step member done) ascent below

/-- Setups converge: one that stops at a version on the way, wherever it has come to, and another
one do together what a single one does; and a setup that has succeeded leaves nothing to do. -/
theorem setup_converges {db : Database} (layout : VersionLayout db) :
    (∀ version target, (db.tableNamed? messageTable).isSome → storedVersion db = .ok version →
      version ≤ target → target ≤ currentVersion →
        (setup (setupTo none steps target db).db).db = (setup db).db ∧
          (setup (setupTo none steps target db).db).outcome = (setup db).outcome) ∧
    ((setup db).outcome = .ok () → setup (setup db).db = ⟨(setup db).db, [], .ok ()⟩) := by
  constructor
  · intro version target present stored reachable supported
    have standing : Standing version db :=
      ⟨tableNamed?_isSome_iff.mp present, layout.plain, stored⟩
    obtain ⟨stop, reached⟩ := setupTo_reached standing reachable supported
    have within : stop ≤ currentVersion := by
      rcases reached.stop with ⟨rfl, _⟩ | ⟨short, _⟩ <;> omega
    obtain ⟨count, rfl⟩ := Nat.exists_eq_add_of_le reached.lower
    have single := setupTo_of_ascent standing reached.chain within (Nat.le_refl _)
    exact ⟨single.1.symm, single.2.symm⟩
  · intro succeeded
    exact setup_of_current (standing_of_setup_ok layout.plain succeeded)

/-- A table of version 0 with two messages. -/
def earlyTable : Table :=
  { name := messageTable
    columns := keyColumn 0 :: dataColumns 0
    rows :=
      [⟨3, [("id", .text "z"), ("time", .integer 9), ("topic", .text "t"),
          ("message", .text "1")]⟩,
        ⟨8, [("id", .text "a"), ("time", .integer 7), ("topic", .text "t"),
          ("message", .text "2")]⟩]
    numbering := .fromPresent }

/-- A database of version 0 with two messages. -/
def early : Database :=
  ⟨[earlyTable], [], [⟨"idx_topic", messageTable⟩]⟩

theorem versionLayout_early : VersionLayout early := by
  refine ⟨?_, by decide⟩
  intro table found
  cases found

/-- Two setups of a table without the column `published`, and one after another of a table of
version 0. -/
theorem setup_converges_instances :
    ((setup (setupTo none steps 4 lacking).db).db = (setup lacking).db ∧
      (setup (setupTo none steps 4 lacking).db).outcome = (setup lacking).outcome) ∧
    setup (setup early).db = ⟨(setup early).db, [], .ok ()⟩ :=
  ⟨(setup_converges versionLayout_lacking).1 3 4 (by decide) rfl (by decide) (by decide),
    (setup_converges versionLayout_early).2 rfl⟩

/-- Where the table of the version has another spelling, a setup that has succeeded is repeated,
and fails, whether the first one brought a table of messages to the current version or made it. -/
theorem setup_misspelled_again :
    let old : Database := { early with tables := capitalVersions .integer :: early.tables }
    let new : Database := { tables := [capitalVersions .text], views := [], indexes := [] }
    (old.tableNamed? versionTable = none ∧ (setup old).outcome = .ok () ∧
      (setup (setup old).db).outcome = .error
        ⟨.engine (.duplicateColumn "title"), ["Failed to migrate cache schema from 0 to 1"]⟩) ∧
    (new.tableNamed? versionTable = none ∧ (setup new).outcome = .ok () ∧
      (setup (setup new).db).outcome = .error
        ⟨.engine (.duplicateColumn "title"), ["Failed to migrate cache schema from 0 to 1"]⟩) :=
  ⟨⟨rfl, rfl, rfl⟩, rfl, rfl, rfl⟩

end MessageStore.Schema
