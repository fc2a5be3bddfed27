import MessageStore.Error
import MessageStore.Log
import MessageStore.Schema.Layout

/-!
# Migrations

Bringing a database to the current version of the schema.  A database without
version table is of version 0.  Each step leads exactly one version up and is
one transaction with the record of its version, so that a step that fails
leaves the database at the version before it.  Where changes meet a barrier, the
first change fails, and a database of the current version needs none.
-/

namespace MessageStore.Schema

open Relational (Cell Column Database Fault Query Statement)

/-- A text column that older rows get with the empty text. -/
def addedText (name : String) : Column :=
  { text name with fallback := .text "" }

/-- An integer column that older rows get with the given value. -/
def addedInteger (name : String) (fallback : Int64) : Column :=
  { integer name with fallback := .integer fallback }

/-- What a step does to the tables. -/
inductive Body
  | always (statements : List Statement)
  /-- Nothing is done if the table has a column of exactly this name. -/
  | unlessColumn (table column : String) (statements : List Statement)
  deriving DecidableEq

/-- A step from a version to the next. -/
structure Step where
  source : Nat
  body : Body
  deriving DecidableEq

/-- Add columns to the table of messages. -/
def addColumns (columns : List Column) : List Statement :=
  columns.map (.addColumn messageTable)

/-- The columns that the rebuilt table of version 5 takes over from the columns of the same
names. -/
def keptColumns : List Column :=
  integer "time" :: contentColumns

/-- Rebuild the table of messages with row positions.  The ID moves to a column of its own. -/
def rebuild : List Statement :=
  let new := "messages_new"
  [.createTable new (position :: text "mid" :: keptColumns) rising false,
    .copyRows new (("mid", "id") :: keptColumns.map fun column => (column.name, column.name))
      messageTable,
    .dropTable messageTable,
    .renameTable new messageTable] ++ createIndexes

/-- The steps from every version to the next. -/
def steps : List Step :=
  [ -- Fields for display.
    ⟨0, .always (addColumns [addedText "title", addedInteger "priority" 0, addedText "tags"])⟩,
    -- Scheduled delivery; what was stored before has been delivered.
    ⟨1, .always (addColumns [addedInteger "published" 1])⟩,
    -- Click actions and attachments.
    ⟨2, .always (addColumns
      [addedText "click", addedText "attachment_name", addedText "attachment_type",
        addedInteger "attachment_size" 0, addedInteger "attachment_expires" 0,
        addedText "attachment_owner", addedText "attachment_url"])⟩,
    -- The encoding of bodies.
    ⟨3, .always (addColumns [addedText "encoding"])⟩,
    ⟨4, .always rebuild⟩,
    -- The time of the last modification, at first the time of delivery.
    ⟨5, .unlessColumn messageTable "updated"
      (addColumns [addedInteger "updated" 0] ++
        [.update messageTable [("updated", .column "time")] none])⟩]

/-- Whether a table has a column whose name is spelled exactly so. -/
def hasColumn (db : Database) (table column : String) : Bool :=
  (db.table? table).any fun table => table.columns.any fun other => other.name == column

/-- The statements that a step needs for a database. -/
def Body.statementsFor (db : Database) : Body → List Statement
  | always statements => statements
  | unlessColumn table column statements => if hasColumn db table column then [] else statements

/-- What a step reports about a database that needs nothing done. -/
def Body.notesFor (db : Database) : Body → List Log.Record
  | always _ => []
  | unlessColumn table column _ =>
      if hasColumn db table column then
        [⟨.debug, Log.migrate, s!"Column {table}.{column} already present"⟩]
      else []

namespace Step

/-- The version that a step leads to. -/
def target (step : Step) : Nat :=
  step.source + 1

/-- The report that a step begins. -/
def notice (step : Step) : Log.Record :=
  ⟨.info, Log.migrate,
    s!"Migrating cache database schema: from {step.source} to {step.target}"⟩

/-- The record of the version that a step leads to. -/
def recordVersion (step : Step) : List Statement :=
  if step.source = 0 then [createVersions, insertVersion step.target]
  else [updateVersion step.target]

/-- What a step reports. -/
def log (step : Step) (db : Database) : List Log.Record :=
  step.notice :: step.body.notesFor db

/-- The database after a step. -/
def apply (barrier : Option Fault) (step : Step) (db : Database) : Except Error Database := do
  let changed ←
    during s!"Failed to migrate cache schema from {step.source} to {step.target}"
      (ofEngine (Statement.execUnder barrier db (step.body.statementsFor db)))
  ofEngine (Statement.execUnder barrier changed step.recordVersion)

end Step

/-- How a setup went: the database it leaves, what it reported, and whether it succeeded. -/
structure Run where
  db : Database
  log : List Log.Record
  outcome : Except Error Unit

/-- Take a number of steps up from a version. -/
def climb (barrier : Option Fault) (steps : List Step) : (count version : Nat) → Database → Run
  | 0, _, db => ⟨db, [], .ok ()⟩
  | count + 1, version, db =>
      match steps.find? fun step => step.source == version with
      | none => ⟨db, [], .error (.of (.missingMigration version))⟩
      | some step =>
          match step.apply barrier db with
          | .error error => ⟨db, step.log db, .error error⟩
          | .ok changed =>
              let rest := climb barrier steps count (version + 1) changed
              { rest with log := step.log db ++ rest.log }

/-- The greatest number that a version can be. -/
def greatestVersion : Int := 4294967295

/-- The version that a database records. -/
def storedVersion (db : Database) : Except Error Nat :=
  if (db.tableNamed? versionTable).isNone then .ok 0
  else do
    let found ← ofEngine <| Query.run
      { table := versionTable
        columns := ["version"]
        condition := some (.compare "id" .equal (.integer 1)) } db
    match found with
    | [(_, .integer version)] :: _ =>
        if 0 ≤ version.toInt ∧ version.toInt ≤ greatestVersion then return version.toInt.toNat
        else throw (.of (.cellRange 0 version.toInt))
    | [(name, cell)] :: _ => throw (.of (.cellKind 0 name cell.kind))
    | _ => throw (.of .corruptSchema)

/-- Bring a database to a version with the given steps.

A database without a table that is named exactly `messages` is built anew. -/
def setupTo (barrier : Option Fault) (steps : List Step) (target : Nat) (db : Database) : Run :=
  if (db.tableNamed? messageTable).isNone then
    let log : List Log.Record :=
      [⟨.debug, Log.migrate, s!"Creating cache database schema at version {target}"⟩]
    match Statement.execUnder barrier db (createFresh target) with
    | .error fault => ⟨db, log, .error (.of (.engine fault))⟩
    | .ok fresh => ⟨fresh, log, .ok ()⟩
  else
    match storedVersion db with
    | .error error => ⟨db, [], .error error⟩
    | .ok version =>
        if target < version then ⟨db, [], .error (.of (.futureSchema version target))⟩
        else climb barrier steps (target - version) version db

/-- Bring a database to the current version where changes meet the given fault, if any. -/
def setupUnder (barrier : Option Fault) (db : Database) : Run :=
  setupTo barrier steps currentVersion db

/-- Bring a database to the current version. -/
def setup (db : Database) : Run :=
  setupUnder none db

end MessageStore.Schema
