import MessageStore.Schema.Layout

/-!
# Databases of earlier versions

The layouts that the table of messages had in every version, and databases
built in such a layout, whole or damaged: with columns left out or added, with
other tables in the way, and with any record of the version.
-/

namespace MessageStore.Schema

open Relational (Cell Column Database Fault Numbering)

/-- A column with the cell that rows get when they are not given one.  A row is taken to be
published. -/
def withFallback (column : Column) : Column :=
  { column with
    fallback :=
      match column.affinity with
      | .integer => .integer (if column.name = "published" then 1 else 0)
      | .text => .text "" }

/-- The columns of the table of messages that came with a version below 5. -/
def addedIn : Nat → List Column
  | 0 => [integer "time", text "topic", text "message"]
  | 1 => [text "title", integer "priority", text "tags"]
  | 2 => [integer "published"]
  | 3 =>
      [text "click", text "attachment_name", text "attachment_type", integer "attachment_size",
        integer "attachment_expires", text "attachment_owner", text "attachment_url"]
  | 4 => [text "encoding"]
  | _ => []

/-- The key column of the table of messages in a version. -/
def keyColumn (version : Nat) : Column :=
  if version < 5 then { name := "id", affinity := .text, key := .unique } else position

/-- The other columns of the table of messages in a version. -/
def dataColumns (version : Nat) : List Column :=
  if version < 5 then (List.range (version + 1)).flatMap addedIn
  else
    [text "mid", integer "time"] ++ (if version = 5 then [] else [integer "updated"]) ++
      contentColumns

/-- How rows were numbered in a version. -/
def numberingIn (version : Nat) : Numbering :=
  if version < 5 then .fromPresent else rising

/-- A database to be built. -/
structure Earlier where
  /-- The version whose layout the table of messages has, if there is one. -/
  layout : Option Nat := none
  /-- The name of the table of messages. -/
  table : String := messageTable
  /-- Columns that are left out. -/
  without : List String := []
  /-- Text columns that are added at the end. -/
  extra : List String := []
  nullable : Bool := false
  indexed : Bool := true
  rows : List (List (String × Cell)) := []
  /-- The rows of the table of versions, if there is one. -/
  versions : Option (List (Cell × Cell)) := none
  /-- Other tables. -/
  tables : List String := []
  views : List String := []

namespace Earlier

/-- The columns of the table of messages. -/
def columns (earlier : Earlier) (version : Nat) : List Column :=
  let kept := (dataColumns version).filter fun column => column.name ∉ earlier.without
  keyColumn version ::
    (kept ++ earlier.extra.map text).map fun column =>
      { withFallback column with notNull := !earlier.nullable }

/-- The position that a row is given, and its cells.

The name `rowid` stands for the position, and so does the key where it shows positions. -/
def splitRow (version : Nat) (row : List (String × Cell)) :
    Option Int64 × List (String × Cell) :=
  let isPosition := fun name => name = "rowid" ∨ (5 ≤ version ∧ name = "id")
  let position? :=
    match row.find? fun (name, _) => isPosition name with
    | some (_, .integer position) => some position
    | _ => none
  (position?, row.filter fun (name, _) => ¬ isPosition name)

/-- Add the table of messages and its rows. -/
def addMessages (earlier : Earlier) (version : Nat) (db : Database) : Except Fault Database := do
  let mut db ←
    db.createTable earlier.table (earlier.columns version) (numberingIn version) false
  if earlier.indexed then
    db ← db.createIndex "idx_topic" earlier.table
    if 5 ≤ version then
      db ← db.createIndex "idx_mid" earlier.table
  earlier.rows.foldlM (fun db row =>
    let (position?, cells) := splitRow version row
    db.insertAt earlier.table position? cells) db

/-- Add the table of versions and its rows. -/
def addVersions (rows : List (Cell × Cell)) (db : Database) : Except Fault Database := do
  let columns := versionColumns.map fun column => { column with notNull := false }
  let db ← db.createTable versionTable columns .fromPresent false
  rows.foldlM (fun db (id, version) => db.insert versionTable [("id", id), ("version", version)]) db

/-- Add everything to a database. -/
def addTo (earlier : Earlier) (db : Database) : Except Fault Database := do
  let db ←
    match earlier.layout with
    | some version => earlier.addMessages version db
    | none => pure db
  let db ←
    match earlier.versions with
    | some rows => addVersions rows db
    | none => pure db
  let db ← earlier.tables.foldlM (fun (db : Database) name =>
    db.createTable name [{ name := "x", affinity := .integer }] .fromPresent false) db
  return { db with views := db.views ++ earlier.views }

end Earlier

end MessageStore.Schema
