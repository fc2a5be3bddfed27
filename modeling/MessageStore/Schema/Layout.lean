import MessageStore.Relational.Statement

/-!
# Layouts of the schema

The tables of a current database: one of messages, and one with a single row
that records the version of the schema.  A column holds text or integers; the
position of a message's row never returns.
-/

namespace MessageStore.Schema

open Relational (Cell Column Numbering Statement)

/-- The version of the schema that is written. -/
def currentVersion : Nat := 6

/-- The name of the table of messages. -/
def messageTable : String := "messages"

/-- The name of the table of the version. -/
def versionTable : String := "schemaVersion"

/-- A text column that may not be null. -/
def text (name : String) : Column :=
  { name, affinity := .text, notNull := true }

/-- An integer column that may not be null. -/
def integer (name : String) : Column :=
  { name, affinity := .integer, notNull := true }

/-- The column of row positions. -/
def position : Column :=
  { name := "id", affinity := .integer, key := .position }

/-- The columns that hold the content of a message, from its topic on. -/
def contentColumns : List Column :=
  [text "topic", text "message", text "title", integer "priority", text "tags", text "click",
    text "attachment_name", text "attachment_type", integer "attachment_size",
    integer "attachment_expires", text "attachment_url", text "attachment_owner",
    text "encoding", integer "published"]

/-- The columns of the table of messages in a new database. -/
def messageColumns : List Column :=
  [position, text "mid", integer "time", integer "updated"] ++ contentColumns

/-- The columns of the table of the version. -/
def versionColumns : List Column :=
  [{ name := "id", affinity := .integer, key := .unique }, integer "version"]

/-- Row positions of the table of messages never return. -/
def rising : Numbering :=
  .fromLargest none

/-- Create the indexes of the table of messages. -/
def createIndexes : List Statement :=
  [.createIndex "idx_mid" messageTable, .createIndex "idx_topic" messageTable]

/-- Create the table of the version where there is none. -/
def createVersions : Statement :=
  .createTable versionTable versionColumns .fromPresent true

/-- A version as a cell. -/
def versionCell (version : Nat) : Cell :=
  .integer (Int64.ofNat version)

/-- Record the version for the first time. -/
def insertVersion (version : Nat) : Statement :=
  .insert versionTable [("id", .integer 1), ("version", versionCell version)]

/-- Record another version. -/
def updateVersion (version : Nat) : Statement :=
  .update versionTable [("version", .cell (versionCell version))]
    (some (.compare "id" .equal (.integer 1)))

/-- Build a new database of the given version. -/
def createFresh (version : Nat) : List Statement :=
  .createTable messageTable messageColumns rising false :: createIndexes ++
    [createVersions, insertVersion version]

end MessageStore.Schema
