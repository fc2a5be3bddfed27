import MessageStore.Error
import MessageStore.Message.Basic
import MessageStore.Message.Tags
import MessageStore.Relational.Query

/-!
# Messages as rows

How a message is laid out in the columns of its table, and how it is read from
a row.  Reading looks at the columns in a fixed order and fails at the first
cell that has the wrong class or is out of range.  An attachment without name or
URL is no attachment, and its other columns are then not looked at.
-/

namespace MessageStore.Store

open Relational (Cell Selected)

/-- The columns that a message is read from, in the order of results. -/
def readColumns : List String :=
  ["mid", "time", "updated", "topic", "message", "title", "priority", "tags", "click",
    "attachment_name", "attachment_type", "attachment_size", "attachment_expires",
    "attachment_url", "attachment_owner", "encoding"]

/-- An unsigned 8-bit integer as a cell. -/
def priorityCell (priority : UInt8) : Cell :=
  .integer (Int64.ofNat priority.toNat)

/-- The cells of a new row for a message. -/
def newRow (message : Message) (published : Bool) : List (String × Cell) :=
  let attachment := message.attachment.getD .absent
  [("mid", .text message.id),
    ("time", .integer message.time),
    ("updated", .integer message.updated),
    ("topic", .text message.topic),
    ("message", .text message.body),
    ("title", .text message.title),
    ("priority", priorityCell message.priority),
    ("tags", .text (Tags.join message.tags)),
    ("click", .text message.click),
    ("attachment_name", .text attachment.name),
    ("attachment_type", .text attachment.type),
    ("attachment_size", .integer attachment.size),
    ("attachment_expires", .integer attachment.expires),
    ("attachment_url", .text attachment.url),
    ("attachment_owner", .text attachment.owner),
    ("encoding", .text message.encoding),
    ("published", Cell.ofBool published)]

/-- The cells that an update replaces. -/
def editedCells (message : Message) : List (String × Cell) :=
  [("updated", .integer message.updated),
    ("message", .text message.body),
    ("title", .text message.title),
    ("priority", priorityCell message.priority),
    ("tags", .text (Tags.join message.tags)),
    ("click", .text message.click)]

/-- The cell at a place of a result, with the name of its column. -/
def cellAt (row : Selected) (place : Nat) : String × Cell :=
  row[place]?.getD ("", .null)

/-- The error of a cell that has the wrong class. -/
def wrongKind (row : Selected) (place : Nat) : Error :=
  .of (.cellKind place (cellAt row place).1 (cellAt row place).2.kind)

/-- The text at a place of a result. -/
def textAt (row : Selected) (place : Nat) : Except Error String :=
  match (cellAt row place).2 with
  | .text value => .ok value
  | _ => .error (wrongKind row place)

/-- The integer at a place of a result. -/
def integerAt (row : Selected) (place : Nat) : Except Error Int64 :=
  match (cellAt row place).2 with
  | .integer value => .ok value
  | _ => .error (wrongKind row place)

/-- The unsigned 8-bit integer at a place of a result. -/
def priorityAt (row : Selected) (place : Nat) : Except Error UInt8 := do
  let value ← integerAt row place
  if 0 ≤ value.toInt ∧ value.toInt ≤ 255 then return UInt8.ofNat value.toInt.toNat
  else throw (.of (.cellRange place value.toInt))

/-- The attachment in a row, whose name and URL have been read. -/
def readAttachment (row : Selected) (name url : String) : Except Error (Option Attachment) :=
  if name ≠ "" ∧ url ≠ "" then do
    let type ← textAt row 10
    let size ← integerAt row 11
    let expires ← integerAt row 12
    let owner ← textAt row 14
    return some { name, type, size, expires, url, owner }
  else .ok none

/-- The message in a row. -/
def readMessage (row : Selected) : Except Error Message := do
  let tags ← textAt row 7
  let name ← textAt row 9
  let url ← textAt row 13
  let attachment ← readAttachment row name url
  let id ← textAt row 0
  let time ← integerAt row 1
  let updated ← integerAt row 2
  let topic ← textAt row 3
  let body ← textAt row 4
  let title ← textAt row 5
  let priority ← priorityAt row 6
  let click ← textAt row 8
  let encoding ← textAt row 15
  return {
    id, time, updated, event := .message, topic, body, title, priority
    tags := Tags.split tags
    click, attachment, encoding }

end MessageStore.Store
