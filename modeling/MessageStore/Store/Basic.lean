import MessageStore.Relational.Total
import MessageStore.Schema.Layout
import MessageStore.Store.Replay
import MessageStore.Store.Row
import MessageStore.Topic

/-!
# The store

What can be done with the messages in a database: adding and updating them,
replaying a topic, looking one up, publishing what is due, counting, pruning,
and accounting for attachments.  What changes the database either does all it
should or fails.
-/

namespace MessageStore.Store

open Relational (Cell Condition Database Query Total)

/-- The order of replays: by time, then by position. -/
def replayOrder : List String :=
  ["time", "id"]

/-- The rows of one message. -/
def ofMessage (topic id : String) : Condition :=
  .both (.compare "topic" .equal (.text topic)) (.compare "mid" .equal (.text id))

/-- Only messages can be stored. -/
def requireMessage (message : Message) : Except Error Unit :=
  if message.event = .message then .ok () else .error (.of (.unexpectedEvent message.event))

/-- The messages in the rows that meet a condition, in the order of replays. -/
def select (db : Database) (condition : Condition) (limit : Option Nat) :
    Except Error (List Message) := do
  let rows ← ofEngine <| Query.run
    { table := Schema.messageTable
      columns := readColumns
      condition := some condition
      orderBy := replayOrder
      limit } db
  rows.mapM readMessage

/-- Add a message.  It is published if it is due. -/
def add (now : Instant) (message : Message) (db : Database) : Except Error Database := do
  requireMessage message
  ofEngine (db.insert Schema.messageTable (newRow message (message.isDue now.seconds)))

/-- Replace the editable part of a message.  That there is no such message is no error. -/
def update (message : Message) (db : Database) : Except Error Database := do
  requireMessage message
  ofEngine <| db.update Schema.messageTable
    ((editedCells message).map fun (name, cell) => (name, .cell cell))
    (some (ofMessage message.topic message.id))

/-- The position of the first row of a message. -/
def position? (db : Database) (topic id : String) : Except Error (Option Int64) := do
  let rows ← ofEngine <| Query.run
    { table := Schema.messageTable
      columns := ["id"]
      condition := some (ofMessage topic id)
      orderBy := ["id"]
      limit := some 1 } db
  match rows with
  | [] => return none
  | row :: _ => return some (← integerAt row 0)

/-- The messages of a topic that a marker wants. -/
def messages (topic : String) (since : Since) (scheduled : Bool) (db : Database) :
    Except Error (List Message) := do
  let replay ← Replay.resolve since scheduled (position? db topic)
  match replay.condition? topic with
  | none => return []
  | some condition => select db condition none

/-- The first message with the given ID in a topic. -/
def message (topic id : String) (db : Database) : Except Error Message := do
  match ← select db (ofMessage topic id) (some 1) with
  | [] => throw (.of (.messageNotFound topic id))
  | message :: _ => return message

/-- The messages that are due and not published. -/
def due (now : Instant) (db : Database) : Except Error (List Message) :=
  select db (.both (.compare "time" .atMost (secondCell now.seconds)) Replay.unpublished) none

/-- Mark every row with the ID of a message as published, whatever its topic. -/
def markPublished (message : Message) (db : Database) : Except Error Database :=
  ofEngine <| db.update Schema.messageTable [("published", .cell (.integer 1))]
    (some (.compare "mid" .equal (.text message.id)))

/-- How many messages a topic has. -/
def count (topic : String) (db : Database) : Except Error Nat := do
  let rows ← ofEngine <| Query.run
    { table := Schema.messageTable
      columns := []
      condition := some (.compare "topic" .equal (.text topic)) } db
  return rows.length

/-- Whether two results hold the same cells. -/
def sameCells (first second : Relational.Selected) : Bool :=
  Cell.orderKeys (first.map Prod.snd) (second.map Prod.snd) == .eq

/-- The topics that have messages, in order. -/
def topics (db : Database) : Except Error (List Topic) := do
  let rows ← ofEngine <| Query.run
    { table := Schema.messageTable, columns := ["topic"], orderBy := ["topic"] } db
  (withoutRepeats sameCells rows).mapM fun row => return ⟨← textAt row 0⟩

/-- Delete the published messages whose time is before an instant.  Returns how many there
were as well. -/
def prune (cutoff : Instant) (db : Database) : Except Error (Database × Nat) :=
  ofEngine <| db.delete Schema.messageTable
    (.both (.compare "time" .less (secondCell cutoff.seconds)) Replay.published)

/-- The name of the sum of sizes in a result. -/
def sizeName : String := "IFNULL(SUM(attachment_size), 0)"

/-- The size of an owner's attachments that have not expired; an undefined sum counts as zero. -/
def attachmentsSize (owner : String) (now : Instant) (db : Database) : Except Error Int64 := do
  let rows ← ofEngine <| Query.run
    { table := Schema.messageTable
      columns := ["attachment_size"]
      condition := some (.both (.compare "attachment_owner" .equal (.text owner))
        (.compare "attachment_expires" .atLeast (secondCell now.seconds))) } db
  match ← ofEngine (Total.ofCells (rows.map fun row => (cellAt row 0).2)) with
  | .integer sum => return sum
  | .undefined => return 0
  | .real => throw (.of (.cellKind 0 sizeName .real))

/-- The IDs of the messages whose attachment has expired; 0 stands for never. -/
def attachmentsExpired (now : Instant) (db : Database) : Except Error (List String) := do
  let rows ← ofEngine <| Query.run
    { table := Schema.messageTable
      columns := ["mid"]
      condition := some (.both (.compare "attachment_expires" .greater (.integer 0))
        (.compare "attachment_expires" .less (secondCell now.seconds))) } db
  rows.mapM fun row => textAt row 0

end MessageStore.Store
