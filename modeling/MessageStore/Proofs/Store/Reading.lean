import MessageStore.Proofs.Outcome
import MessageStore.Store.Basic

/-!
# Messages that are read back

What the rows of messages say, by the names of their cells, and which message is
read from the row that one was written to.  It is the same message, except for
its tags, which come back as the pieces of the text that holds them all, and for
an attachment without name or URL, which does not come back.
-/

namespace MessageStore

/-- Whether an attachment is read back once it has been stored. -/
def Attachment.isUsable (attachment : Attachment) : Bool :=
  attachment.name ≠ "" ∧ attachment.url ≠ ""

/-- A message as it is read back once it has been stored. -/
def Message.stored (message : Message) : Message :=
  { message with
    event := .message
    tags := Tags.split (Tags.join message.tags)
    attachment := message.attachment.filter Attachment.isUsable }

/-- A message of which only the topic, the ID, the time and the title are given. -/
def Message.plain (topic id : String) (time : Int64) (title : String) : Message where
  id
  time
  updated := time
  event := .message
  topic
  body := ""
  title
  priority := 3
  tags := []
  click := ""
  attachment := none
  encoding := ""

namespace Store

open Relational (Cell Database Row Selected)

/-! ## What a row says -/

/-- The rows of the table of messages, in the order of their positions. -/
def messageRows (db : Database) : List Row :=
  ((db.table? Schema.messageTable).map (·.rows)).getD []

/-- The positions of the messages in a database. -/
def positions (db : Database) : List Int64 :=
  (messageRows db).map (·.position)

/-- A row of a topic. -/
def OfTopic (topic : String) (row : Row) : Prop :=
  row.cells.lookup "topic" = some (.text topic)

/-- A row of a message with an ID. -/
def OfId (id : String) (row : Row) : Prop :=
  row.cells.lookup "mid" = some (.text id)

/-- A row of a message that is to be delivered at a second. -/
def OfTime (time : Int64) (row : Row) : Prop :=
  row.cells.lookup "time" = some (.integer time)

/-- A row that is published. -/
def IsPublished (row : Row) : Prop :=
  row.cells.lookup "published" = some (.integer 1)

/-- A row that is not published. -/
def IsScheduled (row : Row) : Prop :=
  row.cells.lookup "published" = some (.integer 0)

/-- The message in a row, whose columns are found by the names of its cells. -/
def content (row : Row) : Except Error Message :=
  readMessage <| readColumns.filterMap fun name =>
    (row.cells.lookup name).map fun cell => (name, cell)

/-- A result that consists of the messages in the given rows, in this order. -/
def Shows (result : Except Error (List Message)) (rows : List Row) : Prop :=
  ∃ page, result = .ok page ∧ rows.mapM content = .ok page

/-! ## What is read from the row of a message -/

/-- The result of a query for the columns of a message, in the row of a message. -/
def selectedRow (message : Message) : Selected :=
  (newRow message false).dropLast

/-- A priority fits into its cell. -/
theorem toInt_priority (priority : UInt8) :
    (Int64.ofNat priority.toNat).toInt = priority.toNat := by
  have small := priority.toNat_lt
  exact Int64.toInt_ofNat_of_lt (by omega)

/-- A priority is read from its cell. -/
theorem priorityAt_of_cell {row : Selected} {place : Nat} {priority : UInt8}
    (shown : (cellAt row place).2 = priorityCell priority) :
    priorityAt row place = .ok priority := by
  have small := priority.toNat_lt
  have read : integerAt row place = .ok (Int64.ofNat priority.toNat) := by
    rw [integerAt, shown]
    rfl
  unfold priorityAt
  rw [read]
  change (if _ then _ else _) = _
  rw [toInt_priority, if_pos (by omega), Int.toNat_natCast, UInt8.ofNat_toNat]
  rfl

variable (message : Message)

/-- A priority is read back. -/
theorem priorityAt_selectedRow : priorityAt (selectedRow message) 6 = .ok message.priority :=
  priorityAt_of_cell rfl

/-- The attachment of a message is read back if it has a name and a URL. -/
theorem readAttachment_selectedRow :
    readAttachment (selectedRow message) (message.attachment.getD .absent).name
      (message.attachment.getD .absent).url = .ok message.stored.attachment := by
  obtain ⟨_, _, _, _, _, _, _, _, _, _, attachment, _⟩ := message
  cases attachment with
  | none => rfl
  | some attachment =>
      unfold readAttachment Message.stored
      simp only [Option.getD_some]
      cases usable : attachment.isUsable with
      | true =>
          rw [if_pos (of_decide_eq_true usable), Option.filter_some_pos usable]
          rfl
      | false => rw [if_neg (of_decide_eq_false usable), Option.filter_some_neg usable]

/-- A message is read back from the row that it was written to. -/
theorem readMessage_selectedRow : readMessage (selectedRow message) = .ok message.stored := by
  unfold readMessage
  change (readAttachment (selectedRow message) (message.attachment.getD .absent).name
    (message.attachment.getD .absent).url >>= fun attachment => _) = _
  rw [readAttachment_selectedRow]
  change (priorityAt (selectedRow message) 6 >>= fun priority => _) = _
  rw [priorityAt_selectedRow]
  rfl

theorem content_newRow (position : Int64) (published : Bool) :
    content ⟨position, newRow message published⟩ = .ok message.stored :=
  readMessage_selectedRow message

end Store

end MessageStore
