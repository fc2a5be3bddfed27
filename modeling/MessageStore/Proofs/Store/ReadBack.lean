import Mathlib.Data.List.Basic
import MessageStore.Proofs.Store.Likeness
import MessageStore.Proofs.Store.History
import MessageStore.Proofs.Tags

/-!
# Messages that are written and read

A message that is added to a store is found again under its topic and its ID, if
no other message has been there.  It comes back in its stored form: with its
tags cut at the commas, and without an attachment that lacks a name or a URL.
This holds in new stores and in those that have been brought up from an earlier
version, whatever has been done in them.
-/

namespace MessageStore

/-! ## Stored forms -/

namespace Message

/-- What is kept of a message in a store: the tags that the text of its tags holds, and the
attachment if it has a name and a URL. -/
def kept (message : Message) : Message :=
  { message with
    tags := Tags.split (Tags.join message.tags)
    attachment := message.attachment.filter Attachment.isUsable }

/-- A message of which nothing is lost in a store. -/
structure Lasting (message : Message) : Prop where
  tags : ∀ tag ∈ message.tags, ',' ∉ tag.toList
  present : message.tags ≠ [""]
  attachment : ∀ attachment, message.attachment = some attachment →
    attachment.name ≠ "" ∧ attachment.url ≠ ""

variable {message : Message}

theorem stored_eq_kept (event : message.event = .message) : message.stored = message.kept := by
  unfold stored kept
  rw [← event]

theorem kept_kept (message : Message) : message.kept.kept = message.kept := by
  have tags := Tags.split_join_split_join message.tags
  unfold kept
  simp only [tags, Option.filter_filter, Bool.and_self]

theorem filter_isUsable_eq_iff {attachment? : Option Attachment} :
    attachment?.filter Attachment.isUsable = attachment? ↔
      ∀ attachment, attachment? = some attachment → attachment.name ≠ "" ∧ attachment.url ≠ "" := by
  cases attachment? with
  | none => simp
  | some attachment => simp [Option.filter_some, Attachment.isUsable]

theorem kept_eq_iff : message.kept = message ↔ message.Lasting := by
  have parts : message.kept = message ↔
      Tags.split (Tags.join message.tags) = message.tags ∧
        message.attachment.filter Attachment.isUsable = message.attachment := by
    obtain ⟨_, _, _, _, _, _, _, _, _, _, _, _⟩ := message
    simp [kept]
  rw [parts, Tags.split_join_eq_iff, filter_isUsable_eq_iff]
  constructor
  · rintro ⟨⟨tags, present⟩, attachment⟩
    exact ⟨tags, present, attachment⟩
  · rintro ⟨tags, present, attachment⟩
    exact ⟨⟨tags, present⟩, attachment⟩

end Message

namespace Store

open Holdings (carryOut_fresh nextPosition?_table ofRun table?_db)
open Relational (Database Row Table)
open Schema (Laid LaidOut messageTable setup)

/-! ## Stores that can be reached -/

/-- A store that can be reached: a new one, or one that has been brought up from an earlier
version, after any acts. -/
inductive Reachable : Database → Prop
  | fresh : Reachable fresh
  | migrated {version layout : Nat} {db : Database} {table : Table}
      (laidOut : LaidOut version layout db table)
      (room : version < 5 → (table.rows.length : Int) ≤ Int64.maxValue.toInt) :
      Reachable (setup db).db
  | acted {db : Database} (reachable : Reachable db) (act : Act) :
      Reachable (perform act.1 db act.2).db

/-- The table of messages of a store that can be reached is in the current layout. -/
theorem Reachable.exists_laid {db : Database} (reachable : Reachable db) :
    ∃ table, db.writable messageTable = .ok table ∧ Laid 6 table := by
  -- A store that is in the current layout is a twin of itself, and acts keep twins.
  have twins : TwinStores db db := by
    induction reachable with
    | fresh =>
        have laid := Holdings.empty.laid
        exact ⟨_, _, Holdings.empty.writable_db, Holdings.empty.writable_db, laid, laid, rfl, rfl⟩
    | migrated laidOut room =>
        obtain ⟨table, result⟩ := laidOut.migrated room
        have holds := result.holds
        have writable := holds.owned.writable holds.found
        exact ⟨table, table, writable, writable, holds.laid, holds.laid, rfl, rfl⟩
    | acted _ act ih => exact (ih.perform act.1 act.2).stores
  obtain ⟨table, _, writable, _, tables⟩ := twins
  exact ⟨table, writable, tables.left⟩

theorem Reachable.exists_writable {db : Database} (reachable : Reachable db) :
    ∃ table, Writable db table := by
  obtain ⟨table, writable, laid⟩ := reachable.exists_laid
  exact ⟨table, writable_iff.mpr ⟨writable, laid⟩⟩

theorem Reachable.exists_current {db : Database} (reachable : Reachable db) :
    ∃ table, Current db table := by
  obtain ⟨table, store⟩ := reachable.exists_writable
  exact ⟨table, store.toCurrent⟩

/-- A run from a store that can be reached leads to one. -/
theorem Reachable.carryOut {db : Database} (reachable : Reachable db) (run : List Act) :
    Reachable (carryOut db run) := by
  induction run generalizing db with
  | nil => exact reachable
  | cons act rest ih => exact ih (reachable.acted act)

/-- There is a position for one more row. -/
def HasPosition (db : Database) : Prop :=
  ∃ position, (db.table? messageTable).bind Table.nextPosition? = some position

/-- No row of a topic has an ID. -/
def Absent (db : Database) (topic id : String) : Prop :=
  ∀ row ∈ messageRows db, ¬ (OfTopic topic row ∧ OfId id row)

/-! ## Writing, then reading -/

section Adding

variable {db : Database} {table : Table} {message : Message} {published : Bool}
  {position : Int64}

/-- A message is read back from the row that it was written to, whatever the order of the
columns. -/
theorem content_table_newRow (laid : Laid 6 table) :
    content (table.newRow (newRow message published) position) = .ok message.stored := by
  have cells (name : String) :
      (table.newRow (newRow message published) position).cells.lookup name =
        (newRow message published).lookup name :=
    lookup_newRow message published laid name
  unfold content
  simp only [cells]
  exact content_newRow message position published

/-- The row of a message that is added is the only one with its topic and its ID, if no row has had
them. -/
theorem sole_of_added {after : Database}
    (rows : messageRows after =
      messageRows db ++ [table.newRow (newRow message published) position])
    (absent : Absent db message.topic message.id) : Sole after message.topic message.id := by
  have only {row : Row} (member : row ∈ messageRows after) (ofTopic : OfTopic message.topic row)
      (ofId : OfId message.id row) : row = table.newRow (newRow message published) position := by
    rw [rows] at member
    rcases List.mem_append.mp member with old | new
    · exact absurd ⟨ofTopic, ofId⟩ (absent row old)
    · exact List.mem_singleton.mp new
  intro first member second otherMember firstTopic firstId secondTopic secondId
  rw [only member firstTopic firstId, only otherMember secondTopic secondId]

/-- A message that is added is found under its topic and its ID, if no row has had them. -/
theorem message_of_added (writable : db.writable messageTable = .ok table) (laid : Laid 6 table)
    (next : table.nextPosition? = some position)
    (absent : Absent db message.topic message.id) :
    Store.message message.topic message.id
      (db.replace (table.withRow (table.newRow (newRow message published) position))) =
      .ok message.stored := by
  let row := table.newRow (newRow message published) position
  let after := db.replace (table.withRow row)
  have writableAfter : after.writable messageTable = .ok (table.withRow row) :=
    Database.writable_replace_self writable rfl
  have current : Current after (table.withRow row) :=
    ⟨(Database.writable_eq_ok_iff.mp writableAfter).2, laid_withRow message published laid next⟩
  have before : Current db table := ⟨(Database.writable_eq_ok_iff.mp writable).2, laid⟩
  have rows : messageRows after = messageRows db ++ [row] := by
    rw [current.messageRows_eq, before.messageRows_eq]
    exact Table.withRow_newRow_rows next (newRow message published)
  have present : row ∈ messageRows after := by
    rw [rows]
    exact List.mem_append_right _ (List.mem_singleton_self row)
  have found := current.message_of_sole present (lookup_newRow message published laid "topic")
    (lookup_newRow message published laid "mid") (sole_of_added rows absent)
  exact found.trans (content_table_newRow laid)

end Adding

/-- What is added to a store is found again in the form that is kept of it, if its topic and its ID
have not been there.  This form keeps all of itself, and it is the message that was added exactly
if that has nothing that is lost. -/
theorem added_message_found (message : Message) :
    (∀ db now later, Reachable db → message.event = .message → HasPosition db →
      Absent db message.topic message.id →
        (perform now db (.add message)).answer = .ok .done ∧
          (perform later (perform now db (.add message)).db
            (.message message.topic message.id)).answer = .ok (.message message.kept)) ∧
      message.kept.kept = message.kept ∧ (message.kept = message ↔ message.Lasting) := by
  refine ⟨?_, message.kept_kept, Message.kept_eq_iff⟩
  intro db now later reachable event room absent
  obtain ⟨table, writable, laid⟩ := reachable.exists_laid
  obtain ⟨position, next⟩ := room
  rw [(Database.writable_eq_ok_iff.mp writable).2, Option.bind_some] at next
  have added : add now message db = _ := add_eq event writable laid
  rw [next] at added
  have performed : perform now db (.add message) =
      ⟨db.replace (table.withRow (table.newRow (newRow message (message.isDue now.seconds))
        position)), [], .ok .done⟩ := by
    simp only [perform, added]
    rfl
  have found : Store.message message.topic message.id
      (db.replace (table.withRow (table.newRow (newRow message (message.isDue now.seconds))
        position))) = .ok message.stored :=
    message_of_added writable laid next absent
  rw [performed, ← Message.stored_eq_kept event]
  refine ⟨rfl, ?_⟩
  change (Store.message message.topic message.id _).map Answer.message = _
  rw [found]
  rfl

/-- A tag with a comma comes back as two, and an attachment without a name not at all. -/
theorem added_message_found_changed :
    let clock : Instant := ⟨5, 0, by decide, by decide, by decide⟩
    let run : List Act := [(clock, .add (.plain "t" "a" 1 "")), (clock, .add (.plain "u" "b" 9 ""))]
    let message : Message :=
      { Message.plain "t" "b" 9 "" with
        tags := ["x,y", ""]
        attachment := some { Attachment.bare "" "u" with owner := "o" } }
    Reachable (carryOut fresh run) ∧ message.event = .message ∧
      HasPosition (carryOut fresh run) ∧ Absent (carryOut fresh run) "t" "b" ∧
      (perform clock (perform clock (carryOut fresh run) (.add message)).db
        (.message "t" "b")).answer =
          .ok (.message { Message.plain "t" "b" 9 "" with tags := ["x", "y", ""] }) := by
  intro clock run message
  have reachable : Reachable (carryOut fresh run) := Reachable.fresh.carryOut run
  have room : HasPosition (carryOut fresh run) := by
    refine ⟨3, ?_⟩
    rw [carryOut_fresh, table?_db, Option.bind_some, nextPosition?_table]
    decide
  have absent : Absent (carryOut fresh run) "t" "b" := by
    have others : ∀ entry ∈ (ofRun run).entries,
        ¬ (entry.message.topic = "t" ∧ entry.message.id = "b") := by
      decide
    intro row member
    obtain ⟨entry, entryMember, rfl⟩ := mem_messageRows_iff.mp member
    rw [Entry.ofTopic_row, Entry.ofId_row]
    exact others entry entryMember
  refine ⟨reachable, rfl, room, absent, ?_⟩
  have found := ((added_message_found message).1 (carryOut fresh run) clock clock reachable rfl room
    absent).2
  have kept : message.kept = { Message.plain "t" "b" 9 "" with tags := ["x", "y", ""] } := by
    decide
  rw [kept] at found
  exact found

end Store

end MessageStore
