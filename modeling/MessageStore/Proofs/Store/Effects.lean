import MessageStore.Proofs.Store.Current
import MessageStore.Proofs.Store.Holdings
import MessageStore.Proofs.Store.Likeness

/-!
# What operations do to the database of a store

The rows of the table of messages are the rows of the entries that a store
holds, and the table counts on from the largest position that has ever been
used.  An operation leaves the database of what the store holds afterwards.
-/

namespace MessageStore.Store

open Relational (Cell Condition Database Row Table Test)
open Schema (Laid messageTable setup)

namespace Holdings

/-! ## The database of a store -/

/-- The table of messages. -/
def table (holdings : Holdings) : Table :=
  newMessages (holdings.entries.map Entry.row) holdings.used

/-- The database of a store that holds entries. -/
def db (holdings : Holdings) : Database :=
  newStore (holdings.entries.map Entry.row) holdings.used

theorem empty_db : empty.db = (setup .empty).db :=
  rfl

theorem writable_db (holdings : Holdings) :
    holdings.db.writable messageTable = .ok holdings.table :=
  writable_newStore _ _

theorem table?_db (holdings : Holdings) : holdings.db.table? messageTable = some holdings.table :=
  (Database.writable_eq_ok_iff.mp holdings.writable_db).2

@[simp]
theorem messageRows_db (holdings : Holdings) :
    messageRows holdings.db = holdings.entries.map Entry.row := by
  rw [messageRows, table?_db]
  rfl

@[simp]
theorem positions_db (holdings : Holdings) :
    positions holdings.db = holdings.entries.map (·.position) := by
  rw [positions, messageRows_db, List.map_map]
  rfl

theorem replace_db (holdings other : Holdings) : holdings.db.replace other.table = other.db := by
  rfl

/-- The table of messages stores the cells of a message as they are. -/
theorem newRow_table (holdings : Holdings) (entry : Entry) :
    holdings.table.newRow (newRow entry.message entry.published) entry.position = entry.row := by
  rfl

/-- The table of messages is in the current layout. -/
theorem laid (holdings : Holdings) : Laid 6 holdings.table := by
  refine laid_newMessages ?_ (List.pairwise_map.mpr holdings.ordered)
  intro row member
  obtain ⟨entry, _, rfl⟩ := List.mem_map.mp member
  have blank : Laid 6 empty.table := laid_newMessages nofun .nil
  have kinds := givenCell_newRow_kind entry.message entry.published blank
  have fits : (empty.table.newRow (newRow entry.message entry.published)
      entry.position).Fits empty.table :=
    Table.fits_newCells blank.distinct kinds
  rw [newRow_table] at fits
  exact fits.congr rfl

/-- The table of messages counts on from the largest position that has ever been used. -/
theorem counts (holdings : Holdings) : holdings.table.Counts (holdings.used.getD 0) where
  recorded := ⟨holdings.used, rfl, rfl⟩
  nonneg := holdings.nonneg
  bound := by
    intro row member
    obtain ⟨entry, entryMember, rfl⟩ := List.mem_map.mp member
    exact holdings.bound entry entryMember

theorem nextPosition?_table (holdings : Holdings) :
    holdings.table.nextPosition? =
      if holdings.largest < Int64.maxValue.toInt then some (Int64.ofInt (holdings.largest + 1))
      else none :=
  holdings.counts.nextPosition?

/-- A store that holds entries is current. -/
theorem current (holdings : Holdings) : Current holdings.db holdings.table :=
  ⟨holdings.table?_db, holdings.laid⟩

/-! ## Conditions on entries -/

section Conditions

variable (holdings : Holdings) (entry : Entry)

theorem holds_topic (topic : String) :
    Condition.holds holdings.table entry.row (.compare "topic" .equal (.text topic)) =
      decide (entry.message.topic = topic) :=
  Condition.cellHolds_text _ _

theorem holds_id (id : String) :
    Condition.holds holdings.table entry.row (.compare "mid" .equal (.text id)) =
      decide (entry.message.id = id) :=
  Condition.cellHolds_text _ _

theorem holds_ofMessage (topic id : String) :
    Condition.holds holdings.table entry.row (ofMessage topic id) =
      decide (entry.message.topic = topic ∧ entry.message.id = id) := by
  rw [ofMessage, Condition.holds, holds_topic, holds_id, Bool.decide_and]

theorem holds_time (test : Test) (second : Int64) :
    Condition.holds holdings.table entry.row (.compare "time" test (.integer second)) =
      test.ofInts entry.message.time.toInt second.toInt :=
  test.holds_orderInt _ _

theorem holds_published :
    Condition.holds holdings.table entry.row Replay.published = entry.published := by
  change (Cell.orderInt (if entry.published then (1 : Int64) else 0).toInt 1 == .eq) = _
  cases entry.published <;> rfl

theorem holds_outdated (cutoff : Instant) :
    Condition.holds holdings.table entry.row (outdated cutoff) =
      (Operation.prune cutoff).prunes entry := by
  rw [outdated, Condition.holds, holds_published, secondCell, holds_time, toInt_second,
    Operation.prunes, Bool.decide_and, Bool.decide_eq_true]
  rfl

end Conditions

/-! ## What operations do to the database -/

section Performing

variable (holdings : Holdings) (now : Instant)

/-- Holdings with the same entries and the same largest position make the same database. -/
theorem db_congr {holdings other : Holdings} (entries : holdings.entries = other.entries)
    (used : holdings.used = other.used) : holdings.db = other.db := by
  unfold db
  rw [entries, used]

/-- A row that comes behind all others is the last one of the table, and its position is
recorded. -/
theorem withRow_newMessages {rows : List Row} {used : Option Int64} {row : Row}
    (last : ∀ other ∈ rows, other.position < row.position)
    (behind : used.getD 0 < row.position) :
    (newMessages rows used).withRow row = newMessages (rows ++ [row]) (some row.position) := by
  unfold Table.withRow newMessages Table.Numbering.use
  simp only [Table.insertOrdered_of_last last, if_pos behind]

/-- What is added comes after all that there is. -/
theorem entries_next_add {message : Message} {entry : Entry}
    (added : holdings.added? (now, .add message) = some entry) :
    (holdings.next (now, .add message)).entries = holdings.entries ++ [entry] := by
  change holdings.entries.filterMap (Entry.next (.add message)) ++ _ = _
  rw [funext fun entry => Entry.next_add entry message, List.filterMap_some, added,
    Option.toList_some]

/-- What is added is the last row of the table. -/
theorem table_next_add {message : Message} {entry : Entry}
    (added : holdings.added? (now, .add message) = some entry) :
    (holdings.next (now, .add message)).table = holdings.table.withRow entry.row := by
  have position : entry.row.position.toInt = (holdings.used.getD 0).toInt + 1 :=
    position_added added
  have last : ∀ other ∈ holdings.entries.map Entry.row, other.position < entry.row.position := by
    intro other member
    have bound := holdings.counts.bound other member
    rw [Int64.lt_iff_toInt_lt]
    omega
  have behind : holdings.used.getD 0 < entry.row.position := by
    rw [Int64.lt_iff_toInt_lt]
    omega
  have used : (holdings.next (now, .add message)).used = some entry.position := by
    simp only [next, usedAfter, added]
  unfold table
  rw [withRow_newMessages last behind, entries_next_add holdings now added, used, List.map_append]
  rfl

/-- A message is added behind all others, unless it is none or the last position has been used. -/
theorem perform_add (message : Message) :
    perform now holdings.db (.add message) =
      match holdings.added? (now, .add message) with
      | some _ => ⟨(holdings.next (now, .add message)).db, [], .ok .done⟩
      | none =>
          ⟨holdings.db, [], .error (.of (if message.event = .message then .engine .full
            else .unexpectedEvent message.event))⟩ := by
  by_cases event : message.event = .message
  · have added := @add_eq now _ _ _ event holdings.writable_db holdings.laid
    rw [holdings.nextPosition?_table] at added
    by_cases room : holdings.largest < Int64.maxValue.toInt
    · let entry : Entry :=
        ⟨Int64.ofInt (holdings.largest + 1), message, message.isDue now.seconds⟩
      have found : holdings.added? (now, .add message) = some entry := if_pos ⟨event, room⟩
      rw [if_pos room] at added
      change add now message holdings.db = .ok (holdings.db.replace (holdings.table.withRow
        (holdings.table.newRow (newRow entry.message entry.published) entry.position))) at added
      rw [newRow_table, ← holdings.table_next_add now found, replace_db] at added
      simp only [found, perform, added]
      rfl
    · have full : holdings.added? (now, .add message) = none := if_neg fun fits => room fits.2
      rw [if_neg room] at added
      simp only [full, if_pos event, perform, added]
      rfl
  · have refused : holdings.added? (now, .add message) = none := if_neg fun fits => event fits.1
    simp only [refused, if_neg event, perform, Store.add, requireMessage]
    rfl

/-- The table that is left when an act adds nothing, and does to each row what a function of rows
does. -/
theorem table_next (act : Act) (added : holdings.added? act = none) (after : Row → Option Row)
    (each : ∀ entry : Entry, (entry.next act.2).map Entry.row = after entry.row) :
    (holdings.next act).table =
      { holdings.table with rows := holdings.table.rows.filterMap after } := by
  have rows : (holdings.entriesAfter act).map Entry.row =
      (holdings.entries.map Entry.row).filterMap after := by
    unfold entriesAfter
    rw [added, Option.toList_none, List.append_nil, List.map_filterMap, List.filterMap_map]
    exact congrArg (List.filterMap · holdings.entries) (funext each)
  have used : holdings.usedAfter act = holdings.used := by
    unfold usedAfter
    rw [added]
  change newMessages ((holdings.entriesAfter act).map Entry.row) (holdings.usedAfter act) = _
  rw [rows, used]
  rfl

/-- An act that assigns cells to the rows that meet a condition carries out an update. -/
theorem table_next_update (act : Act) (added : holdings.added? act = none)
    (cells : List (String × Cell)) (condition : Condition)
    (each : ∀ entry : Entry, (entry.next act.2).map Entry.row =
      some (if condition.holds holdings.table entry.row then
        Database.assignRow holdings.table (assigning cells) entry.row
      else entry.row)) :
    (holdings.next act).table =
      Database.updated holdings.table (assigning cells) (some condition) := by
  rw [table_next holdings act added (some ∘ fun row =>
    if condition.holds holdings.table row then
      Database.assignRow holdings.table (assigning cells) row
    else row) each, List.filterMap_eq_map]
  rfl

theorem assignRow_editedCells (entry : Entry) (edit : Message) :
    Database.assignRow holdings.table (assigning (editedCells edit)) entry.row =
      (⟨entry.position, entry.message.edited edit, entry.published⟩ : Entry).row := by
  rfl

theorem assignRow_published (entry : Entry) :
    Database.assignRow holdings.table (assigning [("published", .integer 1)]) entry.row =
      (⟨entry.position, entry.message, true⟩ : Entry).row := by
  rfl

/-- A message is updated where it is stored, unless it is none. -/
theorem perform_update (edit : Message) :
    perform now holdings.db (.update edit) =
      if edit.event = .message then ⟨(holdings.next (now, .update edit)).db, [], .ok .done⟩
      else ⟨holdings.db, [], .error (.of (.unexpectedEvent edit.event))⟩ := by
  by_cases event : edit.event = .message
  · have table := holdings.table_next_update (now, .update edit) rfl (editedCells edit)
      (ofMessage edit.topic edit.id) (by
        intro entry
        rw [holds_ofMessage, assignRow_editedCells]
        simp only [Entry.next, Operation.prunes, Operation.edit, Operation.marks, event,
          Bool.or_false, decide_eq_true_eq, true_and, Bool.false_eq_true, if_false, Option.map_some]
        split <;> rfl)
    have updated := update_eq holdings.writable_db holdings.laid (preferred_editedCells edit)
      (ofMessage_known edit.topic edit.id)
    rw [← table, replace_db] at updated
    simp only [if_pos event, perform, update_of_message event, updated]
    rfl
  · simp only [if_neg event, perform, update_of_other event]
    rfl

/-- A message is marked as published wherever its ID is stored. -/
theorem perform_markPublished (marked : Message) :
    perform now holdings.db (.markPublished marked) =
      ⟨(holdings.next (now, .markPublished marked)).db, [], .ok .done⟩ := by
  have table := holdings.table_next_update (now, .markPublished marked) rfl
    [("published", .integer 1)] (.compare "mid" .equal (.text marked.id)) (by
      intro entry
      rw [holds_id, assignRow_published]
      by_cases same : entry.message.id = marked.id <;>
        simp [Entry.next, Operation.prunes, Operation.edit, Operation.marks, same])
  have updated := update_eq holdings.writable_db holdings.laid preferred_published
    (ofId_known marked.id)
  rw [← table, replace_db] at updated
  simp only [perform, markPublished_eq, updated]
  rfl

/-- Published messages are pruned that are to be delivered before the cutoff. -/
theorem perform_prune (cutoff : Instant) :
    (perform now holdings.db (.prune cutoff)).db = (holdings.next (now, .prune cutoff)).db ∧
      (perform now holdings.db (.prune cutoff)).answer = .ok .done := by
  have table : (holdings.next (now, .prune cutoff)).table =
      Database.deleted holdings.table (outdated cutoff) := by
    rw [holdings.table_next (now, .prune cutoff) rfl
      (Option.guard fun row => !(outdated cutoff).holds holdings.table row),
      List.filterMap_eq_filter]
    · rfl
    · intro entry
      rw [Option.guard, holds_outdated, Entry.next]
      cases pruned : (Operation.prune cutoff).prunes entry with
      | true => rfl
      | false => simp [Operation.edit, Operation.marks]
  have deleted := prune_eq holdings.writable_db holdings.laid cutoff
  rw [← table, replace_db] at deleted
  rw [perform, deleted]
  exact ⟨rfl, rfl⟩

/-- An act that adds nothing and changes no entry leaves the entries as they are. -/
theorem entries_next_of_idle {act : Act} (added : holdings.added? act = none)
    (each : ∀ entry : Entry, entry.next act.2 = some entry) :
    (holdings.next act).entries = holdings.entries := by
  change holdings.entriesAfter act = _
  unfold entriesAfter
  rw [added, funext each, List.filterMap_some, Option.toList_none, List.append_nil]

/-- Reading leaves the entries as they are. -/
theorem entries_next_of_reading {act : Act} (reads : act.2.changes = false) :
    (holdings.next act).entries = holdings.entries := by
  refine entries_next_of_idle holdings ?_ (Entry.next_of_reading reads)
  obtain ⟨now, operation⟩ := act
  cases operation with
  | add => cases reads
  | _ => rfl

/-- An act that adds nothing and changes no entry leaves the database as it is. -/
theorem db_next_of_idle {act : Act} (added : holdings.added? act = none)
    (each : ∀ entry : Entry, entry.next act.2 = some entry) :
    (holdings.next act).db = holdings.db := by
  refine db_congr (entries_next_of_idle holdings added each) ?_
  change holdings.usedAfter act = _
  unfold usedAfter
  rw [added]

/-- An operation leaves the database of what the store then holds. -/
theorem perform_db (act : Act) :
    (perform act.1 holdings.db act.2).db = (holdings.next act).db := by
  obtain ⟨now, operation⟩ := act
  cases operation with
  | add message =>
      have performed := holdings.perform_add now message
      cases added : holdings.added? (now, .add message) with
      | some entry =>
          rw [performed, added]
      | none =>
          rw [performed, added, db_next_of_idle holdings added (Entry.next_add · message)]
  | update edit =>
      rw [perform_update]
      split
      · rfl
      · next event =>
          refine (db_next_of_idle holdings rfl fun entry => ?_).symm
          simp [Entry.next, Operation.prunes, Operation.edit, Operation.marks, event]
  | markPublished marked => rw [perform_markPublished]
  | prune cutoff => exact (holdings.perform_prune now cutoff).1
  | _ => exact (db_next_of_idle holdings rfl (Entry.next_of_reading rfl)).symm

end Performing

end Holdings

/-! ## Operations that succeed -/

/-- An operation that succeeds. -/
def Succeeds (db : Database) (act : Act) : Prop :=
  ∃ answer, (perform act.1 db act.2).answer = .ok answer

variable {holdings : Holdings} {now : Instant}

theorem succeeds_add_iff {message : Message} :
    Succeeds holdings.db (now, .add message) ↔
      ∃ entry, holdings.added? (now, .add message) = some entry := by
  unfold Succeeds
  rw [Holdings.perform_add]
  cases holdings.added? (now, .add message) <;> simp

theorem succeeds_update_iff {edit : Message} :
    Succeeds holdings.db (now, .update edit) ↔ edit.event = .message := by
  unfold Succeeds
  rw [Holdings.perform_update]
  split <;> simp [*]

end MessageStore.Store
