import MessageStore.Proofs.Schema.Ascent
import MessageStore.Store.Operation

/-!
# The schema under operations

An operation puts another table of messages in the place of the one that is
there, or changes nothing.  So a database keeps its tables and the version that
it records, and stays current whatever is done with it.
-/

namespace MessageStore.Store

open Relational (Database Table)
open Schema (Standing messageTable versionTable)

variable {db : Database}

/-- A database in which another table may have taken the place of that of the messages. -/
def Edited (db after : Database) : Prop :=
  after = db ∨ ∃ old table, db.writable messageTable = .ok old ∧ table.name = old.name ∧
    after = db.replace table

/-- What is written is an edit if it succeeds, and otherwise nothing. -/
theorem edited_write {result : Except Error Database}
    (edits : ∀ after, result = .ok after → Edited db after) : Edited db (Outcome.write db result).db := by
  cases result with
  | ok after => exact edits after rfl
  | error error => exact .inl rfl

theorem edited_update {after : Database} {assignments : List (String × Relational.Operand)}
    {condition : Option Relational.Condition}
    (done : db.update messageTable assignments condition = .ok after) : Edited db after := by
  obtain ⟨old, writable, -, -, rfl⟩ := Database.update_eq_ok_iff.mp done
  exact .inr ⟨old, Database.updated old assignments condition, writable, rfl, rfl⟩

/-- An operation edits the database. -/
theorem edited_perform (now : Instant) (db : Database) (operation : Operation) :
    Edited db (perform now db operation).db := by
  cases operation with
  | add message =>
      refine edited_write fun after done => ?_
      obtain ⟨-, -, inserted⟩ := bind_eq_ok_iff.mp done
      obtain ⟨old, table, writable, -, joined, rfl⟩ :=
        Database.insertAt_eq_ok_iff.mp (ofEngine_eq_ok_iff.mp inserted)
      exact .inr ⟨old, table, writable, (Table.insert_frame joined).1, rfl⟩
  | update message =>
      refine edited_write fun after done => ?_
      obtain ⟨-, -, updated⟩ := bind_eq_ok_iff.mp done
      exact edited_update (ofEngine_eq_ok_iff.mp updated)
  | markPublished message =>
      exact edited_write fun after done => edited_update (ofEngine_eq_ok_iff.mp done)
  | prune cutoff =>
      simp only [perform]
      cases pruned : prune cutoff db with
      | error error => exact .inl rfl
      | ok result =>
          obtain ⟨old, writable, deleted⟩ := bind_eq_ok_iff.mp (ofEngine_eq_ok_iff.mp pruned)
          obtain ⟨-, -, ⟨⟩⟩ := bind_eq_ok_iff.mp deleted
          exact .inr ⟨old, Database.deleted old _, writable, rfl, rfl⟩
  | messages topic since scheduled => exact .inl rfl
  | message topic id => exact .inl rfl
  | due => exact .inl rfl
  | count topic => exact .inl rfl
  | topics => exact .inl rfl
  | attachmentsSize owner => exact .inl rfl
  | attachmentsExpired => exact .inl rfl

/-- A database of a version is of that version after every operation. -/
theorem standing_perform {version : Nat} (standing : Standing version db) (now : Instant)
    (operation : Operation) : Standing version (perform now db operation).db := by
  rcases edited_perform now db operation with same | ⟨old, table, writable, named, same⟩
  · rwa [same]
  · rw [same]
    have untouched : (db.replace table).table? versionTable = db.table? versionTable :=
      Database.replace_frame writable named (by decide)
    have recorded := Schema.storedVersion_congr standing.plain untouched
    refine ⟨?_, recorded.1, recorded.2.trans standing.stored⟩
    rw [Database.replace_names]
    exact standing.messages

end MessageStore.Store
