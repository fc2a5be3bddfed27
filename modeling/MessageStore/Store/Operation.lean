import MessageStore.Instant.Calendar
import MessageStore.Log
import MessageStore.Store.Basic

/-!
# Operations of the store

The operations as data, and what carrying one out at a given time does: the
database it leaves, what it reports, and its answer.  An operation that fails
leaves the database as it was, and so does one whose changes meet a barrier.  A
store that keeps nothing answers as an empty one.
-/

namespace MessageStore.Store

open Relational (Database Fault)

/-- Something that can be done with a store. -/
inductive Operation
  | add (message : Message)
  | update (message : Message)
  | messages (topic : String) (since : Since) (scheduled : Bool)
  | message (topic id : String)
  | due
  | markPublished (message : Message)
  | count (topic : String)
  | topics
  | prune (cutoff : Instant)
  | attachmentsSize (owner : String)
  | attachmentsExpired
  deriving DecidableEq

/-- Whether an operation is to change the database. -/
def Operation.changes : Operation → Bool
  | add _ => true
  | update _ => true
  | markPublished _ => true
  | prune _ => true
  | _ => false

/-- What has to be added or updated must be a message, whatever the store. -/
def Operation.require : Operation → Except Error Unit
  | add added => requireMessage added
  | update updated => requireMessage updated
  | _ => .ok ()

/-- What an operation that succeeds returns. -/
inductive Answer
  | done
  | messages (messages : List Message)
  | message (message : Message)
  | count (count : Nat)
  | topics (topics : List Topic)
  | size (bytes : Int64)
  | ids (ids : List String)
  deriving DecidableEq

/-- How an operation went: the database it leaves, what it reported, and its answer. -/
structure Outcome where
  db : Database
  log : List Log.Record
  answer : Except Error Answer

namespace Outcome

/-- An operation that reads. -/
def read {α : Type} (db : Database) (wrap : α → Answer) (result : Except Error α) : Outcome :=
  ⟨db, [], result.map wrap⟩

/-- An operation that changes the database, if it succeeds. -/
def write (db : Database) : Except Error Database → Outcome
  | .ok changed => ⟨changed, [], .ok .done⟩
  | .error error => ⟨db, [], .error error⟩

end Outcome

/-- What a prune reports. -/
def pruned (number : Nat) (cutoff : Instant) : Log.Record :=
  ⟨.debug, Log.tables, s!"Pruned {number} messages older than " ++ cutoff.toText⟩

/-- Carry out an operation at the given time. -/
def perform (now : Instant) (db : Database) : Operation → Outcome
  | .add message => .write db (add now message db)
  | .update message => .write db (update message db)
  | .messages topic since scheduled => .read db .messages (messages topic since scheduled db)
  | .message topic id => .read db .message (message topic id db)
  | .due => .read db .messages (due now db)
  | .markPublished message => .write db (markPublished message db)
  | .count topic => .read db .count (count topic db)
  | .topics => .read db .topics (topics db)
  | .prune cutoff =>
      match prune cutoff db with
      | .ok (changed, number) => ⟨changed, [pruned number cutoff], .ok .done⟩
      | .error error => ⟨db, [], .error error⟩
  | .attachmentsSize owner => .read db .size (attachmentsSize owner now db)
  | .attachmentsExpired => .read db .ids (attachmentsExpired now db)

/-- The error of an operation whose changes meet a fault: what is found before anything is changed
comes first. -/
def barredError (barrier : Fault) (answer : Except Error Answer) : Error :=
  match answer with
  | .ok _ => .of (.engine barrier)
  | .error error =>
      match error.cause with
      | .engine fault => if fault.isEarly then error else .of (.engine barrier)
      | _ => error

/-- Carry out an operation at the given time where changes meet the given fault, if any. -/
def performUnder (barrier : Option Fault) (now : Instant) (db : Database)
    (operation : Operation) : Outcome :=
  let outcome := perform now db operation
  match barrier with
  | none => outcome
  | some fault =>
      if operation.changes then ⟨db, [], .error (barredError fault outcome.answer)⟩ else outcome

@[simp]
theorem performUnder_none (now : Instant) (db : Database) (operation : Operation) :
    performUnder none now db operation = perform now db operation :=
  rfl

/-- The answer of a store that keeps nothing. -/
def discard : Operation → Except Error Answer
  | .add message => (requireMessage message).map fun () => .done
  | .update message => (requireMessage message).map fun () => .done
  | .messages _ _ _ => .ok (.messages [])
  | .message topic id => .error (.of (.messageNotFound topic id))
  | .due => .ok (.messages [])
  | .markPublished _ => .ok .done
  | .count _ => .ok (.count 0)
  | .topics => .ok (.topics [])
  | .prune _ => .ok .done
  | .attachmentsSize _ => .ok (.size 0)
  | .attachmentsExpired => .ok (.ids [])

end MessageStore.Store
