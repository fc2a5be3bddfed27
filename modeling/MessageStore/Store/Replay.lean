import MessageStore.Relational.Condition
import MessageStore.Since

/-!
# Replays

What a marker comes down to in the table of messages: nothing, the rows from a
second on, or the rows behind a position.  A marker that names a message whose
row is not there stands for everything.  Everything means from second zero on.
-/

namespace MessageStore.Store

open Relational (Cell Condition)

/-- The rows of a topic that a subscriber wants. -/
inductive Replay
  | nothing
  /-- The rows whose time is not before a second. -/
  | fromSecond (second : Int64) (scheduled : Bool)
  /-- The rows behind a position.  Where scheduled rows are wanted, those that are not published
  count whatever their position, since no subscriber has seen them. -/
  | behind (position : Int64) (scheduled : Bool)
  deriving DecidableEq, Repr

/-- A second as a cell. -/
def secondCell (second : Int) : Cell :=
  .integer (Int64.ofInt second)

namespace Replay

/-- The replay that a marker stands for, where a lookup gives the position of the row of a
message, if it is there. -/
def resolve {ε : Type} (since : Since) (scheduled : Bool)
    (position? : String → Except ε (Option Int64)) : Except ε Replay :=
  match since with
  | .nothing => .ok nothing
  | .everything => .ok (fromSecond 0 scheduled)
  | .time instant => .ok (fromSecond (Int64.ofInt instant.seconds) scheduled)
  | .message id => do
      match ← position? id with
      | some position => return behind position scheduled
      | none => return fromSecond 0 scheduled

/-- A condition that holds of the rows of a topic that meet another one. -/
def ofTopic (topic : String) (condition : Condition) : Condition :=
  .both (.compare "topic" .equal (.text topic)) condition

/-- The rows that are published. -/
def published : Condition :=
  .compare "published" .equal (.integer 1)

/-- The rows that are not published. -/
def unpublished : Condition :=
  .compare "published" .equal (.integer 0)

/-- The rows of a topic that a replay wants; a replay of nothing has no condition. -/
def condition? (topic : String) : Replay → Option Condition
  | nothing => none
  | fromSecond second scheduled =>
      let recent : Condition := .compare "time" .atLeast (.integer second)
      some (ofTopic topic (if scheduled then recent else .both recent published))
  | behind position scheduled =>
      let later : Condition := .compare "id" .greater (.integer position)
      some (ofTopic topic (if scheduled then .either later unpublished else .both later published))

end Replay

end MessageStore.Store
