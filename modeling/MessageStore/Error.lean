import MessageStore.Host.FileFault
import MessageStore.Json.Fault
import MessageStore.Message.Event
import MessageStore.Relational.Cell
import MessageStore.Relational.Fault

/-!
# Errors

Why an operation fails: a cause, and what was being done when it arose.  The
wording of every cause stands here or beside the type of the cause.
-/

namespace MessageStore

/-- Why an operation fails. -/
inductive Cause
  /-- Only messages can be stored. -/
  | unexpectedEvent (event : Event)
  | messageNotFound (topic id : String)
  /-- There is a table of messages, and a table of versions without the row of the version. -/
  | corruptSchema
  /-- The database was written by a later version. -/
  | futureSchema (found current : Nat)
  | missingMigration (version : Nat)
  | engine (fault : Relational.Fault)
  /-- A cell of a result has the wrong storage class. -/
  | cellKind (place : Nat) (column : String) (kind : Relational.Cell.Kind)
  /-- An integer in a result is out of range. -/
  | cellRange (place : Nat) (value : Int)
  /-- A path with the character U+0000 at the given byte. -/
  | nulInPath (byte : Nat)
  | json (fault : Json.Fault)
  | file (fault : Host.FileFault)
  /-- It is not known where the user keeps configuration. -/
  | noConfigDirectory
  | loggerInstalled
  deriving DecidableEq, Repr

/-- The wording of a cause. -/
def Cause.message : Cause → String
  | unexpectedEvent event => "unexpected message type: " ++ event.name
  | messageNotFound topic id => "message not found: " ++ topic ++ "/" ++ id
  | corruptSchema => "cannot determine schema version: cache file may be corrupt"
  | futureSchema found current =>
      s!"unexpected schema version {found}, this build supports up to {current}"
  | missingMigration version => s!"no migration registered from schema version {version}"
  | engine fault => fault.message
  | cellKind place column kind => toString place ++ " " ++ column ++ " " ++ kind.name
  | cellRange place value => toString place ++ " " ++ toString value
  | nulInPath byte => s!"nul byte found in provided data at position: {byte}"
  | json (.mismatch mismatch) => mismatch.message
  | json _ => ""
  | file fault => fault.name
  | noConfigDirectory => "Could not determine config directory"
  | loggerInstalled =>
      "attempted to set a logger after the logging system was already initialized"

/-- A cause, and what was being done when it arose, the widest activity first. -/
structure Error where
  cause : Cause
  context : List String
  deriving DecidableEq, Repr

namespace Error

/-- A cause without context. -/
def of (cause : Cause) : Error :=
  ⟨cause, []⟩

/-- An error that arose during a wider activity. -/
def during (error : Error) (activity : String) : Error :=
  { error with context := activity :: error.context }

/-- The text that stands first: the widest activity, or the cause. -/
def headline (error : Error) : String :=
  error.context.head?.getD error.cause.message

/-- Whether the error says that there is no such message, whatever was being done. -/
def isNotFound (error : Error) : Bool :=
  match error.cause with
  | .messageNotFound _ _ => true
  | _ => false

end Error

/-- An outcome whose error arose during an activity. -/
def during {α : Type} (activity : String) (outcome : Except Error α) : Except Error α :=
  outcome.mapError (·.during activity)

/-- An outcome of the relational engine. -/
def ofEngine {α : Type} (outcome : Except Relational.Fault α) : Except Error α :=
  outcome.mapError fun fault => .of (.engine fault)

end MessageStore
