/-!
# Log records

What the store reports while it works, and which of it reaches a sink.  A
record has a severity level.  Records are reported to a facade, which hands on
those within its own limit once a logger has been installed.  The logger has a
level as well, and passes the records that are at least as severe to its sink,
while one is attached.
-/

namespace MessageStore.Log

/-- A severity level. -/
inductive Level
  | error
  | warn
  | info
  | debug
  | trace
  deriving DecidableEq, Repr

namespace Level

/-- The place of a level, the most severe first. -/
def rank : Level → Nat
  | error => 0
  | warn => 1
  | info => 2
  | debug => 3
  | trace => 4

/-- The name of a level. -/
def name : Level → String
  | error => "ERROR"
  | warn => "WARN"
  | info => "INFO"
  | debug => "DEBUG"
  | trace => "TRACE"

/-- All levels. -/
def all : List Level :=
  [error, warn, info, debug, trace]

end Level

/-- A reported event: its level, the part of the program that it comes from, and its text. -/
structure Record where
  level : Level
  target : String
  text : String
  deriving DecidableEq, Repr

/-- The logger that passes records on to a sink. -/
structure Logger where
  /-- The least severe level that is passed on. -/
  level : Level
  /-- Whether a sink is attached. -/
  attached : Bool
  deriving DecidableEq, Repr

/-- Whether a logger passes records of a level on. -/
def Logger.enabled (logger : Logger) (level : Level) : Bool :=
  logger.attached && level.rank ≤ logger.level.rank

/-- What all parts of a program report to. -/
structure Facade where
  /-- The logger, once it has been made. -/
  logger? : Option Logger
  /-- Whether records are handed on to the logger. -/
  installed : Bool
  /-- The least severe level that is handed on, if any is. -/
  limit? : Option Level
  deriving DecidableEq, Repr

namespace Facade

/-- A facade without a logger, to which nobody listens. -/
def silent : Facade :=
  ⟨none, false, none⟩

/-- Install a logger with a level, and say whether that was possible.  No sink is attached to a new
logger.  The logger is made only once, and installed only once. -/
def install (facade : Facade) (level : Level) : Facade × Bool :=
  let made := { facade with logger? := some (facade.logger?.getD ⟨level, false⟩) }
  if made.installed then (made, false)
  else ({ made with installed := true, limit? := some level }, true)

/-- A facade for which a logger with a level has just been installed. -/
def started (level : Level) : Facade :=
  (silent.install level).1

/-- Whether records of a level reach a sink. -/
def enabled (facade : Facade) (level : Level) : Bool :=
  facade.installed && facade.limit?.any (level.rank ≤ ·.rank) &&
    facade.logger?.any (·.enabled level)

/-- The records that reach a sink, in order. -/
def passed (facade : Facade) (records : List Record) : List Record :=
  records.filter fun record => facade.enabled record.level

end Facade

/-- What a program does with the logger. -/
inductive Action
  | setLevel (level : Level)
  /-- Attach the sink, or detach it. -/
  | setAttached (attached : Bool)
  | report (record : Record)
  deriving DecidableEq, Repr

namespace Action

/-- The facade after an action.  Without a logger, levels and sinks are of no account. -/
def apply (facade : Facade) : Action → Facade
  | setLevel level =>
      match facade.logger? with
      | some logger => { facade with logger? := some { logger with level }, limit? := some level }
      | none => facade
  | setAttached attached =>
      { facade with logger? := facade.logger?.map fun logger => { logger with attached } }
  | report _ => facade

/-- What an action reports. -/
def records : Action → List Record
  | report record => [record]
  | _ => []

end Action

/-- The part of the program that opens stores. -/
def storage : String := "cache::storage"

/-- The part of the program that migrates schemas. -/
def migrate : String := "cache::storage::migrate"

/-- The part of the program that changes tables. -/
def tables : String := "cache::storage::sqlite"

end MessageStore.Log
