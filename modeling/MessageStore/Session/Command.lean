import MessageStore.Schema.Earlier
import MessageStore.Schema.Inventory
import MessageStore.Session.Opening
import MessageStore.Store.Operation

/-!
# Commands

What a program can do in a session, as data: set the clock, use the logger,
open, copy and close handles, carry out operations through them, and prepare and
look at files.  Carrying out a command gives the session that it leaves, the
records that were reported, and a reply or the reason why there is none.
-/

namespace MessageStore

open Schema (Earlier Inventory)
open Store (Answer Operation)

/-- Something that a program does in a session.  Handles are given by name, and the random bits that
are drawn for the name of a store in memory are given as well. -/
inductive Command
  | setClock (now : Instant)
  | logging (action : Log.Action)
  /-- Ask whether records of a level reach the sink. -/
  | isLogged (level : Log.Level)
  /-- Install a logger with a level, which is possible only once. -/
  | makeLogger (level : Log.Level)
  | openFile (name path : String)
  | openMemory (name : String) (bits : Nat)
  | openDiscarding (name : String)
  | openConfigured (name : String) (config : Config) (bits : Nat)
  | copy (name newName : String)
  | close (name : String)
  | perform (name : String) (operation : Operation)
  | publishDue (name : String)
  /-- Add what an earlier version wrote to the database at a path. -/
  | build (path : String) (earlier : Earlier)
  /-- Look at the database at a path. -/
  | inspect (path : String)
  | writeFile (path : String) (content : List UInt8)
  | makeDirectories (path : String)
  /-- Ask whether there is a file or a directory at a path. -/
  | isThere (path : String)

/-- What a command that succeeds returns. -/
inductive Reply
  | done
  | truth (value : Bool)
  | answer (answer : Answer)
  | published (messages : List Message)
  /-- There is no file to look at. -/
  | missing
  | inventory (inventory : Inventory)
  deriving DecidableEq

/-- Why a command gives no reply. -/
inductive Refusal
  /-- No handle has the name. -/
  | noHandle
  /-- The handle was opened in a way that cannot be repeated. -/
  | notCopyable
  | failed (error : Error)
  deriving DecidableEq

/-- How a command went: the session it leaves, the records that were reported, and its reply. -/
structure Execution where
  session : Session
  reported : List Log.Record
  reply : Except Refusal Reply

/-- The records that reached the sink.  What changes the facade reports nothing. -/
def Execution.reached (execution : Execution) : List Log.Record :=
  execution.session.facade.passed execution.reported

/-- A command that is one step. -/
def Step.execution {α : Type} (step : Step α) (reply : α → Reply) : Execution :=
  ⟨step.session, step.log, (step.result.map reply).mapError .failed⟩

namespace Session

/-- Carry out an operation through a handle. -/
def perform (session : Session) (handle : Handle) (operation : Operation) : Step Answer :=
  match handle with
  | .discarding => ⟨session, [], Store.discard operation⟩
  | .on connection _ =>
      match session.load connection with
      | .error fault =>
          let met := if operation.changes && connection.access.readOnly then .readOnly else fault
          ⟨session, [], operation.require.bind fun () => .error (.of (.engine met))⟩
      | .ok db =>
          let outcome :=
            Store.performUnder (session.barrier? connection) session.clock db operation
          ⟨session.save connection db outcome.db, outcome.log, outcome.answer⟩

/-- Mark messages as published, one after the other. -/
def markAll (session : Session) (handle : Handle) : List Message → Step Unit
  | [] => ⟨session, [], .ok ()⟩
  | message :: rest =>
      let step := session.perform handle (.markPublished message)
      match step.result with
      | .error error => ⟨step.session, step.log, .error error⟩
      | .ok _ =>
          let later := markAll step.session handle rest
          { later with log := step.log ++ later.log }

/-- Publish what is due: the messages that are due, each marked as published. -/
def publishDue (session : Session) (handle : Handle) : Step (List Message) :=
  let step := session.perform handle .due
  match step.result with
  | .ok (.messages due) =>
      let marked := markAll step.session handle due
      ⟨marked.session, step.log ++ marked.log, marked.result.map fun () => due⟩
  | .ok _ => ⟨step.session, step.log, .ok []⟩
  | .error error => ⟨step.session, step.log, .error error⟩

/-- Change the database of a connection, and let the connection go. -/
def alterOnce (session : Session) (connection : Connection)
    (change : Relational.Database → Except Relational.Fault Relational.Database) : Step Unit :=
  match session.load connection with
  | .error fault => ⟨session.leave connection, [], .error (.of (.engine fault))⟩
  | .ok db =>
      match change db, session.barrier? connection with
      | .error fault, _ => ⟨session.leave connection, [], .error (.of (.engine fault))⟩
      | .ok _, some fault => ⟨session.leave connection, [], .error (.of (.engine fault))⟩
      | .ok changed, none =>
          ⟨(session.save connection db changed).leave connection, [], .ok ()⟩

/-- Add what an earlier version wrote to the database at a path.  Its directory is made if it is
missing, and what is not in a file is gone at once. -/
def build (session : Session) (path : String) (earlier : Earlier) : Step Unit :=
  let files :=
    match Host.Path.parent? path with
    | some parent => (session.files.makeDirectories parent).1
    | none => session.files
  let session := { session with files }
  let failed (session : Session) (fault : Relational.Fault) : Step Unit :=
    ⟨session, [], .error (.of (.engine fault))⟩
  match Target.ofPath path with
  | .error fault => failed session fault
  | .ok (.file name request) =>
      match session.files.fullPlace? name with
      | none => failed session (.cannotOpen (some path))
      | some place =>
          match session.provideFile path place request with
          | .error fault => failed session fault
          | .ok session =>
              match session.enter (Sidecar.reach place request) place request with
              | (session, .error fault) => failed session fault
              | (session, .ok connection) => session.alterOnce connection earlier.addTo
  | .ok _ => ⟨session, [], .ok ()⟩

/-- What the database at a path holds, if there is a file. -/
def inspect (session : Session) (path : String) : Except Error (Option Inventory) :=
  match session.files.resolve (Text.encode path) with
  | .error _ => .ok none
  | .ok place =>
      if session.files.isDirectory place then
        .error (.of (.engine (.cannotOpen (some path))))
      else ofEngine do return some (← Inventory.of (← Sidecar.latestIn session.files place))

/-- A command that reports nothing and is replied to. -/
def replied (session : Session) (reply : Reply) : Execution :=
  ⟨session, [], .ok reply⟩

/-- A command that is refused. -/
def refused (session : Session) (refusal : Refusal) : Execution :=
  ⟨session, [], .error refusal⟩

/-- A command that needs a handle. -/
def withHandle (session : Session) (name : String) (use : Handle → Execution) : Execution :=
  match session.handle? name with
  | some handle => use handle
  | none => session.refused .noHandle

/-- Carry out a command. -/
def execute (session : Session) : Command → Execution
  | .setClock now => replied { session with clock := now } .done
  | .logging action =>
      ⟨{ session with facade := action.apply session.facade }, action.records, .ok .done⟩
  | .isLogged level => session.replied (.truth (session.facade.enabled level))
  | .makeLogger level =>
      let (facade, installed) := session.facade.install level
      ⟨{ session with facade }, [],
        if installed then .ok .done else .error (.failed (.of .loggerInstalled))⟩
  | .openFile name path => (session.openFile name path).execution fun () => .done
  | .openMemory name bits => (session.openMemory name bits).execution fun () => .done
  | .openDiscarding name => (session.openDiscarding name).execution fun () => .done
  | .openConfigured name config bits =>
      (session.openConfigured name config bits).execution fun () => .done
  | .copy name newName =>
      session.withHandle name fun handle =>
        match handle.origin? with
        | some origin => (session.copy origin newName).execution fun () => .done
        | none => session.refused .notCopyable
  | .close name =>
      (session.close name).replied (.truth (session.handle? name).isSome)
  | .perform name operation =>
      session.withHandle name fun handle => (session.perform handle operation).execution .answer
  | .publishDue name =>
      session.withHandle name fun handle => (session.publishDue handle).execution .published
  | .build path earlier => (session.build path earlier).execution fun () => .done
  | .inspect path =>
      match session.inspect path with
      | .ok (some inventory) => session.replied (.inventory inventory)
      | .ok none => session.replied .missing
      | .error error => session.refused (.failed error)
  | .writeFile path content =>
      replied { session with files := (session.files.writeFile path (.bytes content)).1 } .done
  | .makeDirectories path =>
      replied { session with files := (session.files.makeDirectories path).1 } .done
  | .isThere path => session.replied (.truth (session.files.exists (Text.encode path)))

end Session

end MessageStore
