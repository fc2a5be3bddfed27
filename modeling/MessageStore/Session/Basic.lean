import MessageStore.Log
import MessageStore.Instant.Basic
import MessageStore.Session.Sidecar

/-!
# Sessions

The state of a program that uses stores through named handles: the clock, what
records are reported to, the files, and the datasets in memory.  A dataset in memory lives while
a handle is on it, and the log of a file while a handle uses it.
-/

namespace MessageStore

open Host (FileTree Place)
open Relational (Database)

/-- The state of a session. -/
structure Session where
  clock : Instant
  /-- What records are reported to. -/
  facade : Log.Facade
  files : FileTree
  /-- The datasets in memory. -/
  memories : List (Dataset × Database)
  handles : List (String × Handle)
  /-- How many datasets without a name have been made. -/
  numbered : Nat
  deriving DecidableEq

namespace Session

/-- A session at the given time in the given working directory: a sink is attached, and every
record reaches it. -/
def start (clock : Instant) (working : Place) : Session :=
  { clock
    facade := Log.Action.apply (.started .trace) (.setAttached true)
    files := .withWorking working
    memories := []
    handles := []
    numbered := 0 }

/-- The handle of the given name. -/
def handle? (session : Session) (name : String) : Option Handle :=
  session.handles.lookup name

/-- The data that a connection shows. -/
def load (session : Session) (connection : Connection) : Except Relational.Fault Database :=
  match connection.dataset with
  | .file place =>
      match connection.access.journal with
      | .logged => Sidecar.loggedIn session.files place
      | .direct =>
          match Sidecar.databaseIn session.files place with
          | .ok (_, true) => .error (.cannotOpen none)
          | data => data.map Prod.fst
      | .none => (Sidecar.databaseIn session.files place).map Prod.fst
  | dataset => .ok ((session.memories.lookup dataset).getD .empty)

/-- Keep data in a dataset in memory. -/
def saveMemory (session : Session) (dataset : Dataset) (db : Database) : Session :=
  { session with
    memories := (dataset, db) :: session.memories.filter fun entry => entry.1 ≠ dataset }

/-- Keep data that has changed. -/
def saveFile (session : Session) (place : Place) (journal : Journal) (db : Database) : Session :=
  match journal with
  | .logged => { session with files := Sidecar.writeLog session.files place db }
  | .direct => { session with files := Sidecar.writeIn session.files place db false }
  | .none => session

/-- Keep the data that a connection had shown before and shows now. -/
def save (session : Session) (connection : Connection) (before now : Database) : Session :=
  match connection.dataset with
  | .file place =>
      if before = now then session else session.saveFile place connection.access.journal now
  | dataset => session.saveMemory dataset now

/-- What every change through a connection meets, if anything does. -/
def barrier? (session : Session) (connection : Connection) : Option Relational.Fault :=
  if connection.access.readOnly then some .readOnly
  else
    match connection.dataset, connection.access.journal with
    | .file place, .direct =>
        if Sidecar.journalBlocked session.files place then some (.cannotOpen none) else none
    | _, _ => none

/-- Let the datasets in memory go that no handle is on. -/
def release (session : Session) : Session :=
  { session with
    memories := session.memories.filter fun entry =>
      session.handles.any fun (_, handle) => handle.dataset? == some entry.1 }

/-- Whether a handle uses the log of a file. -/
def usesLog (session : Session) (place : Place) : Bool :=
  session.handles.any fun (_, handle) =>
    handle.connection?.any fun connection =>
      connection.dataset = .file place && connection.access.journal = .logged

/-- Let a connection go that no handle has.  The last that used a log brings the changes into the
file, if it may write. -/
def leave (session : Session) (connection : Connection) : Session :=
  match connection.dataset, connection.access.journal with
  | .file place, .logged =>
      if connection.access.readOnly || session.usesLog place then session
      else { session with files := Sidecar.fold session.files place }
  | _, _ => session.release

/-- Let the handle of a name go. -/
def close (session : Session) (name : String) : Session :=
  let rest := { session with handles := session.handles.filter fun entry => entry.1 ≠ name }
  match (session.handle? name).bind Handle.connection? with
  | some connection => rest.leave connection
  | none => rest

/-- Put a handle under a name, in the place of any other. -/
def attach (session : Session) (name : String) (handle : Handle) : Session :=
  let rest := session.handles.filter fun entry => entry.1 ≠ name
  let attached := { session with handles := (name, handle) :: rest }
  match (session.handle? name).bind Handle.connection? with
  | some connection => attached.leave connection
  | none => attached

/-- A dataset in memory for one handle, which no handle is on yet. -/
def newMemory (session : Session) : Session × Nat :=
  ({ session with numbered := session.numbered + 1 }, session.numbered)

end Session

end MessageStore
