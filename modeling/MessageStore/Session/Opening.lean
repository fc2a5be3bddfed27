import MessageStore.Config
import MessageStore.Host.FullPlace
import MessageStore.Schema.Migration
import MessageStore.Session.Basic
import MessageStore.Text.Quoted

/-!
# Opening handles

A handle is opened on a path, on a store in memory under a new name, or as a
configuration asks.  Opening on a path makes the directory of the file and the
file if they are missing, and every opening brings the dataset to the current
schema, also that of a copy.  A copy is opened by the path or the locator of the
handle: on a path that asks for data of its own it gets other data than that.
Handles that ask for it share one connection.
-/

namespace MessageStore

open Host (Place)

/-- How a step of a session went: the state it leaves, what it reported, and its result. -/
structure Step (α : Type) where
  session : Session
  log : List Log.Record
  result : Except Error α

namespace Session

/-- Bring the data of a connection to the current schema. -/
def setup (session : Session) (connection : Connection) : Step Connection :=
  match session.load connection with
  | .error fault => ⟨session, [], .error (.of (.engine fault))⟩
  | .ok db =>
      let run := Schema.setupUnder (session.barrier? connection) db
      ⟨session.save connection db run.db, run.log,
        during "Failed to set up cache database schema" (run.outcome.map fun () => connection)⟩

/-- Set up a connection that has just been made.  If that fails, the connection is let go. -/
def settle (session : Session) (connection : Connection) : Step Connection :=
  let step := session.setup connection
  match step.result with
  | .ok _ => step
  | .error _ => { step with session := step.session.leave connection }

/-- The access that handles already have that share a dataset. -/
def sharedAccess? (session : Session) (dataset : Dataset) (backend : Backend) : Option Access :=
  session.handles.findSome? fun (_, handle) =>
    (handle.connection?.filter fun connection =>
      connection.dataset = dataset && connection.access.shared &&
        connection.access.backend = backend).map (·.access)

/-- The access to a dataset: the one of handles that share it, if that is asked for, or a new
one. -/
def joinedAccess? (session : Session) (dataset : Dataset) (request : Request) : Option Access :=
  if request.shared then session.sharedAccess? dataset request.backend else none

/-- Open the database in a file that is there as told.  If that fails, it is let go. -/
def enter (session : Session) (way : Sidecar.Entering Unit) (place : Place) (request : Request) :
    Session × Except Relational.Fault Connection :=
  let (outcome, entry) := Sidecar.opened way session.files request (session.usesLog place)
  let session := { session with files := entry.files }
  let connection : Connection := ⟨.file place, entry.access⟩
  match outcome with
  | .ok () => (session, .ok connection)
  | .error fault => (session.leave connection, .error fault)

/-- A file that a request can use, made if it is missing and may be made. -/
def provideFile (session : Session) (path : String) (place : Place) (request : Request) :
    Except Relational.Fault Session := do
  let files := session.files
  if let some model := request.model then
    if !files.hasNamed model then throw .inputOutput
  match files.node? place with
  | some .directory =>
      throw (if request.rights = .read then .inputOutput else .cannotOpen (some path))
  | some _ => return session
  | none =>
      if request.rights = .create ∧ files.isDirectory place.dropLast then
        return { session with files := files.put place (.bytes []) }
      else throw (.cannotOpen (some path))

/-- Open a file: what was being done when it failed is part of the error only until the file is
there. -/
def connectFile (session : Session) (activity path : String) (name : List UInt8)
    (request : Request) : Step Connection :=
  let fail (fault : Relational.Fault) : Step Connection :=
    ⟨session, [], during activity (.error (.of (.engine fault)))⟩
  match session.files.fullPlace? name with
  | none => fail (.cannotOpen (some path))
  | some place =>
      match session.joinedAccess? (.file place) request with
      | some access => session.settle ⟨.file place, access⟩
      | none =>
          match session.provideFile path place request with
          | .error fault => fail fault
          | .ok session =>
              match session.enter (Sidecar.reachLogged place request) place request with
              | (session, .ok connection) => session.settle connection
              | (session, .error fault) => ⟨session, [], .error (.of (.engine fault))⟩

/-- Open the dataset that a target stands for. -/
def connectTarget (session : Session) (activity path : String) : Target → Step Connection
  | .own readOnly =>
      let (session, number) := session.newMemory
      session.settle ⟨.numbered number, { readOnly }⟩
  | .memory name request =>
      let dataset : Dataset := .named request.backend name
      let access := (session.joinedAccess? dataset request).getD
        { backend := request.backend, readOnly := request.readsOnly, shared := request.shared }
      session.settle ⟨dataset, access⟩
  | .file name request => session.connectFile activity path name request

/-- Open the dataset that a path or a locator asks for. -/
def connectBy (session : Session) (activity path : String) : Step Connection :=
  let fail (cause : Cause) : Step Connection :=
    ⟨session, [], during activity (.error (.of cause))⟩
  match Host.Path.nulByte? path with
  | some byte => fail (.nulInPath byte)
  | none =>
      match Target.ofPath path with
      | .error fault => fail (.engine fault)
      | .ok target => session.connectTarget activity path target

/-- Open the dataset that a path asks for. -/
def connectPath (session : Session) (path : String) : Step Connection :=
  session.connectBy ("Failed to open cache database at " ++ Text.quoted path) path

/-- Open the dataset of an origin. -/
def connect (session : Session) : Origin → Step Connection
  | .path path => session.connectPath path
  | .memory bits =>
      let locator := Target.memoryLocator bits
      session.connectBy ("Failed to open in-memory cache " ++ locator) locator

/-- Open the dataset that a path asks for; its directory is made if it is missing. -/
def openPath (session : Session) (path : String) : Step Connection :=
  match (Host.Path.parent? path).filter (· ≠ "") with
  | none => session.connectPath path
  | some parent =>
      let (files, made) := session.files.makeDirectories parent
      let session := { session with files }
      match made with
      | .error fault =>
          ⟨session, [],
            during ("Failed to create cache directory " ++ parent) (.error (.of (.file fault)))⟩
      | .ok () => session.connectPath path

/-- Put a handle under a name if its dataset could be opened. -/
def attachOpened (name : String) (origin : Option Origin) (step : Step Connection) : Step Unit :=
  match step.result with
  | .ok connection => ⟨step.session.attach name (.on connection origin), step.log, .ok ()⟩
  | .error error => ⟨step.session, step.log, .error error⟩

/-- Open a handle on a path. -/
def openFile (session : Session) (name path : String) : Step Unit :=
  attachOpened name (some (.path path)) (session.openPath path)

/-- Open a handle on the store in memory whose name is made of random bits. -/
def openMemory (session : Session) (name : String) (bits : Nat) : Step Unit :=
  attachOpened name (some (.memory bits)) (session.connect (.memory bits))

/-- Open a handle on a store that keeps nothing. -/
def openDiscarding (session : Session) (name : String) : Step Unit :=
  ⟨session.attach name .discarding, [], .ok ()⟩

/-- What opening by a configuration reports. -/
def opening : Config → Log.Record
  | .file path => ⟨.info, Log.storage, "Using message cache file " ++ path⟩
  | .memory => ⟨.info, Log.storage, "Using in-memory message cache"⟩
  | .discard => ⟨.info, Log.storage, "Message cache disabled"⟩

/-- Open the handle that a configuration asks for, on a store in memory if so under a name that is
made of random bits.  It cannot be copied. -/
def openConfigured (session : Session) (name : String) (config : Config) (bits : Nat) :
    Step Unit :=
  let step :=
    match config with
    | .file path => attachOpened name none (session.openPath path)
    | .memory => attachOpened name none (session.connect (.memory bits))
    | .discard => session.openDiscarding name
  { step with log := opening config :: step.log }

/-- Open a handle in the way that another one was opened. -/
def copy (session : Session) (origin : Origin) (name : String) : Step Unit :=
  attachOpened name (some origin) (session.connect origin)

end Session

end MessageStore
