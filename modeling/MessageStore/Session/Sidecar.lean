import MessageStore.Session.Handle

/-!
# Files beside a database

A database in a file can have three files beside it.  A journal guards a change
that is made in place; one that is left over belongs to a change that was not
finished, and is rolled back by taking it away.  A log keeps changes until nobody
uses the database any more, and an index goes with the log.  This module holds
what opening and leaving a database does to these files.
-/

namespace MessageStore

open Host (FileTree Node Place)
open Relational (Database Fault)

namespace Sidecar

/-- The place of a file beside another one, with the given ending. -/
def beside (place : Place) (ending : String) : Place :=
  match place.getLast? with
  | none => []
  | some name => place.dropLast ++ [name ++ Text.encode ending]

/-- The place of the journal of a database. -/
def journalOf (place : Place) : Place :=
  beside place "-journal"

/-- The place of the log of a database. -/
def logOf (place : Place) : Place :=
  beside place "-wal"

/-- The place of the index of the log of a database. -/
def indexOf (place : Place) : Place :=
  beside place "-shm"

/-- The content of an index. -/
def index : Node :=
  .bytes [0x18, 0xe2, 0x2d, 0x00]

/-- Whether a file holds nothing, so that it can become a database. -/
def isBlank : Node → Bool
  | .bytes content => content.length ≤ 1
  | .log none _ => true
  | _ => false

/-- Whether there is a blank file at a place. -/
def blankAt (files : FileTree) (place : Place) : Bool :=
  (files.node? place).any isBlank

/-- The database in a file, and whether it says that changes are kept in a log. -/
def databaseIn (files : FileTree) (place : Place) : Except Fault (Database × Bool) :=
  match files.node? place with
  | none => .error (.cannotOpen none)
  | some .directory => .error (.cannotOpen none)
  | some (.database db logged) => .ok (db, logged)
  | some node => if isBlank node then .ok (.empty, false) else .error .notADatabase

/-- The database after the changes in the log of a file, and whether the log holds all of it. -/
def changedIn (files : FileTree) (place : Place) : Option (Database × Bool) :=
  match files.node? (logOf place) with
  | some (.log changed complete) => changed.map (·, complete)
  | _ => none

/-- Whether a file does not matter because the log beside it holds the whole database. -/
def isReplaced (files : FileTree) (place : Place) : Bool :=
  (changedIn files place).any Prod.snd

/-- The database in a file after the changes in its log.  To a file that is no database, only a
log that holds all of a database can be added, and to a blank one none. -/
def latestIn (files : FileTree) (place : Place) : Except Fault Database :=
  match databaseIn files place, changedIn files place with
  | .ok (db, _), none => .ok db
  | .ok (db, _), some (changed, _) => .ok (if blankAt files place then db else changed)
  | .error _, some (changed, true) => .ok changed
  | .error fault, _ => .error fault

/-- The database that those see who use the log of a file.  The file may have been written over
since; what the log does not hold is then missing, unless it has been read before. -/
def loggedIn (files : FileTree) (place : Place) : Except Fault Database :=
  match changedIn files place, files.node? place with
  | some (changed, _), _ => .ok changed
  | none, some (.database db _) => .ok db
  | none, _ => .error .malformed

/-- Put a changed database into the log of a file. -/
def writeLog (files : FileTree) (place : Place) (db : Database) : FileTree :=
  let complete :=
    match changedIn files place with
    | some (_, complete) => complete
    | none => (databaseIn files place).toOption.any fun (before, _) => before = .empty
  files.put (logOf place) (.log (some db) complete)

/-- Whether no journal can be made. -/
def journalBlocked (files : FileTree) (place : Place) : Bool :=
  files.isDirectory (journalOf place) ||
    (journalOf place).any fun component => Host.Path.longestComponent < component.length

/-- Make a change in place. -/
def writeIn (files : FileTree) (place : Place) (db : Database) (logged : Bool) : FileTree :=
  (files.put place (.database db logged)).removeFile (journalOf place)

/-- The file into which the changes in its log have been brought.  If it has been written over,
and the log does not hold all of the database, it is none. -/
def folded (files : FileTree) (place : Place) : Option Node :=
  match changedIn files place, files.node? place with
  | none, node => node
  | some (db, _), some (.database _ logged) => some (.database db logged)
  | some (db, true), _ => some (.database db true)
  | some (_, false), _ => some (.bytes [0, 0])

/-- Bring the changes in a log into the file, and take the log and its index away. -/
def fold (files : FileTree) (place : Place) : FileTree :=
  let files :=
    match folded files place with
    | some node => files.put place node
    | none => files
  (files.removeFile (logOf place)).removeFile (indexOf place)

/-- What is known of a database while it is being opened. -/
structure Entry where
  files : FileTree
  access : Access
  /-- Whether others use the log. -/
  inUse : Bool

/-- A part of opening a database.  What it has done to the files stays when it fails. -/
abbrev Entering :=
  ExceptT Fault (StateM Entry)

/-- Change the files. -/
def alter (change : FileTree → FileTree) : Entering Unit :=
  modify fun entry => { entry with files := change entry.files }

/-- Roll back a change that was not finished, if a journal says that there is one.

A journal whose first byte is zero says so no more, and one beside a blank file never did; that
is taken away by whoever gets the lock for it. -/
def rollBack (place : Place) (byteLocks : Bool) : Entering Unit := do
  let { files, access, .. } ← get
  let journal := journalOf place
  match (files.node? journal).bind Node.firstByte? with
  | none =>
      if files.isDirectory journal ∧ ¬ blankAt files place then throw .inputOutput
  | some byte =>
      if blankAt files place then
        unless access.readOnly ∧ byteLocks do alter (·.removeFile journal)
      else
        unless byte = 0 do
          if access.readOnly then throw .readOnly
          alter (·.removeFile journal)

/-- Use the log of a database, and its index unless this program alone uses the file.

A database whose index cannot be changed can only be read. -/
def useLog (place : Place) : Entering Unit := do
  let { files, access, .. } ← get
  let missing := fun beside => (files.node? beside).isNone
  if missing (logOf place) then alter (·.put (logOf place) (.log none false))
  let indexed := access.backend ≠ .exclusive
  if indexed ∧ missing (indexOf place) then alter (·.put (indexOf place) index)
  let stuck := indexed && files.isDirectory (indexOf place)
  modify fun entry =>
    { entry with access := { access with
        journal := .logged
        readOnly := access.readOnly || stuck } }

/-- Use a log that is there. -/
def findLog (place : Place) (canLog : Bool) : Entering Unit := do
  let { files, inUse, .. } ← get
  let directory := files.isDirectory (logOf place)
  let present := directory || ((files.node? (logOf place)).bind Node.firstByte?).isSome
  if present then
    if blankAt files place then
      if directory then throw .inputOutput
      unless inUse do alter (·.removeFile (logOf place))
    else if !canLog ∨ directory then throw (.cannotOpen none)
    else useLog place

/-- Look into the file: it must be a database, and if it says that there is a log, that is used.
A log that holds all of a database makes up for a file that is none. -/
def lookInto (place : Place) (canLog : Bool) : Entering Unit := do
  let { files, access, .. } ← get
  match databaseIn files place with
  | .ok (_, true) =>
      if access.journal ≠ .logged then
        if canLog then useLog place else throw (.cannotOpen none)
  | .ok (_, false) => return
  | .error fault =>
      unless access.journal = .logged ∧ isReplaced files place do throw fault

/-- Let the file say from now on that changes are kept in a log. -/
def startLog (place : Place) : Entering Unit := do
  let { files, access, inUse } ← get
  if access.journal ≠ .logged then
    if access.readOnly then throw .readOnly
    if inUse then throw .locked
    if journalBlocked files place then throw (.cannotOpen none)
    let (db, _) ← databaseIn files place
    alter (writeIn · place db true)
    useLog place

/-- Whether bytes of the file are locked while a database is used, which a log needs. -/
def locksBytes (request : Request) : Bool :=
  !request.unlocked && (request.backend = .standard || request.backend = .exclusive)

/-- Get at the database in a file that is there. -/
def reach (place : Place) (request : Request) : Entering Unit := do
  if request.immutable then discard (databaseIn (← get).files place)
  else
    let canLog := locksBytes request
    rollBack place canLog
    findLog place canLog
    lookInto place canLog

/-- Get at the database in a file that is there, and keep changes in a log from now on. -/
def reachLogged (place : Place) (request : Request) : Entering Unit := do
  reach place request
  if !request.immutable && locksBytes request then startLog place

/-- The access that a request begins with. -/
def accessFor (request : Request) : Access :=
  { backend := request.backend
    journal := if request.immutable then .none else .direct
    readOnly := request.readsOnly
    shared := request.shared }

/-- Open a database as told: what is known afterwards, and whether it could be opened. -/
def opened (way : Entering Unit) (files : FileTree) (request : Request) (inUse : Bool) :
    Except Fault Unit × Entry :=
  way.run.run ⟨files, accessFor request, inUse⟩

end Sidecar

end MessageStore
