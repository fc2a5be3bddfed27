import MessageStore.Session.Locator

/-!
# What paths mean to the store

Most paths name a file.  The empty path and `:memory:` ask for data that nobody
else can reach.  A path that begins with `file:` is a locator: its parameters
choose a backend, restrict the access, and can ask for data in memory that is
shared under a name.  So does the locator of a store in memory, whose name is made
of random bits.
-/

namespace MessageStore

open Relational (Fault)

/-- The ways to get at files. -/
inductive Backend
  | standard
  /-- Only this program uses the files. -/
  | exclusive
  /-- Files are not locked. -/
  | unlocked
  /-- Files are locked by other files. -/
  | lockFiles
  /-- What is called a file is in memory. -/
  | memory
  deriving DecidableEq, Repr

/-- The names of the backends. -/
def Backend.named : List (String × Backend) :=
  [("unix", .standard), ("unix-excl", .exclusive), ("unix-none", .unlocked),
    ("unix-dotfile", .lockFiles), ("memdb", .memory)]

/-- What may be done with a database. -/
inductive Rights
  | read
  | write
  /-- Writing, and making the file if there is none. -/
  | create
  /-- Anything, in memory. -/
  | memory
  deriving DecidableEq, Repr

namespace Rights

/-- The names of the rights. -/
def named : List (String × Rights) :=
  [("ro", .read), ("rw", .write), ("rwc", .create), ("memory", .memory)]

/-- Whether rights can be restricted to others.  Data in memory can be left for a file. -/
def covers : Rights → Rights → Bool
  | _, memory => true
  | memory, _ => true
  | create, _ => true
  | write, create => false
  | write, _ => true
  | read, other => other = read

end Rights

/-- How a database is to be opened. -/
structure Request where
  backend : Backend := .standard
  rights : Rights := .create
  /-- Handles that ask for it share one connection. -/
  shared : Bool := false
  /-- Nobody changes the file. -/
  immutable : Bool := false
  unlocked : Bool := false
  /-- The file whose permissions a new file gets. -/
  model : Option (List UInt8) := none
  deriving DecidableEq, Repr

namespace Request

/-- A request after one parameter of a locator. -/
def apply (request : Request) (parameter : List UInt8 × List UInt8) : Except Fault Request :=
  let (name, value) := parameter
  let text := Text.decodeLossy value
  if name = Text.encode "cache" then
    if value = Text.encode "shared" then .ok { request with shared := true }
    else if value = Text.encode "private" then .ok { request with shared := false }
    else .error (.noSuchSharing text)
  else if name = Text.encode "mode" then
    match Rights.named.lookup text with
    | none => .error (.noSuchAccess text)
    | some rights =>
        if request.rights.covers rights then .ok { request with rights }
        else .error (.accessDenied text)
  else .ok request

/-- The backend that a locator names last. -/
def backendOf (locator : Locator) : Except Fault Backend :=
  match (locator.parameters.filter fun parameter => parameter.1 = Text.encode "vfs").getLast? with
  | none => .ok .standard
  | some (_, value) =>
      match Backend.named.lookup (Text.decodeLossy value) with
      | some backend => .ok backend
      | none => .error (.noSuchBackend (Text.decodeLossy value))

/-- The request of a locator. -/
def ofLocator (locator : Locator) : Except Fault Request := do
  let request ← locator.parameters.foldlM apply {}
  return { request with
    backend := ← backendOf locator
    immutable := locator.asksFor "immutable"
    unlocked := locator.asksFor "nolock"
    model := locator.value? "modeof" }

/-- Whether the database may only be read. -/
def readsOnly (request : Request) : Bool :=
  request.rights = .read || request.immutable

end Request

/-- What a path asks for. -/
inductive Target
  /-- Data that nobody else can reach. -/
  | own (readOnly : Bool)
  /-- Data in memory under a name. -/
  | memory (name : List UInt8) (request : Request)
  | file (name : List UInt8) (request : Request)
  deriving DecidableEq, Repr

namespace Target

/-- The name of data in memory that is not a file's. -/
def memoryName : String := ":memory:"

/-- The greatest number of bytes in the name of data that is called a file but is in memory. -/
def longestName : Nat := 1016

/-- Whether a name is one that all handles of the memory backend share. -/
def isCommon (name : List UInt8) : Bool :=
  1 < name.length && (name.head? == some '/'.toUInt8 || name.head? == some '\\'.toUInt8)

/-- What a locator asks for. -/
def ofLocator (path : String) (locator : Locator) : Except Fault Target := do
  let request ← Request.ofLocator locator
  let name := locator.name
  if name = [] then return own (request.rights = .read)
  else if name = Text.encode memoryName ∨ request.rights = .memory then
    if request.shared then return memory name { request with immutable := false }
    else return own (request.rights = .read)
  else if request.backend = .memory then
    if longestName < name.length then throw (.cannotOpen (some path))
    else if request.shared ∨ isCommon name then return memory name request
    else return own request.readsOnly
  else return file name request

/-- What a path asks for. -/
def ofPath (path : String) : Except Fault Target :=
  if path = "" ∨ path = memoryName then .ok (own false)
  else
    match path.toList with
    | 'f' :: 'i' :: 'l' :: 'e' :: ':' :: text => do ofLocator path (← Locator.parse text)
    | _ => .ok (file (Text.encode path) {})

/-- The name of a store in memory that is made of random bits. -/
def nameOfBits (bits : Nat) : String :=
  "beacon-" ++ String.ofList (Text.uuidOfBits bits)

/-- The locator of a store in memory, which all handles share that are opened by it. -/
def memoryLocator (bits : Nat) : String :=
  "file:" ++ nameOfBits bits ++ "?mode=memory&cache=shared"

end Target

end MessageStore
