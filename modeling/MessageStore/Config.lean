import MessageStore.Json.Printer
import MessageStore.Json.Value
import MessageStore.Text.Blank

/-!
# Configurations

Where messages are kept: in a file, in memory, or nowhere.  A configuration is
written as a JSON object with a `mode` and, for a file, a `path`; and it can be
given by the name of a file alone, as the environment does.
-/

namespace MessageStore

open Json (Fault Mismatch Reader Value)

/-- Where messages are kept. -/
inductive Config
  /-- In a file, and durably. -/
  | file (path : String)
  /-- In memory, until the last handle is closed. -/
  | memory
  /-- Nowhere. -/
  | discard
  deriving DecidableEq, Repr

namespace Config

/-- Messages are kept in memory unless something else is configured. -/
def standard : Config :=
  memory

/-- The kind of a place, without its path. -/
inductive Mode
  | file
  | memory
  | discard
  deriving DecidableEq, Repr

/-- The modes with their names. -/
def Mode.named : List (String × Mode) :=
  [("file", .file), ("memory", .memory), ("nop", .discard)]

/-- The mode that a value stands for, by its name or by its place in the list of modes. -/
def Mode.ofValue : Value → Except Mismatch Mode
  | .string name =>
      match named.lookup name with
      | some mode => .ok mode
      | none => .error (.unknownVariant name (named.map Prod.fst))
  | .number (.natural place) =>
      match named[place]? with
      | some (_, mode) => .ok mode
      | none => .error .invalidValue
  | _ => .error .invalidType

/-- The path that a value stands for. -/
def pathOfValue : Value → Except Mismatch String
  | .string path => .ok path
  | _ => .error .invalidType

/-- The decoded value of the only member of the given name, when one may have been found
already. -/
def soleFrom {α : Type} (name : String) (decode : Value → Except Mismatch α) :
    Option α → List (String × Value) → Except Mismatch α
  | some found, [] => .ok found
  | none, [] => .error (.missingField name)
  | found, (key, value) :: members =>
      if key = name then
        if found.isSome then .error (.duplicateField name)
        else do soleFrom name decode (some (← decode value)) members
      else soleFrom name decode found members

/-- The decoded value of the only member of the given name. -/
def sole {α : Type} (name : String) (decode : Value → Except Mismatch α)
    (members : List (String × Value)) : Except Mismatch α :=
  soleFrom name decode none members

/-- The configuration that the members of an object stand for.  Members that the mode does
not need are ignored. -/
def ofMembers (members : List (String × Value)) : Except Mismatch Config := do
  match ← sole "mode" Mode.ofValue members with
  | .file => return file (← sole "path" pathOfValue members)
  | .memory => return memory
  | .discard => return discard

/-- Read a configuration.  The whole object is read before its members are looked at. -/
def read : Reader Config := fun text =>
  match Json.next? text with
  | none => .error .truncated
  | some (c, _) =>
      if c = '\x7b' then
        match Json.value Json.greatestDepth text with
        | .error fault => .error fault
        | .ok (.object members, rest) =>
            match ofMembers members with
            | .error mismatch => .error (.mismatch mismatch)
            | .ok config => .ok (config, rest)
        | .ok _ => .error (.mismatch .invalidType)
      else .error (Json.wrongKind text)

/-- The JSON text of a configuration. -/
def write : Config → List Char
  | file path =>
      Json.writeObject [("mode", Json.writeString "file"), ("path", Json.writeString path)]
  | memory => Json.writeObject [("mode", Json.writeString "memory")]
  | discard => Json.writeObject [("mode", Json.writeString "nop")]

/-- The configuration given by the name of a file.  Blanks around it do not count, and an empty
name stands for keeping nothing. -/
def ofFileName (name : String) : Config :=
  let path := Text.strip name.toList
  if path = [] then discard else file (String.ofList path)

end Config

end MessageStore
