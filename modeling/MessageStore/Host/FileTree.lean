import MessageStore.Host.FileFault
import MessageStore.Host.Path
import MessageStore.Relational.Database

/-!
# File trees

Directories and files under their absolute places.  A file holds bytes, a
database, or the changes to a database that is beside it.  A path is followed
component by component: what it passes through must be there and be a directory,
`..` leads up, and a slash at the end asks for a directory.  There are no links,
and no permissions: every directory may be searched, and everything be read and
written.
-/

namespace MessageStore.Host

open Relational (Database)

/-- What stands at a place. -/
inductive Node
  | directory
  | bytes (content : List UInt8)
  /-- A database, and whether it says that changes to it are kept in a log. -/
  | database (content : Database) (logged : Bool)
  /-- The log of a database: the database after the changes, if there are any, and whether the log
  holds all of it. -/
  | log (changed : Option Database) (complete : Bool)
  deriving DecidableEq

namespace Node

/-- Whether a node is a directory. -/
def isDirectory : Node → Bool
  | directory => true
  | _ => false

/-- The first byte of a file that is not empty. -/
def firstByte? : Node → Option UInt8
  | directory => none
  | bytes content => content.head?
  | database _ _ => some 0x53
  | log none _ => none
  | log (some _) _ => some 0x37

end Node

/-- The components that lead from the root to a file or a directory. -/
abbrev Place :=
  List Path.Component

/-- Directories and files. -/
structure FileTree where
  entries : List (Place × Node)
  /-- Where relative paths start. -/
  working : Place
  deriving DecidableEq

namespace FileTree

/-- The tree whose only directories are the working directory and those around it. -/
def withWorking (working : Place) : FileTree :=
  ⟨(List.range working.length).map fun depth => (working.take (depth + 1), .directory), working⟩

/-- What stands at a place; the root is always a directory. -/
def node? (tree : FileTree) (place : Place) : Option Node :=
  if place = [] then some .directory else tree.entries.lookup place

/-- Put a node at a place. -/
def put (tree : FileTree) (place : Place) (node : Node) : FileTree :=
  { tree with entries := (place, node) :: tree.entries.filter fun entry => entry.1 ≠ place }

/-- Take away what stands at a place. -/
def remove (tree : FileTree) (place : Place) : FileTree :=
  { tree with entries := tree.entries.filter fun entry => entry.1 ≠ place }

/-- Whether there is a directory at a place. -/
def isDirectory (tree : FileTree) (place : Place) : Bool :=
  (tree.node? place).any Node.isDirectory

/-- Whether there is a file at a place. -/
def isFile (tree : FileTree) (place : Place) : Bool :=
  (tree.node? place).any fun node => !node.isDirectory

/-- Take away the file at a place; a directory stays. -/
def removeFile (tree : FileTree) (place : Place) : FileTree :=
  if tree.isFile place then tree.remove place else tree

/-- Where a path starts. -/
def start (tree : FileTree) (path : String) : Place :=
  if Path.isAbsolute path then [] else tree.working

/-- Where a path starts that is given as bytes. -/
def startOf (tree : FileTree) (path : List UInt8) : Place :=
  if Path.isRooted path then [] else tree.working

/-- The place that one component leads to. -/
def enter (tree : FileTree) (here : Place) (component : Path.Component) :
    Except FileFault Place :=
  if !tree.isDirectory here then .error .notADirectory
  else if component = Path.upward then .ok here.dropLast
  else if Path.longestComponent < component.length then .error .nameTooLong
  else .ok (here ++ [component])

/-- The place that components lead to, all of which must be there. -/
def follow (tree : FileTree) (here : Place) : List Path.Component → Except FileFault Place
  | [] => .ok here
  | component :: rest => do
      let next ← tree.enter here component
      if (tree.node? next).isNone then throw .notFound
      tree.follow next rest

/-- A path must not hold the character U+0000 nor be too long. -/
def requireUsable (path : String) : Except FileFault Unit :=
  if (Path.nulByte? path).isSome then .error .nulInPath
  else if Path.longestPath < path.utf8ByteSize then .error .nameTooLong
  else .ok ()

/-- A path that is given as bytes must not hold the byte zero nor be too long. -/
def requireFit (path : List UInt8) : Except FileFault Unit :=
  if 0 ∈ path then .error .nulInPath
  else if Path.longestPath < path.length then .error .nameTooLong
  else .ok ()

/-- The place of a path that must be there. -/
def resolve (tree : FileTree) (path : List UInt8) : Except FileFault Place := do
  requireFit path
  if path = [] then throw .notFound
  let place ← tree.follow (tree.startOf path) (Path.componentsOf path)
  if Path.endsInDirectory path ∧ ¬ tree.isDirectory place then throw .notADirectory
  return place

/-- Whether there is a file or a directory under a name that is given as bytes. -/
def hasNamed (tree : FileTree) (name : List UInt8) : Bool :=
  name ≠ [] && (tree.follow (tree.startOf name) (Path.componentsOf name)).toBool

/-- Whether there is a file or a directory at a path. -/
def «exists» (tree : FileTree) (path : List UInt8) : Bool :=
  (tree.resolve path).toBool

/-- The text in UTF-8 that the file at a path holds. -/
def readText (tree : FileTree) (path : List UInt8) : Except FileFault String := do
  let place ← tree.resolve path
  match tree.node? place with
  | none => throw .notFound
  | some .directory => throw .isADirectory
  | some (.database _ _) => throw .notText
  | some (.log _ _) => throw .notText
  | some (.bytes content) =>
      match String.fromUTF8? ⟨content.toArray⟩ with
      | some text => return text
      | none => throw .notText

/-- Make directories on the way from a place, where none is there.  Those that were made stay
when a later one cannot be made.

From the first directory that has to be made on, and at the end of the way, a file is in the place
of a directory to be made; before that, it is on the way to one. -/
def makeDirectoriesFrom (tree : FileTree) (made : Bool) (here : Place) :
    List Path.Component → FileTree × Except FileFault Unit
  | [] => (tree, .ok ())
  | component :: rest =>
      match tree.enter here component with
      | .error fault => (tree, .error fault)
      | .ok next =>
          match tree.node? next with
          | none => (tree.put next .directory).makeDirectoriesFrom true next rest
          | some node =>
              if !node.isDirectory ∧ (made ∨ rest = []) then (tree, .error .alreadyExists)
              else tree.makeDirectoriesFrom made next rest

/-- Make the directory at a path, and those on the way to it. -/
def makeDirectories (tree : FileTree) (path : String) : FileTree × Except FileFault Unit :=
  match requireUsable path with
  | .error fault => (tree, .error fault)
  | .ok () => tree.makeDirectoriesFrom false (tree.start path) (Path.components path)

/-- The place at which a file can be made: its directory is there. -/
def placeForFile (tree : FileTree) (path : String) : Except FileFault Place := do
  requireUsable path
  let components := Path.components path
  match components.getLast? with
  | none => throw .isADirectory
  | some name =>
      let directory ← tree.follow (tree.start path) components.dropLast
      tree.enter directory name

/-- Make a file with the given content, and the directories on the way to it. -/
def writeFile (tree : FileTree) (path : String) (content : Node) :
    FileTree × Except FileFault Unit :=
  let (tree, made) :=
    match Path.parent? path with
    | some parent => tree.makeDirectories parent
    | none => (tree, .ok ())
  match made, tree.placeForFile path with
  | .error fault, _ => (tree, .error fault)
  | _, .error fault => (tree, .error fault)
  | _, .ok place =>
      if tree.isDirectory place then (tree, .error .isADirectory)
      else (tree.put place content, .ok ())

end FileTree

end MessageStore.Host
