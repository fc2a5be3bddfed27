import MessageStore.Text.Pieces
import MessageStore.Text.Utf8

/-!
# Paths

Paths as texts, or as bytes, whose components are separated by slashes.  Paths of
the environment are bytes, which need not be text.  Joining puts a slash between
two paths unless one is there, and a path that begins with a slash replaces the
one that it is joined to.  The parent of a path leaves out its last component
together with the slashes and the lone dots around it.
-/

namespace MessageStore.Host.Path

open Text (joined pieces)

/-- Whether a path begins at the root. -/
def isAbsolute (path : String) : Bool :=
  path.toList.head? == some '/'

/-- The byte that separates components. -/
def slash : UInt8 :=
  '/'.toUInt8

/-- Whether a path that is given as bytes begins at the root. -/
def isRooted (path : List UInt8) : Bool :=
  path.head? == some slash

/-- One path continued by another. -/
def join (base path : List UInt8) : List UInt8 :=
  if isRooted path then path
  else if base = [] ∨ base.getLast? = some slash then base ++ path
  else base ++ slash :: path

/-- A piece that is no component: nothing, or a lone dot. -/
def isIdle (piece : List Char) : Bool :=
  piece == [] || piece == ['.']

/-- A component of a path, as bytes. -/
abbrev Component :=
  List UInt8

/-- The component that leads up. -/
def upward : Component :=
  Text.encode ".."

/-- Whether a piece of a path that is given as bytes is a component. -/
def isComponent (piece : List UInt8) : Bool :=
  piece ≠ [] ∧ piece ≠ ['.'.toUInt8]

/-- The components of a path that is given as bytes. -/
def componentsOf (path : List UInt8) : List Component :=
  (pieces slash path).filter isComponent

/-- The components of a path. -/
def components (path : String) : List Component :=
  componentsOf (Text.encode path)

/-- Whether a path says that it is a directory, by its end. -/
def endsInDirectory (path : List UInt8) : Bool :=
  (pieces slash path).getLast?.any fun piece => !isComponent piece

/-- What stands before the components of a path: a slash, or a dot that is a component itself. -/
def splitFront (path : List Char) : List Char × List Char :=
  match path with
  | '/' :: rest => (['/'], rest)
  | ['.'] => (['.'], [])
  | '.' :: '/' :: rest => (['.'], '/' :: rest)
  | _ => ([], path)

/-- Pieces without those at their end that are no components. -/
def dropIdle (parts : List (List Char)) : List (List Char) :=
  (parts.reverse.dropWhile isIdle).reverse

/-- The path without its last component.  The root and the empty path have no parent. -/
def parent? (path : String) : Option String :=
  let (front, body) := splitFront path.toList
  match dropIdle (pieces '/' body) with
  | [] => if front = ['.'] then some "" else none
  | kept => some (String.ofList (front ++ joined '/' (dropIdle kept.dropLast)))

/-- The byte at which a path holds the character U+0000, if it does. -/
def nulByte? (path : String) : Option Nat :=
  let before := path.toList.takeWhile (· ≠ '\x00')
  if before.length < path.length then some (String.ofList before).utf8ByteSize else none

/-- The greatest number of bytes in a component. -/
def longestComponent : Nat := 255

/-- The greatest number of bytes in a path. -/
def longestPath : Nat := 4095

end MessageStore.Host.Path
