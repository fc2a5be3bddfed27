import MessageStore.Host.FileTree

/-!
# Full places

The place that a name comes to when it is written out in full before anything is
opened: `..` takes away the component before it, whether that is there or not.
Only what is there is looked at: a file cannot be gone through, and a directory
has no entry with too long a name.  The place written out must not be too long.
-/

namespace MessageStore.Host

/-- The number of bytes of a place that is written out. -/
def Place.spelledLength (place : Place) : Nat :=
  place.foldl (fun length component => length + 1 + component.length) 0

namespace FileTree

/-- The greatest number of bytes of a full place and an ending of eight bytes. -/
def longestSpelled : Nat := 512

/-- Whether a component cannot be looked up behind a place. -/
def blocks (tree : FileTree) (here : Place) (component : Path.Component) : Bool :=
  match tree.node? here with
  | none => false
  | some node => !node.isDirectory || Path.longestComponent < component.length

/-- The place that one more component leads to. -/
def extend? (tree : FileTree) (here : Place) (component : Path.Component) : Option Place :=
  if component = Path.upward then some here.dropLast
  else if longestSpelled < here.spelledLength + component.length + 2 then none
  else if tree.blocks here component then none
  else some (here ++ [component])

/-- The full place of a name. -/
def fullPlace? (tree : FileTree) (name : List UInt8) : Option Place := do
  let start := if name.head? = some '/'.toUInt8 then [] else tree.working
  let place ← (Path.componentsOf name).foldlM tree.extend? start
  if 2 ≤ place.spelledLength ∧ place.spelledLength + 8 ≤ longestSpelled then some place else none

end FileTree

end MessageStore.Host
