import MessageStore.Binary64.Basic

/-!
# Cells

The dynamically typed values that tables hold.  Cells are ordered across their
classes: nulls, then numbers, then texts, then blobs.  Integers and reals are
compared by their exact values, texts by code points, which is the order of
their UTF-8 bytes, and blobs by bytes.  Texts are well-formed Unicode: a file may
hold texts that are not, and those are not covered.
-/

namespace MessageStore.Relational

/-- A value in a table. -/
inductive Cell
  | null
  | integer (value : Int64)
  | real (value : Binary64)
  | text (value : String)
  | blob (bytes : List UInt8)
  deriving DecidableEq

namespace Cell

/-- The storage class of a cell. -/
inductive Kind
  | null
  | integer
  | real
  | text
  | blob
  deriving DecidableEq, Repr

/-- The name of a storage class. -/
def Kind.name : Kind → String
  | null => "null"
  | integer => "integer"
  | real => "real"
  | text => "text"
  | blob => "blob"

/-- The storage class of a cell. -/
def kind : Cell → Kind
  | .null => .null
  | .integer _ => .integer
  | .real _ => .real
  | .text _ => .text
  | .blob _ => .blob

/-- The cell of a truth value: 1 or 0. -/
def ofBool (value : Bool) : Cell :=
  .integer (if value then 1 else 0)

/-- The order of integers. -/
def orderInt (first second : Int) : Ordering :=
  if first < second then .lt else if first = second then .eq else .gt

/-- The order of texts, by code points. -/
def orderText (first second : String) : Ordering :=
  if first < second then .lt else if first = second then .eq else .gt

/-- The order of byte strings. -/
def orderBytes : List UInt8 → List UInt8 → Ordering
  | [], [] => .eq
  | [], _ :: _ => .lt
  | _ :: _, [] => .gt
  | x :: xs, y :: ys => if x < y then .lt else if x = y then orderBytes xs ys else .gt

/-- The order of cells. -/
def order : Cell → Cell → Ordering
  | .null, .null => .eq
  | .null, _ => .lt
  | _, .null => .gt
  | .integer x, .integer y => orderInt x.toInt y.toInt
  | .integer x, .real y => Binary64.order (.exact x.toInt) y
  | .real x, .integer y => Binary64.order x (.exact y.toInt)
  | .real x, .real y => Binary64.order x y
  | .integer _, _ => .lt
  | .real _, _ => .lt
  | _, .integer _ => .gt
  | _, .real _ => .gt
  | .text x, .text y => orderText x y
  | .text _, .blob _ => .lt
  | .blob _, .text _ => .gt
  | .blob x, .blob y => orderBytes x y

/-- The order of lists of cells, the first difference deciding. -/
def orderKeys : List Cell → List Cell → Ordering
  | x :: xs, y :: ys => (order x y).then (orderKeys xs ys)
  | [], [] => .eq
  | [], _ :: _ => .lt
  | _ :: _, [] => .gt

end Cell

end MessageStore.Relational
