import MessageStore.Json.Members

/-!
# Records

A record is written as an object, whose members stand in any order, or as the
array of its field values in the order of declaration.  A form lists the fields
of a record with their names, readers and defaults.  Members of an object that
are no fields are skipped, a field that is given twice is a fault before its
second value is looked at, and fields without default that are missing are
reported when the object has ended, the first in the order of declaration.
-/

namespace MessageStore.Json

/-- The form of the records of type `α`. -/
structure Form (Field α : Type) where
  /-- The fields in the order of declaration. -/
  fields : List Field
  every : ∀ field, field ∈ fields
  /-- The name of a field in an object. -/
  name : Field → String
  /-- The type of a field's values. -/
  Value : Field → Type
  reader : (field : Field) → Reader (Value field)
  /-- The value of a field that is not given, for a field that may be left out. -/
  default? : (field : Field) → Option (Value field)
  /-- The record with the given field values. -/
  make : ((field : Field) → Value field) → α

namespace Form

variable {Field α : Type} [DecidableEq Field] (form : Form Field α)

/-- The values of the fields that have been read. -/
abbrev Draft :=
  (field : Field) → Option (form.Value field)

/-- Nothing has been read. -/
def blank : form.Draft :=
  fun _ => none

/-- A field has been read. -/
def put (draft : form.Draft) (field : Field) (value : form.Value field) : form.Draft :=
  fun other => if h : field = other then some (h ▸ value) else draft other

/-- The value that has been read for a field, or else its default. -/
def filled (draft : form.Draft) (field : Field) : Option (form.Value field) :=
  (draft field).or (form.default? field)

/-- The record of a draft in which no field is missing. -/
def complete (draft : form.Draft) : Except Fault α :=
  match h : form.fields.find? fun field => (form.filled draft field).isNone with
  | some field => .error (.mismatch (.missingField (form.name field)))
  | none =>
      .ok (form.make fun field =>
        (form.filled draft field).get (by
          have present := List.find?_eq_none.mp h field (form.every field)
          simpa [Option.isSome_iff_ne_none] using present))

/-- The field with the given name. -/
def named? (name : String) : Option Field :=
  form.fields.find? fun field => form.name field == name

/-- Read one member of an object. -/
def member : MemberReader form.Draft := fun draft name =>
  match form.named? name with
  | none => .ok fun text => (skip text).map (draft, ·)
  | some field =>
      if (draft field).isSome then .error (.mismatch (.duplicateField name))
      else .ok (Reader.map (form.put draft field) (form.reader field))

/-- Read the values of the given fields from an array whose opening bracket has been read. -/
def inOrder (draft : form.Draft) (first : Bool) :
    List Field → (text : List Char) → Except Fault (form.Draft × Rest text)
  | [], text => (expect ']' text).map (draft, ·)
  | field :: fields, text =>
      match turn ']' first text with
      | .error fault => .error fault
      | .ok (.close rest) =>
          if (field :: fields).all fun field => (form.default? field).isSome then .ok (draft, rest)
          else .error (.mismatch .invalidLength)
      | .ok (.entry later) =>
          match form.reader field later.val with
          | .error fault => .error fault
          | .ok (value, afterValue) =>
              match inOrder (form.put draft field value) false fields afterValue.val with
              | .error fault => .error fault
              | .ok (final, rest) => .ok (final, (later.rest afterValue).ofRest rest)

/-- Read a record. -/
def read : Reader α := fun text =>
  match next? text with
  | none => .error .truncated
  | some (c, rest) =>
      if c = '[' then do
        let (draft, final) ← form.inOrder form.blank true form.fields rest.val
        let record ← form.complete draft
        return (record, rest.ofRest final)
      else if c = '{' then do
        let (draft, final) ← members form.member true form.blank rest.val
        let record ← form.complete draft
        return (record, rest.ofRest final)
      else .error (wrongKind text)

end Form

end MessageStore.Json
