/-!
# Faults of JSON text

Why a text cannot be read as the value that is wanted.  Reading goes from left
to right and stops at the first fault, so a text with several faults has the
leftmost one.
-/

namespace MessageStore.Json

/-- How well-formed text can miss the type that is wanted. -/
inductive Mismatch
  /-- A value of another kind, such as a number where a text is wanted. -/
  | invalidType
  /-- A value of the right kind outside its range. -/
  | invalidValue
  /-- An array that ends before a field without default. -/
  | invalidLength
  /-- An object without a field that has no default. -/
  | missingField (name : String)
  /-- An object that gives a field twice. -/
  | duplicateField (name : String)
  /-- A name that is none of an enumeration's names. -/
  | unknownVariant (name : String) (expected : List String)
  deriving DecidableEq, Repr

/-- Why reading stopped. -/
inductive Fault
  /-- The text is not JSON. -/
  | malformed
  /-- The text ends inside a value. -/
  | truncated
  /-- The text is JSON up to here, but not of the type that is wanted. -/
  | mismatch (cause : Mismatch)
  deriving DecidableEq, Repr

/-- A name between backquotes. -/
def quotedName (name : String) : String :=
  "`" ++ name ++ "`"

/-- The wording of a mismatch. -/
def Mismatch.message : Mismatch → String
  | invalidType => "invalid type"
  | invalidValue => "invalid value"
  | invalidLength => "invalid length"
  | missingField name => "missing field " ++ quotedName name
  | duplicateField name => "duplicate field " ++ quotedName name
  | unknownVariant name expected =>
      "unknown variant " ++ quotedName name ++ ", expected one of " ++
        String.intercalate ", " (expected.map quotedName)

end MessageStore.Json
