import MessageStore.Text.Digits
import MessageStore.Text.Pieces

/-!
# Writing JSON

The compact text of strings, integers, arrays and objects.  A string escapes
the quote, the backslash and the control characters below U+0020, five of them
with a letter and the others as `\u00xx`; all else is written as it is.
-/

namespace MessageStore.Json

open Text (hexDigit joined)

/-- A character as it stands inside a string. -/
def escaped (c : Char) : List Char :=
  match c with
  | '"' => ['\\', '"']
  | '\\' => ['\\', '\\']
  | '\x08' => ['\\', 'b']
  | '\x0c' => ['\\', 'f']
  | '\n' => ['\\', 'n']
  | '\r' => ['\\', 'r']
  | '\t' => ['\\', 't']
  | c =>
      if c.toNat < 0x20 then
        ['\\', 'u', '0', '0', hexDigit (c.toNat / 16), hexDigit (c.toNat % 16)]
      else [c]

/-- A string between quotes. -/
def writeString (text : String) : List Char :=
  '"' :: text.toList.flatMap escaped ++ ['"']

/-- An integer in decimal digits. -/
def writeInteger (value : Int) : List Char :=
  if value < 0 then '-' :: Nat.toDigits 10 value.natAbs else Nat.toDigits 10 value.natAbs

/-- An array of values that are already written. -/
def writeArray (items : List (List Char)) : List Char :=
  '[' :: joined ',' items ++ [']']

/-- A member of an object, its value already written. -/
def writeMember (member : String × List Char) : List Char :=
  writeString member.1 ++ ':' :: member.2

/-- A member that is left out if its text is empty. -/
def textMember (name value : String) : List (String × List Char) :=
  if value = "" then [] else [(name, writeString value)]

/-- A member that is left out if its integer is zero. -/
def integerMember (name : String) (value : Int) : List (String × List Char) :=
  if value = 0 then [] else [(name, writeInteger value)]

/-- An object of members whose values are already written. -/
def writeObject (members : List (String × List Char)) : List Char :=
  '\x7b' :: joined ',' (members.map writeMember) ++ ['\x7d']

end MessageStore.Json
