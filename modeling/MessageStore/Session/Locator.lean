import MessageStore.Json.Text
import MessageStore.Relational.Fault
import MessageStore.Text.Digits
import MessageStore.Text.Pieces
import MessageStore.Text.Utf8

/-!
# Locators

A locator is what a path says that begins with `file:`: the name of a database,
and parameters.  A host may stand before the name, between two slashes and one;
only this computer is allowed.  A question mark ends the name, ampersands stand
between the parameters, and a number sign ends everything.  A byte can be given
by a percent sign and two hexadecimal digits; it then marks nothing.  What stands
behind a byte zero in a name or in a parameter does not count.
-/

namespace MessageStore

open Relational (Fault)
open Text (encode pieces)

/-- What a path says that begins with `file:`. -/
structure Locator where
  name : List UInt8
  /-- The names of the parameters and their values. -/
  parameters : List (List UInt8 × List UInt8)
  deriving DecidableEq, Repr

namespace Locator

/-- A byte of a locator, and whether it is given by its number. -/
structure Sign where
  byte : UInt8
  numbered : Bool
  deriving DecidableEq, Repr

/-- A character as a sign that stands for itself. -/
def mark (c : Char) : Sign :=
  ⟨c.toUInt8, false⟩

/-- The value of a byte that is a hexadecimal digit. -/
def hexValue? (byte : UInt8) : Option Nat :=
  Json.hexValue? (Char.ofNat byte.toNat)

/-- The signs of a locator. -/
def signs : List UInt8 → List Sign
  | [] => []
  | [a] => [⟨a, false⟩]
  | [a, b] => [⟨a, false⟩, ⟨b, false⟩]
  | a :: b :: c :: rest =>
      match (if a = '%'.toUInt8 then hexValue? b else none), hexValue? c with
      | some high, some low => ⟨UInt8.ofNat (16 * high + low), true⟩ :: signs rest
      | _, _ => ⟨a, false⟩ :: signs (b :: c :: rest)

/-- The bytes before the first byte zero. -/
def spelled (part : List Sign) : List UInt8 :=
  (part.map (·.byte)).takeWhile (· ≠ 0)

/-- What stands before the first occurrence of a mark, and what stands behind it. -/
def cut (mark : Sign) (text : List Sign) : List Sign × List Sign :=
  (text.takeWhile (· ≠ mark), (text.dropWhile (· ≠ mark)).drop 1)

/-- The name and the value of a parameter.  A parameter without a name does not count. -/
def parameter? (text : List Sign) : Option (List UInt8 × List UInt8) :=
  let (name, value) := cut (mark '=') text
  if spelled name = [] then none else some (spelled name, spelled value)

/-- The locator that is spelled by bytes, without a host. -/
def ofBytes (bytes : List UInt8) : Locator :=
  let (name, parameters) := cut (mark '?') ((signs bytes).takeWhile (· ≠ mark '#'))
  ⟨spelled name, (pieces (mark '&') parameters).filterMap parameter?⟩

/-- The text between two slashes at the front and the next slash, if there are two, and what
follows. -/
def splitHost : List Char → Option String × List Char
  | '/' :: '/' :: text =>
      (some (String.ofList (text.takeWhile (· ≠ '/'))), text.dropWhile (· ≠ '/'))
  | text => (none, text)

/-- The locator in a text behind `file:`. -/
def parse (text : List Char) : Except Fault Locator :=
  let (host, rest) := splitHost text
  match host.filter fun host => host ≠ "" ∧ host ≠ "localhost" with
  | some host => .error (.foreignHost host)
  | none => .ok (ofBytes (encode (String.ofList rest)))

/-- The value of the first parameter with the given name. -/
def value? (locator : Locator) (name : String) : Option (List UInt8) :=
  locator.parameters.lookup (encode name)

/-- The words that mean yes. -/
def affirmative : List String :=
  ["on", "yes", "true"]

/-- A byte with an ASCII letter in lower case. -/
def lower (byte : UInt8) : UInt8 :=
  (Char.ofNat byte.toNat).toLower.toUInt8

/-- The greatest number that a value can be; a greater one counts as zero. -/
def greatestNumber : Nat := 2147483647

/-- Whether a value means yes.  A number does if its last eight bits are not all zero. -/
def isAffirmative (value : List UInt8) : Bool :=
  let digits := (value.map fun byte => Char.ofNat byte.toNat).takeWhile Text.isDigit
  if digits = [] then affirmative.any fun word => encode word == value.map lower
  else
    let number := Text.digitsValue digits
    number ≤ greatestNumber && number % 256 ≠ 0

/-- Whether a parameter has a value that means yes. -/
def asksFor (locator : Locator) (name : String) : Bool :=
  (locator.value? name).any isAffirmative

end Locator

end MessageStore
