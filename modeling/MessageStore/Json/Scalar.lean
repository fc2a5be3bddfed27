import MessageStore.Json.Number
import MessageStore.Json.Text

/-!
# Readers of single values

Readers for strings, integers in a range, the word `null`, and values that may
be `null`.  A value of another kind is a mismatch, unless its own text has a
fault first: a wrong number or a wrong string is read to its end.
-/

namespace MessageStore.Json

/-- What is left of a text that goes on with the given letters. -/
def letters : List Char → List Char → Except Fault (List Char)
  | [], text => .ok text
  | _ :: _, [] => .error .truncated
  | letter :: word, c :: text => if c = letter then letters word text else .error .malformed

theorem length_of_letters {word text rest : List Char} (read : letters word text = .ok rest) :
    rest.length ≤ text.length := by
  induction word generalizing text with
  | nil =>
      cases read
      exact Nat.le_refl _
  | cons letter word ih =>
      cases text with
      | nil => cases read
      | cons c text =>
          simp only [letters] at read
          split at read
          · exact Nat.le_succ_of_le (ih read)
          · cases read

/-- What is left of a text after the given letters, which stand behind its first character. -/
def word (ending : List Char) {text : List Char} (first : Rest text) :
    Except Fault (Rest text) :=
  match h : letters ending first.val with
  | .error fault => .error fault
  | .ok rest => .ok ⟨rest, Nat.lt_of_le_of_lt (length_of_letters h) first.property⟩

/-- What is left after `null`, whose first letter has been read. -/
def afterNull {text : List Char} (first : Rest text) : Except Fault (Rest text) :=
  word ['u', 'l', 'l'] first

/-- What is left after `true`, whose first letter has been read. -/
def afterTrue {text : List Char} (first : Rest text) : Except Fault (Rest text) :=
  word ['r', 'u', 'e'] first

/-- What is left after `false`, whose first letter has been read. -/
def afterFalse {text : List Char} (first : Rest text) : Except Fault (Rest text) :=
  word ['a', 'l', 's', 'e'] first

/-- The mismatch of a reading that succeeds, and the fault of one that does not. -/
def faultOr {α : Type} (mismatch : Mismatch) : Except Fault α → Fault
  | .error fault => fault
  | .ok _ => .mismatch mismatch

/-- The fault of a text that begins with a value of another kind than the one wanted. -/
def wrongKind (text : List Char) : Fault :=
  match next? text with
  | none => .truncated
  | some (c, rest) =>
      if c = 'n' then faultOr .invalidType (afterNull rest)
      else if c = 't' then faultOr .invalidType (afterTrue rest)
      else if c = 'f' then faultOr .invalidType (afterFalse rest)
      else if c = '"' then faultOr .invalidType (stringRest rest.val)
      else if beginsNumber c then faultOr .invalidType (number (c :: rest.val))
      else if c = '[' ∨ c = '{' then .mismatch .invalidType
      else .malformed

/-- Read a string. -/
def string : Reader String := fun text =>
  match next? text with
  | none => .error .truncated
  | some (c, rest) =>
      if c = '"' then
        match stringRest rest.val with
        | .error fault => .error fault
        | .ok (chars, final) => .ok (String.ofList chars, rest.ofRest final)
      else .error (wrongKind text)

/-- The integer that a number is, if it is one between the bounds. -/
def Number.between (least greatest : Int) : Number → Except Mismatch Int
  | .natural value =>
      if least ≤ value ∧ value ≤ greatest then .ok value else .error .invalidValue
  | .negative magnitude =>
      if least ≤ -(magnitude : Int) ∧ -(magnitude : Int) ≤ greatest then .ok (-magnitude)
      else .error .invalidValue
  | .fractional _ => .error .invalidType

/-- Read an integer between two bounds. -/
def integer (least greatest : Int) : Reader Int := fun text =>
  match next? text with
  | none => .error .truncated
  | some (c, rest) =>
      if beginsNumber c then
        match number (c :: rest.val) with
        | .error fault => .error fault
        | .ok (value, final) =>
            match value.between least greatest with
            | .error mismatch => .error (.mismatch mismatch)
            | .ok n => .ok (n, rest.ofFront c final)
      else .error (wrongKind text)

/-- Read a value and change it. -/
def Reader.map {α β : Type} (change : α → β) (reader : Reader α) : Reader β := fun text =>
  match reader text with
  | .error fault => .error fault
  | .ok (value, rest) => .ok (change value, rest)

/-- Read a signed 64-bit integer. -/
def int64 : Reader Int64 :=
  Reader.map Int64.ofInt (integer Int64.minValue.toInt Int64.maxValue.toInt)

/-- Read an unsigned 8-bit integer. -/
def uint8 : Reader UInt8 :=
  Reader.map (fun n => UInt8.ofNat n.toNat) (integer 0 255)

/-- Read `null`. -/
def null : Reader Unit := fun text =>
  match next? text with
  | none => .error .truncated
  | some (c, rest) =>
      if c = 'n' then
        match afterNull rest with
        | .error fault => .error fault
        | .ok final => .ok ((), final)
      else .error (wrongKind text)

/-- Read `null` as nothing, and anything else with the given reader. -/
def optional {α : Type} (reader : Reader α) : Reader (Option α) := fun text =>
  match next? text with
  | some ('n', rest) =>
      match afterNull rest with
      | .error fault => .error fault
      | .ok final => .ok (none, final)
  | _ => Reader.map some reader text

/-- Read an array of values. -/
def array {α : Type} (item : Reader α) : Reader (List α) := fun text =>
  match next? text with
  | none => .error .truncated
  | some (c, rest) =>
      if c = '[' then
        match items item true rest.val with
        | .error fault => .error fault
        | .ok (values, final) => .ok (values, rest.ofRest final)
      else .error (wrongKind text)

/-- Read one name of an enumeration, as a string or as the only key of an object whose value
is `null`. -/
def variant {α : Type} (names : List (String × α)) : Reader α := fun text =>
  match next? text with
  | none => .error .truncated
  | some (c, rest) =>
      if c = '"' then do
        let (name, final) ← string text
        let value ← known name
        return (value, final)
      else if c = '{' then do
        let (name, afterName) ← string rest.val
        let value ← known name
        let afterColon ← expect ':' afterName.val
        let ((), afterValue) ← null afterColon.val
        let final ← expect '}' afterValue.val
        return (value,
          rest.ofRest (afterName.ofRest (afterColon.ofRest (afterValue.ofRest final))))
      else .error .malformed
where
  known (name : String) : Except Fault α :=
    match names.lookup name with
    | some value => .ok value
    | none => .error (.mismatch (.unknownVariant name (names.map Prod.fst)))

/-- Read a whole text: blanks, one value, blanks. -/
def whole {α : Type} (reader : Reader α) (text : String) : Except Fault α :=
  match reader text.toList with
  | .error fault => .error fault
  | .ok (value, rest) => if (next? rest.val).isSome then .error .malformed else .ok value

end MessageStore.Json
