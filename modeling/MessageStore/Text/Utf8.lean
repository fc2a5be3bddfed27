/-!
# Bytes as text

Texts as bytes in UTF-8, and any bytes as text: bytes that are no part of a
character in UTF-8 are shown by the replacement character.  Bytes that begin a
character and are cut off by another byte, or by the end, share one replacement.
-/

namespace MessageStore.Text

/-- The bytes of a text in UTF-8. -/
def encode (text : String) : List UInt8 :=
  text.toUTF8.toList

/-- A range of bytes. -/
structure ByteRange where
  first : UInt8
  last : UInt8
  deriving DecidableEq, Repr

/-- The bytes that can continue a character. -/
def continuing : ByteRange := ⟨0x80, 0xbf⟩

/-- The bytes that can follow the first byte of a character of several bytes. -/
def following? (first : UInt8) : Option (List ByteRange) :=
  if first < 0xc2 then none
  else if first < 0xe0 then some [continuing]
  else if first = 0xe0 then some [⟨0xa0, 0xbf⟩, continuing]
  else if first = 0xed then some [⟨0x80, 0x9f⟩, continuing]
  else if first < 0xf0 then some [continuing, continuing]
  else if first = 0xf0 then some [⟨0x90, 0xbf⟩, continuing, continuing]
  else if first < 0xf4 then some [continuing, continuing, continuing]
  else if first = 0xf4 then some [⟨0x80, 0x8f⟩, continuing, continuing]
  else none

/-- The bits of its code point in the first byte of a character of several bytes. -/
def leadingBits (first : UInt8) : Nat :=
  if first < 0xe0 then first.toNat - 0xc0
  else if first < 0xf0 then first.toNat - 0xe0
  else first.toNat - 0xf0

/-- The character that stands for bytes that are none. -/
def replacement : Char := '\ufffd'

/-- A character that has begun: the ranges of the bytes that are missing, and the bits so far. -/
structure Begun where
  missing : List ByteRange
  bits : Nat

/-- What a byte that begins something shows at once, and what it begins. -/
def begin (byte : UInt8) : List Char × Option Begun :=
  if byte < 0x80 then ([Char.ofNat byte.toNat], none)
  else
    match following? byte with
    | some missing => ([], some ⟨missing, leadingBits byte⟩)
    | none => ([replacement], none)

/-- What a byte shows behind a character that has begun, and what it leaves begun. -/
def advance (begun : Option Begun) (byte : UInt8) : List Char × Option Begun :=
  match begun with
  | none => begin byte
  | some ⟨[], _⟩ => begin byte
  | some ⟨range :: later, bits⟩ =>
      if range.first ≤ byte ∧ byte ≤ range.last then
        let grown := 64 * bits + (byte.toNat - 0x80)
        if later = [] then ([Char.ofNat grown], none) else ([], some ⟨later, grown⟩)
      else
        let (shown, next) := begin byte
        (replacement :: shown, next)

/-- The characters that bytes show behind a character that has begun. -/
def decodeFrom (begun : Option Begun) : List UInt8 → List Char
  | [] => if begun.isSome then [replacement] else []
  | byte :: bytes =>
      let (shown, next) := advance begun byte
      shown ++ decodeFrom next bytes

/-- The text that bytes show. -/
def decodeLossy (bytes : List UInt8) : String :=
  String.ofList (decodeFrom none bytes)

end MessageStore.Text
