/-!
# Digits

Runs of the ten ASCII digits and the numbers they stand for, decimal text of a
fixed width, and hexadecimal digits with the names that are made of them.
Digits of other scripts are not digits here.
-/

namespace MessageStore.Text

/-- One of the ASCII digits `0` to `9`. -/
def isDigit (c : Char) : Bool :=
  '0' ≤ c && c ≤ '9'

/-- The value of a digit. -/
def digitValue (c : Char) : Nat :=
  c.toNat - '0'.toNat

/-- The number that a run of digits stands for; leading zeros add nothing. -/
def digitsValue (digits : List Char) : Nat :=
  digits.foldl (fun value c => 10 * value + digitValue c) 0

@[simp]
theorem digitsValue_nil : digitsValue [] = 0 :=
  rfl

theorem digitsValue_append_singleton (digits : List Char) (c : Char) :
    digitsValue (digits ++ [c]) = 10 * digitsValue digits + digitValue c := by
  simp [digitsValue]

/-- The decimal text of a number, padded with zeros on the left to the given width. -/
def padded (width value : Nat) : String :=
  let digits := (toString value).toList
  String.ofList (List.replicate (width - digits.length) '0' ++ digits)

/-- A hexadecimal digit in lower case. -/
def hexDigit (value : Nat) : Char :=
  if value < 10 then Char.ofNat ('0'.toNat + value) else Char.ofNat ('a'.toNat + (value - 10))

/-- The last hexadecimal digits of a number, as many as are asked for. -/
def lastHexDigits (length bits : Nat) : List Char :=
  (List.range length).reverse.map fun place => hexDigit (bits / Nat.pow 16 place % 16)

/-- The digits of a UUID that is made of random bits.  One of them says that it is, and another one
of which variant it is. -/
def uuidOfBits (bits : Nat) : List Char :=
  lastHexDigits 12 (bits / Nat.pow 2 74) ++ '4' :: lastHexDigits 3 (bits / Nat.pow 2 62) ++
    hexDigit (8 + bits / Nat.pow 2 60 % 4) :: lastHexDigits 15 bits

end MessageStore.Text
