import MessageStore.Json.Fault

/-!
# Readers of JSON text

A reader takes a value from the front of a text and returns what is left, which
is always shorter.  This module holds that type, the blanks between the tokens,
what can follow inside an array or an object, and the loop through the items of
an array, which ends because every step shortens the text.
-/

namespace MessageStore.Json

/-- What is left of a text when something has been taken from its front. -/
abbrev Rest (text : List Char) :=
  { rest : List Char // rest.length < text.length }

/-- A later part of a text, which may be all of it. -/
abbrev Suffix (text : List Char) :=
  { later : List Char // later.length ≤ text.length }

/-- All of a text. -/
def Suffix.all (text : List Char) : Suffix text :=
  ⟨text, Nat.le_refl _⟩

/-- A reader takes a value from the front of a text, or tells why it cannot. -/
abbrev Reader (α : Type) :=
  (text : List Char) → Except Fault (α × Rest text)

/-- What is left of a later part of a text is left of the text. -/
def Rest.of {text later : List Char} (bound : later.length ≤ text.length)
    (rest : Rest later) : Rest text :=
  ⟨rest.val, Nat.lt_of_lt_of_le rest.property bound⟩

/-- What is left of a later part of a text is left of the text. -/
def Suffix.rest {text : List Char} (later : Suffix text) (rest : Rest later.val) : Rest text :=
  rest.of later.property

/-- What is left of a text is a later part of it. -/
def Rest.toSuffix {text : List Char} (rest : Rest text) : Suffix text :=
  ⟨rest.val, Nat.le_of_lt rest.property⟩

/-- What is left of a rest is left of the text. -/
def Rest.ofRest {text : List Char} (first : Rest text) (second : Rest first.val) : Rest text :=
  second.of (Nat.le_of_lt first.property)

/-- What is left of a text is left of it with a character in front. -/
def Rest.behind {text : List Char} (c : Char) (rest : Rest text) : Rest (c :: text) :=
  rest.of (Nat.le_succ _)

/-- What is left when reading starts over at a character that has been taken is left of the
text. -/
def Rest.ofFront {text : List Char} (rest : Rest text) (c : Char)
    (final : Rest (c :: rest.val)) : Rest text :=
  ⟨final.val, Nat.lt_of_lt_of_le final.property rest.property⟩

@[simp]
theorem Rest.val_of {text later : List Char} (bound : later.length ≤ text.length)
    (rest : Rest later) : (rest.of bound).val = rest.val :=
  rfl

@[simp]
theorem Suffix.val_all (text : List Char) : (Suffix.all text).val = text :=
  rfl

@[simp]
theorem Suffix.val_rest {text : List Char} (later : Suffix text) (rest : Rest later.val) :
    (later.rest rest).val = rest.val :=
  rfl

@[simp]
theorem Rest.val_toSuffix {text : List Char} (rest : Rest text) : rest.toSuffix.val = rest.val :=
  rfl

@[simp]
theorem Rest.val_ofRest {text : List Char} (first : Rest text) (second : Rest first.val) :
    (first.ofRest second).val = second.val :=
  rfl

@[simp]
theorem Rest.val_ofFront {text : List Char} (rest : Rest text) (c : Char)
    (final : Rest (c :: rest.val)) : (rest.ofFront c final).val = final.val :=
  rfl

@[simp]
theorem Rest.val_behind {text : List Char} (c : Char) (rest : Rest text) :
    (rest.behind c).val = rest.val :=
  rfl

/-- A blank between tokens: space, tab, line feed or carriage return. -/
def isSpace (c : Char) : Bool :=
  c == ' ' || c == '\t' || c == '\n' || c == '\r'

/-- The text without the blanks at its front. -/
def skipSpace (text : List Char) : List Char :=
  text.dropWhile isSpace

theorem length_dropWhile_le {α : Type} (p : α → Bool) (xs : List α) :
    (xs.dropWhile p).length ≤ xs.length := by
  induction xs with
  | nil => simp
  | cons x xs ih =>
      rw [List.dropWhile_cons]
      split
      · exact Nat.le_succ_of_le ih
      · exact Nat.le_refl _

/-- The next character after blanks, if there is one. -/
def next? (text : List Char) : Option (Char × Rest text) :=
  match h : skipSpace text with
  | [] => none
  | c :: rest =>
      some (c, ⟨rest, by
        have bound : (skipSpace text).length ≤ text.length := length_dropWhile_le isSpace text
        rw [h] at bound
        exact bound⟩)

/-- The next character must be the given one. -/
def expect (wanted : Char) (text : List Char) : Except Fault (Rest text) :=
  match next? text with
  | none => .error .truncated
  | some (c, rest) => if c = wanted then .ok rest else .error .malformed

/-- What follows inside an array or an object. -/
inductive Turn (text : List Char)
  /-- The closing bracket, and what is left after it. -/
  | close (rest : Rest text)
  /-- Another item or member, and the text that begins with it. -/
  | entry (later : Suffix text)

/-- What follows in a list of entries that ends with the given bracket.

Between two entries stands a comma, and none stands before the bracket. -/
def turn (bracket : Char) (first : Bool) (text : List Char) : Except Fault (Turn text) :=
  match next? text with
  | none => .error .truncated
  | some (c, rest) =>
      if c = bracket then .ok (.close rest)
      else if first then .ok (.entry (.all text))
      else if c = ',' then
        match next? rest.val with
        | none => .error .truncated
        | some (d, _) =>
            if d = bracket then .error .malformed
            else .ok (.entry rest.toSuffix)
      else .error .malformed

/-- The items of an array whose opening bracket has been read. -/
def items {α : Type} (item : Reader α) (first : Bool) (text : List Char) :
    Except Fault (List α × Rest text) :=
  match turn ']' first text with
  | .error fault => .error fault
  | .ok (.close rest) => .ok ([], rest)
  | .ok (.entry later) =>
      match item later.val with
      | .error fault => .error fault
      | .ok (value, afterItem) =>
          match items item false (later.rest afterItem).val with
          | .error fault => .error fault
          | .ok (values, rest) => .ok (value :: values, (later.rest afterItem).ofRest rest)
termination_by text.length
decreasing_by exact (later.rest afterItem).property

end MessageStore.Json
