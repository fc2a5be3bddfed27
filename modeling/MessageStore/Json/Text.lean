import MessageStore.Json.Reader

/-!
# JSON strings

Reading a quoted string and skipping one.  Both refuse control characters and
unknown escapes.  A string that is read must pair its surrogate escapes; one
that is skipped need not.
-/

namespace MessageStore.Json

/-- The value of a hexadecimal digit, in either case. -/
def hexValue? (c : Char) : Option Nat :=
  if '0' ≤ c ∧ c ≤ '9' then some (c.toNat - '0'.toNat)
  else if 'a' ≤ c ∧ c ≤ 'f' then some (c.toNat - 'a'.toNat + 10)
  else if 'A' ≤ c ∧ c ≤ 'F' then some (c.toNat - 'A'.toNat + 10)
  else none

/-- Whether a text has at least the given number of bytes in UTF-8. -/
def hasBytes : Nat → List Char → Bool
  | 0, _ => true
  | _ + 1, [] => false
  | n + 1, c :: rest => hasBytes (n + 1 - c.utf8Size) rest
termination_by _ text => text.length

/-- The fault of a text that does not begin with four hexadecimal digits: it ends too early
only if it has fewer than four bytes. -/
def hexFault (text : List Char) : Fault :=
  if hasBytes 4 text then .malformed else .truncated

/-- The code unit written as four hexadecimal digits. -/
def hexUnit (text : List Char) : Except Fault (Nat × Rest text) :=
  match text with
  | a :: b :: c :: d :: rest =>
      match hexValue? a, hexValue? b, hexValue? c, hexValue? d with
      | some p, some q, some r, some s =>
          .ok (4096 * p + 256 * q + 16 * r + s, ⟨rest, by simp only [List.length_cons]; omega⟩)
      | _, _, _, _ => .error (hexFault text)
  | _ => .error (hexFault text)

/-- The first half of a pair of surrogates. -/
def isLeading (unit : Nat) : Bool :=
  0xd800 ≤ unit && unit ≤ 0xdbff

/-- The second half of a pair of surrogates. -/
def isTrailing (unit : Nat) : Bool :=
  0xdc00 ≤ unit && unit ≤ 0xdfff

/-- The character that a pair of surrogates stands for. -/
def pairChar (leading trailing : Nat) : Char :=
  Char.ofNat (0x10000 + 1024 * (leading - 0xd800) + (trailing - 0xdc00))

/-- The character after `\u`, which is two escapes long if it needs a pair of surrogates. -/
def unicodeEscape (text : List Char) : Except Fault (Char × Rest text) := do
  let (unit, rest) ← hexUnit text
  if isTrailing unit then throw .malformed
  else if isLeading unit then
    match h : rest.val with
    | [] => throw .truncated
    | '\\' :: [] => throw .truncated
    | '\\' :: 'u' :: later =>
        let (second, final) ← hexUnit later
        if isTrailing second then
          return (pairChar unit second, ⟨final.val, by
            have := final.property
            have := rest.property
            simp only [h, List.length_cons] at this
            omega⟩)
        else throw .malformed
    | _ => throw .malformed
  else return (Char.ofNat unit, rest)

/-- The character that a one-letter escape stands for. -/
def letterEscape? : Char → Option Char
  | '"' => some '"'
  | '\\' => some '\\'
  | '/' => some '/'
  | 'b' => some '\x08'
  | 'f' => some '\x0c'
  | 'n' => some '\n'
  | 'r' => some '\r'
  | 't' => some '\t'
  | _ => none

/-- A character that a string cannot hold as itself. -/
def isControl (c : Char) : Bool :=
  c.toNat < 0x20

/-- The characters of a string whose opening quote has been read. -/
def stringRest (text : List Char) : Except Fault (List Char × Rest text) :=
  match text with
  | [] => .error .truncated
  | '"' :: rest => .ok ([], ⟨rest, Nat.lt_succ_self _⟩)
  | '\\' :: [] => .error .truncated
  | '\\' :: 'u' :: rest =>
      match unicodeEscape rest with
      | .error fault => .error fault
      | .ok (c, later) =>
          match stringRest later.val with
          | .error fault => .error fault
          | .ok (chars, final) => .ok (c :: chars, ((later.ofRest final).behind 'u').behind '\\')
  | '\\' :: letter :: rest =>
      match letterEscape? letter with
      | none => .error .malformed
      | some c =>
          match stringRest rest with
          | .error fault => .error fault
          | .ok (chars, final) => .ok (c :: chars, (final.behind letter).behind '\\')
  | c :: rest =>
      if isControl c then .error .malformed
      else
        match stringRest rest with
        | .error fault => .error fault
        | .ok (chars, final) => .ok (c :: chars, final.behind c)
termination_by text.length
decreasing_by
  all_goals simp only [List.length_cons]
  all_goals omega

/-- What is left after a string whose opening quote has been read.

The characters are not built, and an escaped surrogate needs no partner. -/
def skipString (text : List Char) : Except Fault (Rest text) :=
  match text with
  | [] => .error .truncated
  | '"' :: rest => .ok ⟨rest, Nat.lt_succ_self _⟩
  | '\\' :: [] => .error .truncated
  | '\\' :: 'u' :: rest =>
      match hexUnit rest with
      | .error fault => .error fault
      | .ok (_, later) =>
          match skipString later.val with
          | .error fault => .error fault
          | .ok final => .ok (((later.ofRest final).behind 'u').behind '\\')
  | '\\' :: letter :: rest =>
      match letterEscape? letter with
      | none => .error .malformed
      | some _ =>
          match skipString rest with
          | .error fault => .error fault
          | .ok final => .ok ((final.behind letter).behind '\\')
  | c :: rest =>
      if isControl c then .error .malformed
      else
        match skipString rest with
        | .error fault => .error fault
        | .ok final => .ok (final.behind c)
termination_by text.length
decreasing_by
  all_goals simp only [List.length_cons]
  all_goals omega

end MessageStore.Json
