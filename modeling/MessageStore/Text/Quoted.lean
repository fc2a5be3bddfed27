import MessageStore.Text.Unseen

/-!
# Quoted text

A text between double quotes, as it is shown in messages about paths.  Double
quotes, backslashes and line controls are escaped by a letter or a sign, and
other characters that cannot be seen by their code points.
-/

namespace MessageStore.Text

/-- A character as it is shown between quotes. -/
def shown (c : Char) : List Char :=
  match c with
  | '\x00' => ['\\', '0']
  | '\t' => ['\\', 't']
  | '\n' => ['\\', 'n']
  | '\r' => ['\\', 'r']
  | '"' => ['\\', '"']
  | '\\' => ['\\', '\\']
  | c =>
      if isUnseen c then '\\' :: 'u' :: '\x7b' :: Nat.toDigits 16 c.toNat ++ ['\x7d'] else [c]

/-- A text between quotes. -/
def quoted (text : String) : String :=
  String.ofList ('"' :: text.toList.flatMap shown ++ ['"'])

end MessageStore.Text
