import MessageStore.Json.Members
import MessageStore.Json.Printer
import MessageStore.Proofs.Json.Tokens

/-!
# Spellings of strings

A string can be spelled in many ways, because every character may stand as an
escape.  All of them are read as the string, and what is written is one of
them.  A string that is skipped may also hold surrogates without partner.
-/

namespace MessageStore.Json

variable {text chars rest : List Char}

/-! ## Escapes -/

/-- Four hexadecimal digits, in either case, for a code unit. -/
inductive HexText : List Char → Nat → Prop
  | digits {a b c d : Char} {p q r s : Nat} (first : hexValue? a = some p)
      (second : hexValue? b = some q) (third : hexValue? c = some r)
      (fourth : hexValue? d = some s) :
      HexText [a, b, c, d] (4096 * p + 256 * q + 16 * r + s)

theorem HexText.reads {digits : List Char} {unit : Nat} (hex : HexText digits unit)
    (rest : List Char) : Reads hexUnit (digits ++ rest) unit rest := by
  cases hex with
  | digits first second third fourth =>
      simp [Reads, outcome, hexUnit, first, second, third, fourth]

/-- What follows `\u` for a character, with a second escape if it needs a pair of surrogates. -/
inductive EscapeText : List Char → Char → Prop
  | single {digits : List Char} {unit : Nat} (hex : HexText digits unit)
      (noLeading : isLeading unit = false) (noTrailing : isTrailing unit = false) :
      EscapeText digits (Char.ofNat unit)
  | pair {digits later : List Char} {leading trailing : Nat} (hex : HexText digits leading)
      (isFirst : isLeading leading = true) (hexLater : HexText later trailing)
      (isSecond : isTrailing trailing = true) :
      EscapeText (digits ++ '\\' :: 'u' :: later) (pairChar leading trailing)

/-- No code unit is both halves of a pair. -/
theorem isTrailing_of_isLeading {unit : Nat} (leading : isLeading unit = true) :
    isTrailing unit = false := by
  simp only [isLeading, isTrailing, Bool.and_eq_true, decide_eq_true_eq, Bool.and_eq_false_iff,
    decide_eq_false_iff_not] at *
  omega

theorem EscapeText.reads {digits : List Char} {c : Char} (escape : EscapeText digits c)
    (rest : List Char) : Reads unicodeEscape (digits ++ rest) c rest := by
  cases escape with
  | single hex noLeading noTrailing =>
      obtain ⟨left, read, same⟩ := (hex.reads rest).exists_left
      simp [Reads, outcome, unicodeEscape, read, noLeading, noTrailing, same, bind, Except.bind, pure,
        Except.pure]
  | @pair digits later leading trailing hex isFirst hexLater isSecond =>
      simp only [List.append_assoc, List.cons_append]
      obtain ⟨left, read, same⟩ := (hex.reads ('\\' :: 'u' :: (later ++ rest))).exists_left
      obtain ⟨final, readLater, sameLater⟩ := (hexLater.reads rest).exists_left
      simp only [Reads, outcome, unicodeEscape, read, isTrailing_of_isLeading isFirst, isFirst, bind,
        Except.bind, Bool.false_eq_true, if_false, if_true]
      split
      · rename_i ended
        simp [same] at ended
      · rename_i ended
        simp [same] at ended
      · rename_i found
        rw [same] at found
        cases found
        simp [readLater, isSecond, sameLater, pure, Except.pure]
      · rename_i noEscape
        exact absurd same (noEscape _)

/-! ## Strings that are read -/

/-- A text between quotes and the characters it spells. -/
inductive StringText : List Char → List Char → Prop
  | nil : StringText [] []
  | plain {c : Char} {text chars : List Char} (noQuote : c ≠ '"') (noEscape : c ≠ '\\')
      (visible : isControl c = false) (more : StringText text chars) :
      StringText (c :: text) (c :: chars)
  | letter {letter c : Char} {text chars : List Char} (known : letterEscape? letter = some c)
      (more : StringText text chars) : StringText ('\\' :: letter :: text) (c :: chars)
  | unicode {digits : List Char} {c : Char} {text chars : List Char}
      (escape : EscapeText digits c) (more : StringText text chars) :
      StringText ('\\' :: 'u' :: (digits ++ text)) (c :: chars)

theorem letter_ne_u {letter c : Char} (known : letterEscape? letter = some c) : letter ≠ 'u' := by
  rintro rfl
  cases known

/-- A string is read to its closing quote. -/
theorem StringText.reads (spelling : StringText text chars) (rest : List Char) :
    Reads stringRest (text ++ '"' :: rest) chars rest := by
  induction spelling with
  | nil => simp [Reads, outcome, stringRest]
  | plain noQuote noEscape visible _ ih =>
      obtain ⟨left, read, same⟩ := ih.exists_left
      simp [Reads, outcome, stringRest, noEscape, visible, read, same]
  | letter known _ ih =>
      obtain ⟨left, read, same⟩ := ih.exists_left
      simp [Reads, outcome, stringRest, letter_ne_u known, known, read, same]
  | @unicode digits c text chars escape _ ih =>
      obtain ⟨behind, escapeRead, same⟩ := (escape.reads (text ++ '"' :: rest)).exists_left
      rw [← same] at ih
      obtain ⟨left, read, same⟩ := ih.exists_left
      simp only [List.cons_append, List.append_assoc]
      simp [Reads, outcome, stringRest, escapeRead, read, same]

/-! ## Strings that are skipped -/

/-- A text between quotes that need not spell a string: a surrogate may lack its partner. -/
inductive SkippedText : List Char → Prop
  | nil : SkippedText []
  | plain {c : Char} {text : List Char} (noQuote : c ≠ '"') (noEscape : c ≠ '\\')
      (visible : isControl c = false) (more : SkippedText text) : SkippedText (c :: text)
  | letter {letter c : Char} {text : List Char} (known : letterEscape? letter = some c)
      (more : SkippedText text) : SkippedText ('\\' :: letter :: text)
  | unicode {digits : List Char} {unit : Nat} {text : List Char} (hex : HexText digits unit)
      (more : SkippedText text) : SkippedText ('\\' :: 'u' :: (digits ++ text))

/-- A string is skipped to its closing quote. -/
theorem SkippedText.skips (skipped : SkippedText text) (rest : List Char) :
    Skips skipString (text ++ '"' :: rest) rest := by
  induction skipped with
  | nil => simp [Skips, remaining, skipString, Except.map]
  | plain noQuote noEscape visible _ ih =>
      obtain ⟨left, read, same⟩ := ih.exists_left
      simp [Skips, remaining, skipString, noEscape, visible, read, same, Except.map]
  | letter known _ ih =>
      obtain ⟨left, read, same⟩ := ih.exists_left
      simp [Skips, remaining, skipString, letter_ne_u known, known, read, same, Except.map]
  | @unicode digits unit text hex _ ih =>
      obtain ⟨behind, hexRead, same⟩ := (hex.reads (text ++ '"' :: rest)).exists_left
      rw [← same] at ih
      obtain ⟨left, read, same⟩ := ih.exists_left
      rw [List.cons_append, List.cons_append, List.append_assoc]
      simp [Skips, remaining, skipString, hexRead, read, same, Except.map]

/-! ## Strings between quotes -/

/-- A spelling of a string, with its quotes. -/
inductive StringSpelling : List Char → String → Prop
  | quoted {text : List Char} {value : String} (spelling : StringText text value.toList) :
      StringSpelling ('"' :: (text ++ ['"'])) value

theorem StringSpelling.begins {value : String} (spelling : StringSpelling text value) :
    Begins text := by
  cases spelling with
  | quoted => exact ⟨'"', _, rfl, rfl, rfl⟩

/-- A string begins with a quote, and what stands behind that is read as its characters. -/
theorem StringSpelling.exists_left {value : String} {before : List Char}
    (spelling : StringSpelling text value) (blank : Blank before) (rest : List Char) :
    ∃ (left : Rest (before ++ (text ++ rest))) (final : Rest left.val),
      next? (before ++ (text ++ rest)) = some ('"', left) ∧
        stringRest left.val = .ok (value.toList, final) ∧ final.val = rest := by
  cases spelling with
  | @quoted text _ spelling =>
      have next : Next (before ++ '"' :: (text ++ '"' :: rest)) '"' (text ++ '"' :: rest) :=
        next_of_blank blank rfl
      have shape : before ++ ('"' :: (text ++ ['"']) ++ rest) =
          before ++ '"' :: (text ++ '"' :: rest) := by simp
      rw [shape]
      obtain ⟨left, found, same⟩ := next
      have reads := spelling.reads rest
      rw [← same] at reads
      obtain ⟨final, read, ended⟩ := reads.exists_left
      exact ⟨left, final, found, read, ended⟩

/-- Every spelling of a string is read as the string, wherever it ends. -/
theorem StringSpelling.reads {value : String} {before : List Char}
    (spelling : StringSpelling text value) (blank : Blank before) (rest : List Char) :
    Reads string (before ++ (text ++ rest)) value rest := by
  obtain ⟨left, final, found, read, ended⟩ := spelling.exists_left blank rest
  simp [Reads, outcome, string, found, read, ended, String.ofList_toList]

theorem StringSpelling.spells {value : String} (spelling : StringSpelling text value) :
    Spells string text value :=
  ⟨spelling.begins, fun blank _ => spelling.reads blank _⟩

/-! ## Strings that are written -/

theorem hexValue?_hexDigit {value : Nat} (digit : value < 16) :
    hexValue? (Text.hexDigit value) = some value := by
  have all : ∀ value < 16, hexValue? (Text.hexDigit value) = some value := by decide
  exact all value digit

/-- A control character is written as an escape for its code. -/
theorem escapeText_of_isControl {c : Char} (control : c.toNat < 0x20) :
    EscapeText ['0', '0', Text.hexDigit (c.toNat / 16), Text.hexDigit (c.toNat % 16)] c := by
  have hex : HexText ['0', '0', Text.hexDigit (c.toNat / 16), Text.hexDigit (c.toNat % 16)]
      c.toNat := by
    have zero : hexValue? '0' = some 0 := rfl
    have high : hexValue? (Text.hexDigit (c.toNat / 16)) = some (c.toNat / 16) :=
      hexValue?_hexDigit (by omega)
    have low : hexValue? (Text.hexDigit (c.toNat % 16)) = some (c.toNat % 16) :=
      hexValue?_hexDigit (by omega)
    have sum : 4096 * 0 + 256 * 0 + 16 * (c.toNat / 16) + c.toNat % 16 = c.toNat := by omega
    have digits := HexText.digits zero zero high low
    rwa [sum] at digits
  have noLeading : isLeading c.toNat = false := by
    simp only [isLeading, Bool.and_eq_false_iff, decide_eq_false_iff_not]
    omega
  have noTrailing : isTrailing c.toNat = false := by
    simp only [isTrailing, Bool.and_eq_false_iff, decide_eq_false_iff_not]
    omega
  have escape := EscapeText.single hex noLeading noTrailing
  rwa [Char.ofNat_toNat] at escape

/-- A character that is written as it must be is a spelling of it. -/
theorem StringText.escaped {c : Char} (more : StringText text chars) :
    StringText (escaped c ++ text) (c :: chars) := by
  unfold Json.escaped
  split
  · exact .letter rfl more
  · exact .letter rfl more
  · exact .letter rfl more
  · exact .letter rfl more
  · exact .letter rfl more
  · exact .letter rfl more
  · exact .letter rfl more
  · rename_i noQuote noEscape _ _ _ _ _
    split
    · rename_i control
      exact .unicode (escapeText_of_isControl control) more
    · rename_i visible
      exact .plain noQuote noEscape (by simpa [isControl] using visible) more

/-- What is written for a string is one of its spellings. -/
theorem stringSpelling_writeString (value : String) : StringSpelling (writeString value) value := by
  have spelling : StringText (value.toList.flatMap escaped) value.toList := by
    induction value.toList with
    | nil => exact .nil
    | cons c chars ih => exact ih.escaped
  exact .quoted spelling

end MessageStore.Json
