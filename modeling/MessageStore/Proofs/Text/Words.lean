import Mathlib.Data.List.Induction
import Mathlib.Data.List.TakeWhile
import MessageStore.Text.Blank
import MessageStore.Text.Digits

/-!
# Words and decimal texts

Stripping takes away the blanks around a text and nothing else, so every text is
a word with blanks around it, and in one way only.  Digits stand for a number
exactly if they are its decimal text, perhaps behind zeros.
-/

namespace MessageStore.Text

/-! ## Words -/

/-- A text that neither begins nor ends with a blank. -/
structure Bare (word : List Char) : Prop where
  first : ∀ c ∈ word.head?, isBlank c = false
  last : ∀ c ∈ word.getLast?, isBlank c = false

/-- A text is a word with blanks around it. -/
inductive Wraps : List Char → List Char → Prop
  | blanks {before word after : List Char} (blankBefore : ∀ c ∈ before, isBlank c = true)
      (bare : Bare word) (blankAfter : ∀ c ∈ after, isBlank c = true) :
      Wraps (before ++ (word ++ after)) word

variable {text word : List Char}

theorem Wraps.bare (wraps : Wraps text word) : Bare word := by
  cases wraps with
  | blanks _ bare => exact bare

/-- Blanks are dropped up to the first character that is none. -/
theorem dropWhile_isBlank {before rest : List Char} (blank : ∀ c ∈ before, isBlank c = true)
    (solid : ∀ c ∈ rest.head?, isBlank c = false) : (before ++ rest).dropWhile isBlank = rest := by
  rw [List.dropWhile_append_of_pos blank]
  cases rest with
  | nil => rfl
  | cons c rest => exact List.dropWhile_cons_of_neg (by simp [solid c rfl])

/-- What blanks have been dropped from does not begin with one. -/
theorem solid_dropWhile (text : List Char) :
    ∀ c ∈ (text.dropWhile isBlank).head?, isBlank c = false := by
  intro c head
  have kept := List.head?_dropWhile_not isBlank text
  rw [head] at kept
  exact kept

/-- Blanks around a word are stripped. -/
theorem Wraps.strip_eq (wraps : Wraps text word) : strip text = word := by
  cases wraps with
  | @blanks before _ after blankBefore bare blankAfter =>
      cases word with
      | nil =>
          have blank : ∀ c ∈ before ++ after, isBlank c = true := by
            simpa [or_imp, forall_and] using And.intro blankBefore blankAfter
          have none : (before ++ after ++ []).dropWhile isBlank = [] :=
            dropWhile_isBlank blank nofun
          rw [List.append_nil] at none
          rw [List.nil_append, strip, none]
          rfl
      | cons c word =>
          have front : (before ++ (c :: word ++ after)).dropWhile isBlank = c :: word ++ after :=
            dropWhile_isBlank blankBefore bare.first
          have back : (after.reverse ++ (c :: word).reverse).dropWhile isBlank =
              (c :: word).reverse :=
            dropWhile_isBlank (by simpa using blankAfter)
              (by rw [List.head?_reverse]; exact bare.last)
          rw [strip, front, List.reverse_append, back, List.reverse_reverse]

/-- Every text is what is left of it when it is stripped, with blanks around. -/
theorem wraps_strip (text : List Char) : Wraps text (strip text) := by
  let rest := text.dropWhile isBlank
  have whole : text = text.takeWhile isBlank ++ rest := List.takeWhile_append_dropWhile.symm
  have parts : rest = strip text ++ (rest.reverse.takeWhile isBlank).reverse := by
    have reversed := List.takeWhile_append_dropWhile (p := isBlank) (l := rest.reverse)
    rw [strip, ← List.reverse_append, reversed, List.reverse_reverse]
  have bare : Bare (strip text) := by
    constructor
    · intro c head
      have begins : c ∈ rest.head? := by
        rw [parts, List.head?_append, head]
        rfl
      exact solid_dropWhile text c begins
    · intro c last
      rw [strip, List.getLast?_reverse] at last
      exact solid_dropWhile _ c last
  have wraps : Wraps (text.takeWhile isBlank ++
      (strip text ++ (rest.reverse.takeWhile isBlank).reverse)) (strip text) :=
    .blanks (fun _ member => List.mem_takeWhile_imp member) bare
      (fun _ member => List.mem_takeWhile_imp (List.mem_reverse.mp member))
  rwa [← parts, ← whole] at wraps

/-- A text has one word only. -/
theorem strip_eq_iff : strip text = word ↔ Wraps text word := by
  constructor
  · rintro rfl
    exact wraps_strip text
  · exact Wraps.strip_eq

/-- A word has no blanks to be stripped of. -/
theorem Bare.strip_eq (bare : Bare word) : strip word = word := by
  have wraps : Wraps ([] ++ (word ++ [])) word := .blanks nofun bare nofun
  rw [List.append_nil, List.nil_append] at wraps
  exact wraps.strip_eq

/-! ## Decimal texts -/

/-- The decimal text of a number, perhaps behind zeros. -/
inductive DecimalText : List Char → Nat → Prop
  | padded (zeros value : Nat) :
      DecimalText (List.replicate zeros '0' ++ Nat.toDigits 10 value) value

variable {c : Char} {digits : List Char} {value : Nat}

theorem isDigit_iff : isDigit c = true ↔ 48 ≤ c.toNat ∧ c.toNat ≤ 57 := by
  unfold isDigit
  rw [Bool.and_eq_true, decide_eq_true_eq, decide_eq_true_eq]
  exact Iff.rfl

theorem digitValue_lt (digit : isDigit c = true) : digitValue c < 10 := by
  have bounds := isDigit_iff.mp digit
  have zero : '0'.toNat = 48 := rfl
  unfold digitValue
  omega

/-- A digit is the one of its value. -/
theorem digitChar_digitValue (digit : isDigit c = true) : (digitValue c).digitChar = c := by
  have bounds := isDigit_iff.mp digit
  have zero : '0'.toNat = 48 := rfl
  apply Char.toNat_inj.mp
  rw [Nat.toNat_digitChar_of_lt_ten (digitValue_lt digit)]
  unfold digitValue
  omega

theorem isDigit_of_mem_toDigits (member : c ∈ Nat.toDigits 10 value) : isDigit c = true := by
  have digit := Nat.isDigit_of_mem_toDigits (by decide) (by decide) member
  simpa [Char.isDigit, isDigit_iff, UInt32.le_iff_toNat_le] using digit

theorem DecimalText.all_digits (decimal : DecimalText digits value) :
    ∀ c ∈ digits, isDigit c = true := by
  cases decimal with
  | padded zeros =>
      intro c member
      rcases List.mem_append.mp member with zero | digit
      · rw [List.eq_of_mem_replicate zero]
        rfl
      · exact isDigit_of_mem_toDigits digit

theorem DecimalText.ne_nil (decimal : DecimalText digits value) : digits ≠ [] := by
  cases decimal with
  | padded zeros => exact List.append_ne_nil_of_right_ne_nil _ Nat.toDigits_ne_nil

theorem digitsValue_toDigits (value : Nat) : digitsValue (Nat.toDigits 10 value) = value :=
  Nat.ofDigitChars_ten_toDigits

/-- Zeros in front add nothing. -/
theorem DecimalText.digitsValue_eq (decimal : DecimalText digits value) :
    digitsValue digits = value := by
  cases decimal with
  | padded zeros =>
      have none : digitsValue (List.replicate zeros '0') = 0 := by
        induction zeros with
        | zero => rfl
        | succ zeros ih =>
            rw [List.replicate_succ', digitsValue_append_singleton, ih]
            rfl
      have later := digitsValue_toDigits value
      unfold digitsValue at none later ⊢
      rw [List.foldl_append, none, later]

/-- One digit more. -/
theorem DecimalText.concat (decimal : DecimalText digits value) (digit : isDigit c = true) :
    DecimalText (digits ++ [c]) (10 * value + digitValue c) := by
  have small := digitValue_lt digit
  have last : Nat.toDigits 10 (digitValue c) = [c] := by
    rw [Nat.toDigits_of_lt_base small, digitChar_digitValue digit]
  cases decimal with
  | padded zeros =>
      by_cases none : value = 0
      · -- A lone zero has no decimal text of more digits, so it is one of the zeros now.
        subst none
        have more := DecimalText.padded (zeros + 1) (digitValue c)
        rw [last, List.replicate_succ'] at more
        rw [Nat.mul_zero, Nat.zero_add]
        exact more
      · have more := DecimalText.padded zeros (10 * value + digitValue c)
        rw [← Nat.toDigits_append_toDigits (by decide) (by omega) small, last] at more
        rwa [List.append_assoc]

/-- Digits are the decimal text of their value. -/
theorem decimalText_digitsValue (present : digits ≠ []) (all : ∀ c ∈ digits, isDigit c = true) :
    DecimalText digits (digitsValue digits) := by
  induction digits using List.reverseRecOn with
  | nil => exact absurd rfl present
  | append_singleton digits c ih =>
      have digit := all c (List.mem_append_right _ List.mem_cons_self)
      rw [digitsValue_append_singleton]
      by_cases none : digits = []
      · subst none
        have lone := DecimalText.padded 0 (digitValue c)
        rw [Nat.toDigits_of_lt_base (digitValue_lt digit), digitChar_digitValue digit] at lone
        simpa using lone
      · exact (ih none fun c member => all c (List.mem_append_left _ member)).concat digit

/-- No digit is a blank. -/
theorem isBlank_of_isDigit (digit : isDigit c = true) : isBlank c = false := by
  have bounds := isDigit_iff.mp digit
  simp only [isBlank, Bool.or_eq_false_iff, Bool.and_eq_false_iff, decide_eq_false_iff_not,
    beq_eq_false_iff_ne]
  omega

/-- Numbers are words. -/
theorem DecimalText.bare (decimal : DecimalText digits value) : Bare digits where
  first c head := isBlank_of_isDigit (decimal.all_digits c (List.mem_of_mem_head? head))
  last c last := isBlank_of_isDigit (decimal.all_digits c (List.mem_of_mem_getLast? last))

end MessageStore.Text
