import MessageStore.Json.Printer
import MessageStore.Json.Scalar
import MessageStore.Proofs.Json.Tokens
import MessageStore.Proofs.Text.Words

/-!
# Spellings of numbers

A number is spelled with an optional minus sign, digits without a leading zero,
and an optional fraction and exponent.  Its parts are found whenever a blank, a
delimiter or nothing follows, and integers that are written are read as
themselves.
-/

namespace MessageStore.Json

open Rounding (twoTo)
open Text (digitsValue digitsValue_toDigits isDigit)

variable {text rest : List Char}

/-! ## Digits -/

/-- One or more digits. -/
def Digits (text : List Char) : Prop :=
  text ≠ [] ∧ ∀ c ∈ text, isDigit c = true

/-- No digit follows. -/
def NoDigit (text : List Char) : Prop :=
  ∀ c ∈ text.head?, isDigit c = false

theorem splitDigits_of_digits {digits : List Char} (all : ∀ c ∈ digits, isDigit c = true)
    (ends : NoDigit rest) : splitDigits (digits ++ rest) = (digits, rest) := by
  unfold splitDigits
  rw [List.takeWhile_append_of_pos all, List.dropWhile_append_of_pos all]
  cases rest with
  | nil => simp
  | cons c rest => simp [ends c rfl]

/-- What ends a value goes on with no part of a number. -/
theorem Stops.ends {c : Char} (stops : Stops (c :: rest)) :
    isDigit c = false ∧ c ≠ '.' ∧ c ≠ 'e' ∧ c ≠ 'E' := by
  have stop := stops c rfl
  simp only [isSpace, isDelimiter, Bool.or_eq_true, beq_iff_eq] at stop
  rcases stop with ((((rfl | rfl) | rfl) | rfl) | ((rfl | rfl) | rfl)) <;> decide

theorem Stops.noDigit (stops : Stops rest) : NoDigit rest := by
  cases rest with
  | nil => nofun
  | cons c rest =>
      rintro _ ⟨⟩
      exact stops.ends.1

/-! ## The parts of a number -/

/-- A minus sign or none. -/
inductive MinusText : List Char → Bool → Prop
  | absent : MinusText [] false
  | present : MinusText ['-'] true

/-- The digits before the point: a lone zero, or digits that do not begin with one. -/
inductive WholeText : List Char → Prop
  | zero : WholeText ['0']
  | digits {c : Char} {more : List Char} (digit : isDigit c = true) (noZero : c ≠ '0')
      (all : ∀ c ∈ more, isDigit c = true) : WholeText (c :: more)

/-- A point with digits behind it, or nothing. -/
inductive FractionText : List Char → Option (List Char) → Prop
  | absent : FractionText [] none
  | point {digits : List Char} (all : Digits digits) : FractionText ('.' :: digits) (some digits)

/-- A sign of either kind, or none. -/
inductive SignText : List Char → Bool → Prop
  | absent : SignText [] false
  | plus : SignText ['+'] false
  | minus : SignText ['-'] true

/-- An exponent behind its mark, or nothing. -/
inductive ExponentText : List Char → Option (Bool × List Char) → Prop
  | absent : ExponentText [] none
  | marked {mark : Char} {sign digits : List Char} {negative : Bool}
      (isMark : mark = 'e' ∨ mark = 'E') (signed : SignText sign negative) (all : Digits digits) :
      ExponentText (mark :: (sign ++ digits)) (some (negative, digits))

theorem WholeText.all_digits {whole : List Char} (spelling : WholeText whole) :
    ∀ c ∈ whole, isDigit c = true := by
  cases spelling with
  | zero => simp [isDigit]
  | digits digit _ all => simpa [digit] using all

/-- An exponent is found before anything that ends the number. -/
theorem exponentPart_of_text {exponent : List Char} {parts : Option (Bool × List Char)}
    (spelling : ExponentText exponent parts) (stops : Stops rest) :
    exponentPart (exponent ++ rest) = .ok (parts, rest) := by
  cases spelling with
  | absent =>
      cases rest with
      | nil => rfl
      | cons c rest =>
          obtain ⟨-, -, noSmall, noGreat⟩ := stops.ends
          simp [exponentPart, noSmall, noGreat]
  | @marked mark sign digits negative isMark signed all =>
      obtain ⟨some', all⟩ := all
      have split := splitDigits_of_digits all stops.noDigit
      cases digits with
      | nil => exact absurd rfl some'
      | cons c digits =>
          have digit : isDigit c = true := all c List.mem_cons_self
          have noPlus : c ≠ '+' := by
            rintro rfl
            cases digit
          have noMinus : c ≠ '-' := by
            rintro rfl
            cases digit
          simp only [List.cons_append] at split
          cases signed with
          | absent => simp [exponentPart, isMark, noPlus, noMinus, split]
          | plus => simp [exponentPart, isMark, split]
          | minus => simp [exponentPart, isMark, split]

theorem ExponentText.head {exponent : List Char} {parts : Option (Bool × List Char)}
    (spelling : ExponentText exponent parts) (stops : Stops rest) :
    ∀ c ∈ (exponent ++ rest).head?, isDigit c = false ∧ c ≠ '.' := by
  cases spelling with
  | absent =>
      cases rest with
      | nil => nofun
      | cons c rest =>
          rintro _ ⟨⟩
          exact ⟨stops.ends.1, stops.ends.2.1⟩
  | marked isMark _ _ =>
      rintro _ ⟨⟩
      rcases isMark with rfl | rfl <;> decide

/-- A fraction is found before an exponent. -/
theorem fractionPart_of_text {fraction : List Char} {parts : Option (List Char)}
    (spelling : FractionText fraction parts)
    (ends : ∀ c ∈ rest.head?, isDigit c = false ∧ c ≠ '.') :
    fractionPart (fraction ++ rest) = .ok (parts, rest) := by
  cases spelling with
  | absent =>
      cases rest with
      | nil => rfl
      | cons c rest => simp [fractionPart, (ends c rfl).2]
  | @point digits all =>
      have split := splitDigits_of_digits all.2 fun c head => (ends c head).1
      cases digits with
      | nil => exact absurd rfl all.1
      | cons c digits =>
          simp only [List.cons_append] at split
          simp [fractionPart, split]

/-- The parts of a number without its sign are found before anything that ends it. -/
theorem numberText_of_parts {whole fraction exponent : List Char} {places : Option (List Char)}
    {power : Option (Bool × List Char)} (spelling : WholeText whole)
    (point : FractionText fraction places) (scale : ExponentText exponent power)
    (stops : Stops rest) :
    numberText (whole ++ (fraction ++ (exponent ++ rest))) = .ok (⟨whole, places, power⟩, rest) := by
  have ends : NoDigit (fraction ++ (exponent ++ rest)) := by
    cases point with
    | absent => exact fun c head => (scale.head stops c head).1
    | point _ =>
        rintro _ ⟨⟩
        rfl
  have split := splitDigits_of_digits spelling.all_digits ends
  have fractionRead := fractionPart_of_text point (scale.head stops)
  have exponentRead := exponentPart_of_text scale stops
  unfold numberText
  rw [split]
  cases spelling with
  | zero => simp [fractionRead, exponentRead]
  | digits _ noZero _ => simp [noZero, fractionRead, exponentRead]

theorem splitSign_of_minus {sign whole : List Char} {negative : Bool}
    (signed : MinusText sign negative) (spelling : WholeText whole) (rest : List Char) :
    splitSign (sign ++ (whole ++ rest)) = (negative, whole ++ rest) := by
  cases signed with
  | present => rfl
  | absent =>
      cases spelling with
      | zero => rfl
      | @digits c _ digit _ _ =>
          have noMinus : c ≠ '-' := by
            rintro rfl
            cases digit
          simp [splitSign, noMinus]

/-! ## Numbers -/

/-- A spelling of a number. -/
inductive NumberSpelling : List Char → Prop
  | parts {sign whole fraction exponent : List Char} {negative : Bool}
      {places : Option (List Char)} {power : Option (Bool × List Char)}
      (signed : MinusText sign negative) (spelling : WholeText whole)
      (point : FractionText fraction places) (scale : ExponentText exponent power) :
      NumberSpelling (sign ++ (whole ++ (fraction ++ exponent)))

/-- A number begins with its sign or a digit. -/
theorem beginsNumber_of_parts {sign whole : List Char} {negative : Bool}
    (signed : MinusText sign negative) (spelling : WholeText whole) :
    ∃ c later, sign ++ whole = c :: later ∧ beginsNumber c = true := by
  cases signed with
  | present => exact ⟨'-', whole, rfl, rfl⟩
  | absent =>
      cases spelling with
      | zero => exact ⟨'0', [], rfl, rfl⟩
      | @digits c more digit _ _ => exact ⟨c, more, rfl, by simp [beginsNumber, digit]⟩

theorem NumberSpelling.beginsNumber (spelling : NumberSpelling text) :
    ∃ c later, text = c :: later ∧ beginsNumber c = true := by
  cases spelling with
  | @parts sign whole fraction exponent _ _ _ signed spelling _ _ =>
      obtain ⟨c, later, same, begins⟩ := beginsNumber_of_parts signed spelling
      refine ⟨c, later ++ (fraction ++ exponent), ?_, begins⟩
      rw [← List.append_assoc, same]
      rfl

/-- A number is skipped before anything that ends it. -/
theorem NumberSpelling.skips (spelling : NumberSpelling text) (stops : Stops rest) :
    Skips skipNumber (text ++ rest) rest := by
  cases spelling with
  | @parts sign whole fraction exponent negative places power signed spelling point scale =>
      have read := numberText_of_parts spelling point scale stops
      have sign' := splitSign_of_minus signed spelling (fraction ++ (exponent ++ rest))
      simp only [List.append_assoc]
      unfold Skips skipNumber
      split
      · rename_i failed
        rw [sign', read] at failed
        cases failed
      · rename_i found
        rw [sign', read] at found
        cases found
        rfl

/-- The number that parts stand for is read, before anything that ends it. -/
theorem number_of_parts {sign whole fraction exponent : List Char} {negative : Bool}
    {places : Option (List Char)} {power : Option (Bool × List Char)}
    (signed : MinusText sign negative) (spelling : WholeText whole)
    (point : FractionText fraction places) (scale : ExponentText exponent power)
    (stops : Stops rest) :
    outcome number (sign ++ (whole ++ (fraction ++ (exponent ++ rest)))) =
      ((NumberText.mk whole places power).value negative).map (·, rest) := by
  have signRead := splitSign_of_minus signed spelling (fraction ++ (exponent ++ rest))
  have read := numberText_of_parts spelling point scale stops
  unfold outcome number
  split
  · rename_i failed
    rw [signRead] at failed
    cases read.symm.trans failed
  · rename_i judged _ found
    rw [signRead] at found
    cases read.symm.trans found
    simp only [signRead]
    cases (NumberText.mk whole places power).value negative <;> rfl

theorem solid_of_beginsNumber {c : Char} (number : beginsNumber c = true) :
    isSpace c = false ∧ isDelimiter c = false := by
  constructor
  · refine Bool.eq_false_iff.mpr fun blank => ?_
    simp only [isSpace, Bool.or_eq_true, beq_iff_eq] at blank
    rcases blank with ((rfl | rfl) | rfl) | rfl <;> cases number
  · refine Bool.eq_false_iff.mpr fun delimiter => ?_
    simp only [isDelimiter, Bool.or_eq_true, beq_iff_eq] at delimiter
    rcases delimiter with (rfl | rfl) | rfl <;> cases number

/-- The number that parts stand for is judged as an integer, wherever they stand. -/
theorem integer_of_parts {least greatest : Int} {sign whole fraction exponent before : List Char}
    {negative : Bool} {places : Option (List Char)} {power : Option (Bool × List Char)}
    (signed : MinusText sign negative) (spelling : WholeText whole)
    (point : FractionText fraction places) (scale : ExponentText exponent power)
    (blank : Blank before) (stops : Stops rest) :
    outcome (integer least greatest)
        (before ++ (sign ++ (whole ++ (fraction ++ exponent)) ++ rest)) = do
      let value ← (NumberText.mk whole places power).value negative
      let integer ← (value.between least greatest).mapError .mismatch
      return (integer, rest) := by
  obtain ⟨c, later, same, begins⟩ := beginsNumber_of_parts signed spelling
  have shape : sign ++ (whole ++ (fraction ++ exponent)) ++ rest =
      c :: (later ++ (fraction ++ (exponent ++ rest))) := by
    simp only [← List.append_assoc, same, List.cons_append]
  have next : Next (before ++ c :: (later ++ (fraction ++ (exponent ++ rest)))) c
      (later ++ (fraction ++ (exponent ++ rest))) :=
    next_of_blank blank (solid_of_beginsNumber begins).1
  obtain ⟨left, found, followed⟩ := next
  have front : sign ++ (whole ++ (fraction ++ (exponent ++ rest))) = c :: left.val := by
    rw [followed, ← List.append_assoc sign, same]
    rfl
  have read := number_of_parts signed spelling point scale stops
  rw [front] at read
  rw [shape]
  unfold outcome integer
  rw [found]
  simp only [begins, if_true]
  cases judged : (NumberText.mk whole places power).value negative with
  | error fault =>
      rw [judged] at read
      rw [taken_eq_error_iff.mp read]
      rfl
  | ok value =>
      rw [judged] at read
      obtain ⟨final, numberRead, ended⟩ := taken_eq_ok_iff.mp read
      simp only [numberRead, bind, Except.bind]
      cases value.between least greatest with
      | error mismatch => rfl
      | ok n => simp [Except.mapError, pure, Except.pure, ended]

/-! ## Integers that are written -/

/-- The decimal digits of a natural number have no leading zero beside a lone one. -/
theorem wholeText_toDigits (value : Nat) : WholeText (Nat.toDigits 10 value) := by
  have noZero_of_lt : ∀ digit < 10, digit ≠ 0 → digit.digitChar ≠ '0' := by decide
  by_cases zero : value = 0
  · subst zero
    exact .zero
  · have leading : ∃ c more, Nat.toDigits 10 value = c :: more ∧ c ≠ '0' := by
      -- All digits but the last are those of the number without it.
      induction value using Nat.strongRecOn with
      | ind value ih =>
          by_cases small : value < 10
          · exact ⟨_, [], Nat.toDigits_of_lt_base small, noZero_of_lt value small zero⟩
          · obtain ⟨c, more, split, noZero⟩ := ih (value / 10) (by omega) (by omega)
            refine ⟨c, more ++ [(value % 10).digitChar], ?_, noZero⟩
            rw [Nat.toDigits_of_base_le (by decide) (by omega), split]
            rfl
    obtain ⟨c, more, same, noZero⟩ := leading
    have all : ∀ d ∈ c :: more, isDigit d = true :=
      same ▸ fun _ member => Text.isDigit_of_mem_toDigits member
    rw [same]
    exact .digits (all c List.mem_cons_self) noZero
      fun d member => all d (List.mem_cons_of_mem c member)

/-- The sign of an integer that is written. -/
theorem writeInteger_eq (value : Int) : ∃ sign, MinusText sign (decide (value < 0)) ∧
    writeInteger value = sign ++ Nat.toDigits 10 value.natAbs := by
  unfold writeInteger
  split
  · rename_i negative
    exact ⟨['-'], by simpa [negative] using MinusText.present, rfl⟩
  · rename_i natural
    exact ⟨[], by simpa [natural] using MinusText.absent, rfl⟩

/-- The number that an integer is. -/
def Number.ofInt (value : Int) : Number :=
  if value < 0 then .negative value.natAbs else .natural value.natAbs

/-- The integers that are numbers of their own kind. -/
def Exact (value : Int) : Prop :=
  -(twoTo 63 : Int) ≤ value ∧ value < significandBound

/-- The parts of an integer that is written stand for it. -/
theorem value_toDigits {value : Int} (exact : Exact value) :
    (NumberText.mk (Nat.toDigits 10 value.natAbs) none none).value (decide (value < 0)) =
      .ok (.ofInt value) := by
  obtain ⟨low, high⟩ := exact
  have half : twoTo 63 < significandBound := by decide
  have small : value.natAbs < significandBound := by omega
  unfold NumberText.value Number.ofInt
  rw [digitsValue_toDigits]
  by_cases negative : value < 0
  · have bound : 0 < value.natAbs ∧ value.natAbs ≤ twoTo 63 := by omega
    simp [small, negative, bound]
  · simp [small, negative]

theorem Number.between_ofInt {least greatest value : Int} (low : least ≤ value)
    (high : value ≤ greatest) : (Number.ofInt value).between least greatest = .ok value := by
  unfold Number.ofInt
  split
  · have same : -(value.natAbs : Int) = value := by omega
    simp only [Number.between]
    rw [same, if_pos ⟨low, high⟩]
  · have same : (value.natAbs : Int) = value := by omega
    simp only [Number.between]
    rw [same, if_pos ⟨low, high⟩]

/-- An integer that is written is read where integers in a range around it are wanted. -/
theorem spells_writeInteger {least greatest value : Int} (low : least ≤ value)
    (high : value ≤ greatest) (exact : Exact value) :
    Spells (integer least greatest) (writeInteger value) value := by
  obtain ⟨sign, signed, written⟩ := writeInteger_eq value
  have spelling := wholeText_toDigits value.natAbs
  obtain ⟨c, later, same, begins⟩ := beginsNumber_of_parts signed spelling
  obtain ⟨solid, inside⟩ := solid_of_beginsNumber begins
  rw [written]
  refine ⟨⟨c, later, same, solid, inside⟩, @fun before rest blank stops => ?_⟩
  have read : outcome (integer least greatest) _ = _ :=
    integer_of_parts signed spelling .absent .absent blank stops
  rw [value_toDigits exact, List.append_nil, List.append_nil] at read
  simp only [bind, Except.bind, Number.between_ofInt low high] at read
  exact read

/-- A signed 64-bit integer that is written is read as itself. -/
theorem spells_int64 (value : Int64) : Spells int64 (writeInteger value.toInt) value := by
  have low : -(twoTo 63 : Int) ≤ value.toInt := value.le_toInt
  have high : value.toInt < (twoTo 63 : Int) := value.toInt_lt
  have half : twoTo 63 < significandBound := by decide
  have spells : Spells (integer Int64.minValue.toInt Int64.maxValue.toInt)
      (writeInteger value.toInt) value.toInt :=
    spells_writeInteger low (Int.le_sub_one_of_lt high) ⟨low, by omega⟩
  have changed := spells.map Int64.ofInt
  rwa [Int64.ofInt_toInt] at changed

/-- An unsigned 8-bit integer that is written is read as itself. -/
theorem spells_uint8 (value : UInt8) : Spells uint8 (writeInteger value.toNat) value := by
  have high : value.toNat < 2 ^ 8 := value.toNat_lt
  have small : 2 ^ 8 ≤ significandBound := by decide
  have spells : Spells (integer 0 255) (writeInteger value.toNat) value.toNat :=
    spells_writeInteger (by omega) (by omega) ⟨by omega, by omega⟩
  have changed := spells.map fun n => UInt8.ofNat n.toNat
  rwa [Int.toNat_natCast, UInt8.ofNat_toNat] at changed

end MessageStore.Json
