import Mathlib.Data.List.Basic
import MessageStore.Since
import MessageStore.Proofs.Text.Words

/-!
# The texts of replay markers

The grammar of the words that subscribers write for markers, and the parser that
recognises it: blanks around a word do not count, every word stands for one
marker, and none is refused.  Numbers beyond a limit change what a word stands
for, and each limit in its own way: a timestamp that no instant has and a look-back
past the first instant ask for everything, while a count or a look-back that is
too great makes the word an ID.
-/

namespace MessageStore.Since

open Text (Bare DecimalText Wraps digitsValue isDigit strip strip_eq_iff wraps_strip)

/-! ## Look-backs -/

/-- The unit of a look-back and the seconds in it. -/
inductive UnitText : Char → Nat → Prop
  | seconds : UnitText 's' 1
  | minutes : UnitText 'm' 60
  | hours : UnitText 'h' 3600
  | days : UnitText 'd' 86400

/-- A look-back: the decimal text of a count, perhaps behind zeros, and a unit. -/
inductive LookBackText : List Char → Nat → Nat → Prop
  | counted {digits : List Char} {count : Nat} {unit : Char} {seconds : Nat}
      (decimal : DecimalText digits count) (inUnits : UnitText unit seconds) :
      LookBackText (digits ++ [unit]) count seconds

variable {now : Instant} {word : List Char} {value count seconds : Nat} {marker : Since}

theorem UnitText.pos {unit : Char} (inUnits : UnitText unit seconds) : 0 < seconds := by
  cases inUnits <;> decide

theorem LookBackText.seconds_pos (text : LookBackText word count seconds) : 0 < seconds := by
  cases text with
  | counted _ inUnits => exact inUnits.pos

/-- A look-back begins with a digit and ends with its unit. -/
theorem LookBackText.bare (text : LookBackText word count seconds) : Bare word := by
  cases text with
  | @counted digits _ unit _ decimal inUnits =>
      constructor
      · intro c head
        rw [List.head?_append_of_ne_nil _ decimal.ne_nil] at head
        exact decimal.bare.first c head
      · intro c last
        rw [List.getLast?_concat, Option.mem_some_iff] at last
        subst last
        cases inUnits <;> rfl

theorem unitSeconds?_eq_some_iff {unit : Char} :
    unitSeconds? unit = some seconds ↔ UnitText unit seconds := by
  constructor
  · intro found
    unfold unitSeconds? at found
    split at found
    · cases found; exact .seconds
    · cases found; exact .minutes
    · cases found; exact .hours
    · cases found; exact .days
    · cases found
  · rintro (_ | _ | _ | _) <;> rfl

/-- A count in digits spans its units, unless one of the two limits is passed. -/
theorem LookBackText.lookBack?_eq (text : LookBackText word count seconds) :
    lookBack? word =
      if count ≤ greatestCount ∧ count * seconds ≤ longestLookBack then some (count * seconds)
      else none := by
  cases text with
  | @counted digits _ unit _ decimal inUnits =>
      have digital : ¬ (digits = [] ∨ ¬ digits.all isDigit = true) := by
        simpa using ⟨decimal.ne_nil, decimal.all_digits⟩
      simp only [lookBack?, List.getLast?_concat, List.dropLast_concat, Option.bind_eq_bind,
        Option.bind_some, unitSeconds?_eq_some_iff.mpr inUnits, decimal.digitsValue_eq,
        if_neg digital]

/-- Only look-backs span seconds. -/
theorem lookBackText_of_lookBack? {span : Nat} (found : lookBack? word = some span) :
    ∃ count seconds, LookBackText word count seconds := by
  unfold lookBack? at found
  obtain ⟨unit, last, found⟩ := Option.bind_eq_some_iff.mp found
  dsimp only at found
  split at found
  · cases found
  · rename_i digital
    obtain ⟨seconds, inUnits, -⟩ := Option.bind_eq_some_iff.mp found
    rw [not_or, not_not, List.all_eq_true] at digital
    have decimal := Text.decimalText_digitsValue digital.1 digital.2
    rw [← List.dropLast_append_getLast? unit last]
    exact ⟨_, seconds, .counted decimal (unitSeconds?_eq_some_iff.mp inUnits)⟩

/-- A look-back ends with its unit, which is no digit. -/
theorem LookBackText.not_all_digits (text : LookBackText word count seconds) :
    ¬ word.all isDigit = true := by
  cases text with
  | counted _ inUnits => cases inUnits <;> simp [isDigit]

/-- The words with a meaning of their own are empty or end with one of two letters. -/
theorem ne_word_of_last {c : Char} (last : word.getLast? = some c) (notE : c ≠ 'e')
    (notL : c ≠ 'l') : ¬ (word = [] ∨ word = ['n', 'o', 'n', 'e']) ∧ word ≠ ['a', 'l', 'l'] := by
  constructor
  · rintro (rfl | rfl)
    · cases last
    · exact notE (Option.some.inj last).symm
  · rintro rfl
    exact notL (Option.some.inj last).symm

/-- No word with a meaning of its own is a look-back. -/
theorem LookBackText.ne_word (text : LookBackText word count seconds) :
    ¬ (word = [] ∨ word = ['n', 'o', 'n', 'e']) ∧ word ≠ ['a', 'l', 'l'] := by
  cases text with
  | counted _ inUnits =>
      apply ne_word_of_last List.getLast?_concat
      · cases inUnits <;> decide
      · cases inUnits <;> decide

/-- No word with a meaning of its own is a number. -/
theorem ne_word_of_decimalText (decimal : DecimalText word value) :
    ¬ (word = [] ∨ word = ['n', 'o', 'n', 'e']) ∧ word ≠ ['a', 'l', 'l'] := by
  have digit := decimal.all_digits _ (List.getLast_mem decimal.ne_nil)
  apply ne_word_of_last (List.getLast?_eq_some_getLast decimal.ne_nil)
  · intro same
    rw [same] at digit
    cases digit
  · intro same
    rw [same] at digit
    cases digit

/-! ## Markers -/

/-- The limits of look-backs: the count is a signed 64-bit integer, and so is the span when it is
counted in milliseconds. -/
structure Within (count seconds : Nat) : Prop where
  count_le : (count : Int) ≤ Int64.maxValue.toInt
  span_le : count * seconds ≤ 9223372036854775

/-- The grammar of markers: the marker that a word stands for at the given time. -/
inductive MarkerText (now : Instant) : List Char → Since → Prop
  | empty : MarkerText now [] nothing
  | noneWord : MarkerText now ['n', 'o', 'n', 'e'] nothing
  | allWord : MarkerText now ['a', 'l', 'l'] everything
  | timestamp {word : List Char} {value : Nat} (decimal : DecimalText word value)
      (bounded : (value : Int) ≤ Int64.maxValue.toInt) : MarkerText now word (ofUnix value)
  | greatNumber {word : List Char} {value : Nat} (decimal : DecimalText word value)
      (great : Int64.maxValue.toInt < value) : MarkerText now word (message (String.ofList word))
  | lookBack {word : List Char} {count seconds : Nat} (text : LookBackText word count seconds)
      (within : Within count seconds) (instant : Instant)
      (earlier : instant.seconds = now.seconds - count * seconds)
      (part : instant.nanos = now.nanos) : MarkerText now word (time instant)
  | pastFirst {word : List Char} {count seconds : Nat} (text : LookBackText word count seconds)
      (within : Within count seconds)
      (past : now.seconds - count * seconds < Instant.earliest) : MarkerText now word everything
  | greatLookBack {word : List Char} {count seconds : Nat}
      (text : LookBackText word count seconds) (great : ¬ Within count seconds) :
      MarkerText now word (message (String.ofList word))
  | id {word : List Char} (present : word ≠ []) (notNone : word ≠ ['n', 'o', 'n', 'e'])
      (notAll : word ≠ ['a', 'l', 'l']) (notNumber : ∀ value, ¬ DecimalText word value)
      (notLookBack : ∀ count seconds, ¬ LookBackText word count seconds) :
      MarkerText now word (message (String.ofList word))

theorem le_greatestCount_iff : value ≤ greatestCount ↔ (value : Int) ≤ Int64.maxValue.toInt := by
  rw [Int64.toInt_maxValue, greatestCount]
  omega

theorem not_le_greatestCount_iff :
    ¬ value ≤ greatestCount ↔ Int64.maxValue.toInt < (value : Int) := by
  rw [le_greatestCount_iff, Int.not_le]

theorem within_iff :
    Within count seconds ↔ count ≤ greatestCount ∧ count * seconds ≤ longestLookBack := by
  rw [le_greatestCount_iff]
  exact ⟨fun within => ⟨within.count_le, within.span_le⟩, fun limits => ⟨limits.1, limits.2⟩⟩

/-- A number is a timestamp up to its limit, and an ID beyond it. -/
theorem ofWord_decimal (decimal : DecimalText word value) :
    ofWord now word =
      if value ≤ greatestCount then ofUnix value else message (String.ofList word) := by
  have digits : word.all isDigit = true := List.all_eq_true.mpr decimal.all_digits
  obtain ⟨notNothing, notAll⟩ := ne_word_of_decimalText decimal
  rw [ofWord, if_neg notNothing, if_neg notAll, if_pos digits, decimal.digitsValue_eq]

/-- A word that is no number and has no meaning of its own is a look-back or an ID. -/
theorem ofWord_other (notNothing : ¬ (word = [] ∨ word = ['n', 'o', 'n', 'e']))
    (notAll : word ≠ ['a', 'l', 'l']) (notNumber : ¬ word.all isDigit = true) :
    ofWord now word =
      match lookBack? word with
      | some seconds => match now.minus? seconds with
        | some instant => time instant
        | none => everything
      | none => message (String.ofList word) :=
  (if_neg notNothing).trans ((if_neg notAll).trans (if_neg notNumber))

/-- Within its limits a look-back goes back from now, or to the beginning. -/
theorem ofWord_lookBack (text : LookBackText word count seconds) (within : Within count seconds) :
    ofWord now word =
      match now.minus? (count * seconds) with
      | some instant => time instant
      | none => everything := by
  rw [ofWord_other text.ne_word.1 text.ne_word.2 text.not_all_digits, text.lookBack?_eq,
    if_pos (within_iff.mp within)]

/-- Beyond a limit a look-back is an ID. -/
theorem ofWord_greatLookBack (text : LookBackText word count seconds)
    (great : ¬ Within count seconds) :
    ofWord now word = message (String.ofList word) := by
  rw [ofWord_other text.ne_word.1 text.ne_word.2 text.not_all_digits, text.lookBack?_eq,
    if_neg (mt within_iff.mpr great)]

/-- A word that has no other meaning is an ID. -/
theorem ofWord_id (notNothing : ¬ (word = [] ∨ word = ['n', 'o', 'n', 'e']))
    (notAll : word ≠ ['a', 'l', 'l']) (notNumber : ∀ value, ¬ DecimalText word value)
    (notLookBack : ∀ count seconds, ¬ LookBackText word count seconds) :
    ofWord now word = message (String.ofList word) := by
  have notDigits : ¬ word.all isDigit = true := by
    intro digits
    exact notNumber _ (Text.decimalText_digitsValue (fun none => notNothing (.inl none))
      (List.all_eq_true.mp digits))
  have noSpan : lookBack? word = none := by
    rw [Option.eq_none_iff_forall_ne_some]
    intro span found
    obtain ⟨count, seconds, text⟩ := lookBackText_of_lookBack? found
    exact notLookBack count seconds text
  rw [ofWord_other notNothing notAll notDigits, noSpan]

/-- An earlier instant is found unless it lies before the first one. -/
theorem minus?_eq_none_iff {seconds : Nat} :
    now.minus? seconds = none ↔ now.seconds - seconds < Instant.earliest := by
  have last := now.le_latest
  have part := now.nanos_lt
  rw [Instant.minus?, Instant.of?_eq_none_iff]
  omega

/-- Every word stands for a marker. -/
theorem markerText_ofWord (now : Instant) (word : List Char) :
    MarkerText now word (ofWord now word) := by
  by_cases notNothing : word = [] ∨ word = ['n', 'o', 'n', 'e']
  · rcases notNothing with rfl | rfl
    · exact .empty
    · exact .noneWord
  by_cases notAll : word = ['a', 'l', 'l']
  · subst notAll
    exact .allWord
  by_cases number : ∃ value, DecimalText word value
  · obtain ⟨value, decimal⟩ := number
    rw [ofWord_decimal decimal]
    split
    · rename_i bounded
      exact .timestamp decimal (le_greatestCount_iff.mp bounded)
    · rename_i great
      exact .greatNumber decimal (not_le_greatestCount_iff.mp great)
  by_cases lookBack : ∃ count seconds, LookBackText word count seconds
  · obtain ⟨count, seconds, text⟩ := lookBack
    by_cases within : Within count seconds
    · rw [ofWord_lookBack text within]
      split
      · rename_i instant found
        obtain ⟨earlier, part⟩ := Instant.of?_eq_some_iff.mp found
        exact .lookBack text within instant (by rw [earlier]; push_cast; rfl) part
      · rename_i past
        have before := minus?_eq_none_iff.mp past
        push_cast at before
        exact .pastFirst text within before
    · rw [ofWord_greatLookBack text within]
      exact .greatLookBack text within
  · push Not at number lookBack
    rw [ofWord_id notNothing notAll number lookBack]
    rw [not_or] at notNothing
    exact .id notNothing.1 notNothing.2 notAll number lookBack

/-- No word stands for two markers. -/
theorem MarkerText.ofWord_eq (text : MarkerText now word marker) : ofWord now word = marker := by
  cases text with
  | empty => rfl
  | noneWord => rfl
  | allWord => rfl
  | timestamp decimal bounded =>
      rw [ofWord_decimal decimal, if_pos (le_greatestCount_iff.mpr bounded)]
  | greatNumber decimal great =>
      rw [ofWord_decimal decimal, if_neg (not_le_greatestCount_iff.mpr great)]
  | @lookBack _ count seconds text within instant earlier part =>
      have found : Instant.of? (now.seconds - count * seconds) now.nanos = some instant :=
        Instant.of?_eq_some_iff.mpr ⟨earlier, part⟩
      rw [ofWord_lookBack text within, Instant.minus?]
      push_cast
      rw [found]
  | @pastFirst _ count seconds text within past =>
      have none : now.minus? (count * seconds) = none :=
        minus?_eq_none_iff.mpr (by push_cast; exact past)
      rw [ofWord_lookBack text within, none]
  | greatLookBack text great => exact ofWord_greatLookBack text great
  | id present notNone notAll notNumber notLookBack =>
      exact ofWord_id (not_or.mpr ⟨present, notNone⟩) notAll notNumber notLookBack

/-- Words are parsed as they are. -/
theorem parse_eq_ofWord {text : String} (bare : Bare text.toList) :
    parse now text = ofWord now text.toList := by
  rw [parse, bare.strip_eq]

theorem ofUnix_ne_nothing {seconds : Int} : ofUnix seconds ≠ nothing := by
  unfold ofUnix
  split <;> simp

/-- The words that ask for no replay. -/
theorem markerText_nothing_iff :
    MarkerText now word nothing ↔ word = [] ∨ word = ['n', 'o', 'n', 'e'] := by
  constructor
  · intro text
    generalize asked : nothing = marker at text
    cases text with
    | empty => exact .inl rfl
    | noneWord => exact .inr rfl
    | timestamp => exact absurd asked.symm ofUnix_ne_nothing
    | allWord | greatNumber | lookBack | pastFirst | greatLookBack | id => cases asked
  · rintro (rfl | rfl)
    · exact .empty
    · exact .noneWord

/-- A text stands for the marker of the word in it, as the grammar says, and for no other; it
asks for no replay only if the word is empty or `none`.  In particular every number up to the
limit is a timestamp, whatever zeros stand in front of it. -/
theorem parse_recognizes (now : Instant) :
    (∀ text, ∃ word, (∀ other, Wraps text.toList other ↔ other = word) ∧
      (∀ marker, parse now text = marker ↔ MarkerText now word marker) ∧
      (parse now text = nothing ↔ word = [] ∨ word = ['n', 'o', 'n', 'e']) ∧
      parse now (String.ofList word) = parse now text) ∧
    ∀ zeros (value : Nat), (value : Int) ≤ Int64.maxValue.toInt →
      parse now (String.ofList (List.replicate zeros '0' ++ Nat.toDigits 10 value)) =
        ofUnix value := by
  have recognizes : ∀ text marker, parse now text = marker ↔
      MarkerText now (strip text.toList) marker := by
    intro text marker
    constructor
    · rintro rfl
      exact markerText_ofWord now _
    · exact MarkerText.ofWord_eq
  refine ⟨fun text => ⟨strip text.toList, ?_, recognizes text, ?_, ?_⟩, ?_⟩
  · intro other
    rw [← strip_eq_iff]
    exact eq_comm
  · rw [recognizes, markerText_nothing_iff]
  · rw [parse, String.toList_ofList, (wraps_strip text.toList).bare.strip_eq]
    rfl
  · intro zeros value bounded
    have decimal := DecimalText.padded zeros value
    rw [recognizes, String.toList_ofList, decimal.bare.strip_eq]
    exact .timestamp decimal bounded

/-- Zeros in front of a timestamp and blanks around a word do not count. -/
theorem parse_recognizes_padded :
    let now : Instant := ⟨1700000000, 0, by decide, by decide, by decide⟩
    7 ≤ Int64.maxValue.toInt ∧
      parse now (String.ofList ['0', '0', '7']) =
        time ⟨7, 0, by decide, by decide, by decide⟩ ∧
      parse now "\u3000all\n" = everything := by
  intro now
  obtain ⟨recognizes, numbers⟩ := parse_recognizes now
  obtain ⟨word, unique, marker, -⟩ := recognizes "\u3000all\n"
  have wraps : Wraps (['\u3000'] ++ (['a', 'l', 'l'] ++ ['\n'])) ['a', 'l', 'l'] :=
    .blanks (List.forall_mem_singleton.mpr rfl) ⟨by rintro _ ⟨⟩; rfl, by rintro _ ⟨⟩; rfl⟩
      (List.forall_mem_singleton.mpr rfl)
  obtain rfl := (unique _).mp wraps
  exact ⟨by decide, numbers 2 7 (by decide), (marker _).mpr .allWord⟩

end MessageStore.Since
