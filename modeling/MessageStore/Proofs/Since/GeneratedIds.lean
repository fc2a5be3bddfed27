import Mathlib.Algebra.Ring.Nat
import MessageStore.Message.Basic
import MessageStore.Proofs.Since.Recognition
import MessageStore.Proofs.Store.ReadBack
import MessageStore.Proofs.Text.Hexadecimal

/-!
# Generated IDs as markers

The IDs that are made of random bits are the texts of twelve hexadecimal digits.
Where a subscriber writes one of them as a marker it names the message, unless it
has a meaning of its own in the grammar of markers: twelve decimal digits are a
timestamp, and eleven of them before a `d` are a look-back in days.  IDs are too
short for a timestamp or a look-back to come to a limit of its form.
-/

namespace MessageStore

namespace Text

variable {word : List Char} {value : Nat}

/-- As many digits stand for a number below the power of ten. -/
theorem digitsValue_lt (digits : ∀ c ∈ word, isDigit c = true) :
    digitsValue word < 10 ^ word.length := by
  induction word using List.reverseRecOn with
  | nil => exact Nat.one_pos
  | append_singleton word c ih =>
      have before := ih fun c member => digits c (List.mem_append_left _ member)
      have small := digitValue_lt (digits c (List.mem_append_right _ List.mem_cons_self))
      rw [digitsValue_append_singleton, List.length_append, List.length_singleton, Nat.pow_succ]
      omega

theorem DecimalText.lt_pow (decimal : DecimalText word value) : value < 10 ^ word.length := by
  rw [← decimal.digitsValue_eq]
  exact digitsValue_lt decimal.all_digits

end Text

/-! ## Generated IDs -/

namespace Since

open Message (idLength idOfBits)
open Store (OfTopic IsPublished IsScheduled Reachable firstRow? orderedRows)
open Text (Bare DecimalText hexDigits isDigit lastHexDigits)

variable {now : Instant} {word digits : List Char} {value count seconds : Nat}

/-- A text of twelve hexadecimal digits in lower case. -/
structure GeneratedText (word : List Char) : Prop where
  length : word.length = idLength
  digits : ∀ c ∈ word, c ∈ hexDigits

/-- The generated IDs are the texts of twelve hexadecimal digits. -/
theorem exists_idOfBits_eq_iff {id : String} :
    (∃ bits, idOfBits bits = id) ↔ GeneratedText id.toList := by
  constructor
  · rintro ⟨bits, rfl⟩
    have text : (idOfBits bits).toList = lastHexDigits idLength bits := String.toList_ofList
    rw [text]
    exact ⟨Text.length_lastHexDigits _ _, fun c => Text.mem_hexDigits_of_mem_lastHexDigits⟩
  · intro generated
    obtain ⟨bits, ended⟩ := Text.exists_lastHexDigits_eq generated.digits
    rw [generated.length] at ended
    refine ⟨bits, ?_⟩
    change String.ofList (lastHexDigits idLength bits) = id
    rw [ended, String.ofList_toList]

namespace GeneratedText

/-- No hexadecimal digit is a blank. -/
theorem bare (generated : GeneratedText word) : Bare word := by
  have solid : ∀ c ∈ hexDigits, Text.isBlank c = false := by
    have each : hexDigits.all (fun c => Text.isBlank c == false) = true := rfl
    simpa only [List.all_eq_true, beq_iff_eq] using each
  constructor
  · exact fun c head => solid c (generated.digits c (List.mem_of_mem_head? head))
  · exact fun c last => solid c (generated.digits c (List.mem_of_mem_getLast? last))

/-- A generated ID is too long for the words with a meaning of their own. -/
theorem ne_word (generated : GeneratedText word) :
    ¬ (word = [] ∨ word = ['n', 'o', 'n', 'e']) ∧ word ≠ ['a', 'l', 'l'] := by
  have length := generated.length
  refine ⟨?_, ?_⟩
  · rintro (rfl | rfl)
    · cases length
    · cases length
  · rintro rfl
    cases length

/-- A generated ID that is a number is a timestamp that some instant has. -/
theorem ofWord_number (generated : GeneratedText word) (now : Instant)
    (decimal : DecimalText word value) :
    ∃ instant : Instant, instant.seconds = value ∧ instant.nanos = 0 ∧
      ofWord now word = time instant := by
  have small := decimal.lt_pow
  rw [generated.length, idLength] at small
  have bounded : value ≤ greatestCount := by
    unfold greatestCount
    omega
  let instant : Instant :=
    ⟨value, 0, by unfold Instant.earliest; omega, by unfold Instant.latest; omega, by decide⟩
  have found : Instant.of? value 0 = some instant := Instant.of?_eq_some_iff.mpr ⟨rfl, rfl⟩
  refine ⟨instant, rfl, rfl, ?_⟩
  rw [ofWord_decimal decimal, if_pos bounded, ofUnix, found]

/-- The only unit that is a hexadecimal digit is the day. -/
theorem exists_days (generated : GeneratedText word) (text : LookBackText word count seconds) :
    ∃ digits, DecimalText digits count ∧ word = digits ++ ['d'] := by
  cases text with
  | @counted digits _ unit _ decimal inUnits =>
      have hexadecimal := generated.digits unit (List.mem_append_right _ List.mem_cons_self)
      cases inUnits with
      | seconds | minutes | hours => exact absurd hexadecimal (by decide)
      | days => exact ⟨digits, decimal, rfl⟩

/-- A generated ID that ends with the unit of days behind a number reaches back that many days, or
to the beginning. -/
theorem ofWord_days (generated : GeneratedText word) (now : Instant)
    (decimal : DecimalText digits count) (days : word = digits ++ ['d']) :
    (∃ instant : Instant, instant.seconds = now.seconds - count * 86400 ∧
      instant.nanos = now.nanos ∧ ofWord now word = time instant) ∨
      now.seconds - count * 86400 < Instant.earliest ∧ ofWord now word = everything := by
  have small := decimal.lt_pow
  have length := generated.length
  rw [days, List.length_append, List.length_singleton, idLength] at length
  rw [Nat.succ.inj length] at small
  have within : Within count 86400 := by
    refine ⟨?_, ?_⟩
    · rw [Int64.toInt_maxValue]
      omega
    · omega
  rw [days, ofWord_lookBack (.counted decimal .days) within]
  cases found : now.minus? (count * 86400) with
  | some instant =>
      obtain ⟨earlier, part⟩ := Instant.of?_eq_some_iff.mp found
      exact .inl ⟨instant, by rw [earlier]; push_cast; rfl, part, rfl⟩
  | none =>
      have past := minus?_eq_none_iff.mp found
      push_cast at past
      exact .inr ⟨past, rfl⟩

/-- A generated ID of any other form, and no other one, is an ID. -/
theorem ofWord_eq_message_iff (generated : GeneratedText word) (now : Instant) :
    ofWord now word = message (String.ofList word) ↔ (∀ value, ¬ DecimalText word value) ∧
      ∀ digits days, DecimalText digits days → word ≠ digits ++ ['d'] := by
  constructor
  · intro named
    constructor
    · intro value decimal
      obtain ⟨instant, -, -, read⟩ := generated.ofWord_number now decimal
      cases read.symm.trans named
    · intro digits days decimal ends
      rcases generated.ofWord_days now decimal ends with ⟨instant, -, -, read⟩ | ⟨-, read⟩
      · cases read.symm.trans named
      · cases read.symm.trans named
  · rintro ⟨notNumber, notDays⟩
    refine ofWord_id generated.ne_word.1 generated.ne_word.2 notNumber ?_
    intro count seconds text
    obtain ⟨digits, decimal, days⟩ := generated.exists_days text
    exact notDays digits count decimal days

end GeneratedText

/-- The generated IDs are the texts of twelve hexadecimal digits in lower case.  Such a text is a
timestamp where all its digits are decimal, a look-back where only a last `d` is not, and else it
names the message: then a subscriber is replayed what stands behind the first row with the ID. -/
theorem parse_generated :
    (∀ id, (∃ bits, idOfBits bits = id) ↔ GeneratedText id.toList) ∧
    ∀ now id, GeneratedText id.toList →
      (∀ value : Nat, DecimalText id.toList value →
        ∃ instant : Instant, instant.seconds = value ∧ instant.nanos = 0 ∧
          parse now id = time instant) ∧
      (∀ digits days, DecimalText digits days → id.toList = digits ++ ['d'] →
        (∃ instant : Instant, instant.seconds = now.seconds - days * 86400 ∧
          instant.nanos = now.nanos ∧ parse now id = time instant) ∨
        now.seconds - days * 86400 < Instant.earliest ∧ parse now id = everything) ∧
      (parse now id = message id ↔ (∀ value, ¬ DecimalText id.toList value) ∧
        ∀ digits days, DecimalText digits days → id.toList ≠ digits ++ ['d']) ∧
      ∀ db, Reachable db → ∀ topic scheduled first, parse now id = message id →
        firstRow? db topic id = some first →
          Store.messages topic (parse now id) scheduled db =
            ((orderedRows db).filter fun row => OfTopic topic row ∧
              (first.position < row.position ∨ IsScheduled row) ∧
              (scheduled = true ∨ IsPublished row)).mapM Store.content := by
  refine ⟨fun id => exists_idOfBits_eq_iff, fun now id generated => ?_⟩
  have names := generated.ofWord_eq_message_iff now
  rw [String.ofList_toList] at names
  rw [parse_eq_ofWord generated.bare]
  refine ⟨fun value => generated.ofWord_number now, fun digits days => generated.ofWord_days now,
    names, ?_⟩
  intro db reachable topic scheduled first named found
  obtain ⟨table, current⟩ := reachable.exists_current
  rw [named, current.messages_eq, current.shownRows_eq]
  simp only [Store.AskedFor, found]

/-- A generated ID of both kinds of digits names the message of the first row, and the second row
is replayed. -/
theorem parse_generated_mixed :
    let clock : Instant := ⟨1700000000, 0, by decide, by decide, by decide⟩
    let id := idOfBits 0x9f86d081884c
    let db := Store.carryOut Store.fresh
      [(clock, .add (.plain "t" id 1 "")), (clock, .add (.plain "t" "b" 2 ""))]
    GeneratedText id.toList ∧ parse clock id = message id ∧ Reachable db ∧
      firstRow? db "t" id = some ⟨1, Store.newRow (.plain "t" id 1 "") true⟩ ∧
      Store.messages "t" (parse clock id) false db = .ok [.plain "t" "b" 2 ""] := by
  intro clock id db
  let run : List Store.Act :=
    [(clock, .add (.plain "t" id 1 "")), (clock, .add (.plain "t" "b" 2 ""))]
  have generated : GeneratedText id.toList := exists_idOfBits_eq_iff.mp ⟨_, rfl⟩
  have reachable : Reachable db := Reachable.fresh.carryOut run
  have named : parse clock id = message id := by decide
  have rows : Store.messageRows db = [⟨1, Store.newRow (.plain "t" id 1 "") true⟩,
      ⟨2, Store.newRow (.plain "t" "b" 2 "") true⟩] :=
    @Store.messageRows_ofRun run
      [⟨1, .plain "t" id 1 "", true⟩, ⟨2, .plain "t" "b" 2 "", true⟩] (by decide)
  have found : firstRow? db "t" id = some ⟨1, Store.newRow (.plain "t" id 1 "") true⟩ := by
    rw [firstRow?, rows]
    decide
  refine ⟨generated, named, reachable, found, ?_⟩
  rw [(parse_generated.2 clock id generated).2.2.2 db reachable "t" false _ named found,
    orderedRows, rows, List.mergeSort_of_pairwise (by decide)]
  decide

/-- A generated ID of decimal digits alone is a timestamp, and one that ends with `d` behind them
is a look-back, so that neither names its message. -/
theorem generated_read_as_time :
    let now : Instant := ⟨1700000000, 0, by decide, by decide, by decide⟩
    idOfBits 0x123456789012 = "123456789012" ∧
      parse now "123456789012" = time ⟨123456789012, 0, by decide, by decide, by decide⟩ ∧
      idOfBits 0x00000000001d = "00000000001d" ∧
      parse now "00000000001d" = time ⟨1699913600, 0, by decide, by decide, by decide⟩ := by
  decide

end Since

end MessageStore
