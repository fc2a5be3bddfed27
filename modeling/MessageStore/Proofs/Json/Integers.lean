import MessageStore.Proofs.Json.Refusals

/-!
# Integers that are read or refused

A number is judged by its parts.  An integer in range is read from the text that
is written for it and from no other: a fraction, an exponent or a zero behind a
minus sign makes it a number of another kind.
-/

namespace MessageStore.Json

open Text (digitsValue)

variable {least greatest : Int} {text sign whole fraction exponent before rest : List Char}
  {negative : Bool} {places : Option (List Char)} {power : Option (Bool × List Char)}

/-- Digits without a leading zero are the decimal text of what they stand for. -/
theorem WholeText.toDigits_eq (spelling : WholeText whole) :
    Nat.toDigits 10 (digitsValue whole) = whole := by
  have present : whole ≠ [] := by
    cases spelling <;> simp
  have decimal := Text.decimalText_digitsValue present spelling.all_digits
  generalize digitsValue whole = value at decimal
  cases decimal with
  | padded zeros =>
      cases zeros with
      | zero => rfl
      | succ zeros =>
          -- A zero in front of other digits is no `WholeText`.
          rw [List.replicate_succ, List.cons_append] at spelling
          generalize same : '0' :: (List.replicate zeros '0' ++ Nat.toDigits 10 value) = text
            at spelling
          cases spelling with
          | zero =>
              have none := (List.append_eq_nil_iff.mp (List.cons.inj same).2).2
              exact absurd none Nat.toDigits_ne_nil
          | digits digit noZero all => exact absurd (List.cons.inj same).1.symm noZero

theorem Number.bounds_of_between {number : Number} {value : Int}
    (between : number.between least greatest = .ok value) : least ≤ value ∧ value ≤ greatest := by
  cases number with
  | fractional _ => cases between
  | natural magnitude =>
      simp only [Number.between] at between
      split at between
      · rename_i inside
        cases between
        exact inside
      · cases between
  | negative magnitude =>
      simp only [Number.between] at between
      split at between
      · rename_i inside
        cases between
        exact inside
      · cases between

theorem NumberText.fractional_not_between {parts : NumberText} {number : Number} {value : Int}
    (judged : NumberText.value.fractional negative parts = .ok number) :
    number.between least greatest ≠ .ok value := by
  unfold NumberText.value.fractional at judged
  cases found : magnitude? parts.scaled.1 parts.scaled.2 with
  | none => simp [found] at judged
  | some magnitude =>
      simp only [found, Except.ok.injEq] at judged
      subst judged
      nofun

/-- The parts of an integer are digits alone, which are not zero behind a minus sign. -/
theorem NumberText.integer_parts {parts : NumberText} {number : Number} {value : Int}
    (judged : parts.value negative = .ok number)
    (between : number.between least greatest = .ok value) :
    parts.fraction = none ∧ parts.exponent = none ∧
      if negative then 0 < digitsValue parts.whole ∧ value = -(digitsValue parts.whole : Int)
      else value = digitsValue parts.whole := by
  unfold NumberText.value at judged
  dsimp only at judged
  split at judged
  · rename_i plain
    refine ⟨Option.isNone_iff_eq_none.mp plain.1, Option.isNone_iff_eq_none.mp plain.2.1, ?_⟩
    split at judged
    · rename_i natural
      cases judged
      simp only [Number.between] at between
      split at between
      · cases between
        simp [natural]
      · cases between
    · rename_i minus
      have negated : negative = true := by simpa using minus
      split at judged
      · rename_i bound
        cases judged
        simp only [Number.between] at between
        split at between
        · cases between
          rw [if_pos negated]
          exact ⟨bound.1, rfl⟩
        · cases between
      · exact absurd between (fractional_not_between judged)
  · exact absurd between (fractional_not_between judged)

/-- A number whose parts are an integer is written like that integer. -/
theorem writeInteger_of_parts {value : Int} (signed : MinusText sign negative)
    (spelling : WholeText whole) (point : FractionText fraction places)
    (scale : ExponentText exponent power) {number : Number}
    (judged : (NumberText.mk whole places power).value negative = .ok number)
    (between : number.between least greatest = .ok value) :
    sign ++ (whole ++ (fraction ++ exponent)) = writeInteger value := by
  have digits := spelling.toDigits_eq
  obtain ⟨noPoint, noPower, same⟩ := NumberText.integer_parts judged between
  cases noPoint
  cases noPower
  cases point
  cases scale
  cases signed with
  | absent =>
      rw [if_neg Bool.false_ne_true] at same
      simp [same, writeInteger, digits]
  | present =>
      rw [if_pos rfl] at same
      obtain ⟨positive, rfl⟩ := same
      have noZero : digitsValue whole ≠ 0 := Nat.pos_iff_ne_zero.mp positive
      simp [writeInteger, noZero, digits]

/-- A value is written like an integer between the bounds, or is refused. -/
theorem integer_or_refused (valid : Valid .value text) :
    (∃ value, least ≤ value ∧ value ≤ greatest ∧ text = writeInteger value) ∨
      Refuses (integer least greatest) text := by
  obtain ⟨c, later, rfl, solid⟩ := valid.exists_first
  by_cases begins : beginsNumber c = true
  · have spelling := valid.of_digit begins
    generalize c :: later = text at spelling
    cases spelling with
    | @parts sign whole fraction exponent negative places power signed spelling point scale =>
        cases judged : (NumberText.mk whole places power).value negative with
        | error fault =>
            refine .inr fun before rest blank stops => ⟨fault, ?_⟩
            rw [integer_of_parts signed spelling point scale blank stops, judged]
            rfl
        | ok number =>
            cases between : number.between least greatest with
            | ok value =>
                have bounds := Number.bounds_of_between between
                have same := writeInteger_of_parts signed spelling point scale judged between
                exact .inl ⟨value, bounds.1, bounds.2, same⟩
            | error mismatch =>
                refine .inr fun before rest blank stops => ⟨.mismatch mismatch, ?_⟩
                rw [integer_of_parts signed spelling point scale blank stops, judged]
                simp only [bind, Except.bind, between]
                rfl
  · refine .inr (refuses_of_first solid fun {text left} found => ⟨wrongKind text, ?_⟩)
    unfold integer
    rw [found]
    exact if_neg begins

/-- A signed 64-bit integer is read from the text that is written for it, and from no other. -/
theorem decides_int64 : Decides int64 fun text value => text = writeInteger value.toInt := by
  refine decides_of (fun {text value} _ same => same ▸ spells_int64 value) fun valid => ?_
  refine (integer_or_refused valid).imp ?_ fun refuses => refuses.map Int64.ofInt
  rintro ⟨value, low, high, rfl⟩
  have below : value < 2 ^ 63 := Int.lt_of_le_of_lt high (by decide)
  exact ⟨.ofInt value, by rw [Int64.toInt_ofInt_of_le low below]⟩

/-- An unsigned 8-bit integer is read from the text that is written for it, and from no other. -/
theorem decides_uint8 : Decides uint8 fun text value => text = writeInteger value.toNat := by
  refine decides_of (fun {text value} _ same => same ▸ spells_uint8 value) fun valid => ?_
  refine (integer_or_refused valid).imp ?_ fun refuses => refuses.map fun n => UInt8.ofNat n.toNat
  rintro ⟨value, low, high, rfl⟩
  refine ⟨.ofNat value.toNat, ?_⟩
  have same : value.toNat % 2 ^ 8 = value.toNat := Nat.mod_eq_of_lt (by omega)
  rw [UInt8.toNat_ofNat', same, Int.toNat_of_nonneg low]

end MessageStore.Json
