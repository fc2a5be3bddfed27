import MessageStore.Proofs.Store.Attachments

/-!
# Quotas of any sizes

The size of an attachment is whatever was said when its message was added, and
may be negative.  So the sum that is an owner's quota may leave the range of 64
bits in either direction, and whether it does depends on the order of the rows.
Then there is a fault, and no number that is not the sum.
-/

namespace MessageStore.Store

open Relational (Database Row Total)

/-- In every store that can be reached, a quota adds up the sizes in the rows that the owner is
charged for, in the order of their positions.  Where the sum stays in range it is the quota, and
otherwise the quota is refused; in both cases the store stays as it is.  So there is a quota of
sizes that are not negative exactly if their sum is in range. -/
theorem quota_exact_or_refused {db : Database} (reachable : Reachable db) (owner : String)
    (now : Instant) :
    let rows := chargedRows owner now db
    let sizes := rows.map (integerOf "attachment_size")
    (∀ row, row ∈ rows ↔ row ∈ messageRows db ∧ textOf "attachment_owner" row = owner ∧
      now.seconds ≤ (integerOf "attachment_expires" row).toInt) ∧
    rows.Pairwise (fun first second => first.position < second.position) ∧
    ((∀ part, part <+: sizes → Int64.minValue.toInt ≤ Total.addedUp part ∧
        Total.addedUp part ≤ Int64.maxValue.toInt) →
      ∃ counted, counted.toInt = Total.addedUp sizes ∧
        perform now db (.attachmentsSize owner) = ⟨db, [], .ok (.size counted)⟩) ∧
    ((∃ part, part <+: sizes ∧ ¬ (Int64.minValue.toInt ≤ Total.addedUp part ∧
        Total.addedUp part ≤ Int64.maxValue.toInt)) →
      perform now db (.attachmentsSize owner) =
        ⟨db, [], .error (.of (.engine .integerOverflow))⟩) ∧
    ((∀ size ∈ sizes, 0 ≤ size.toInt) →
      ((∃ counted, (perform now db (.attachmentsSize owner)).answer = .ok (.size counted)) ↔
        Total.addedUp sizes ≤ Int64.maxValue.toInt)) := by
  intro rows sizes
  obtain ⟨table, current⟩ := reachable.exists_current
  have asked : perform now db (.attachmentsSize owner) = .read db .size (quota sizes) :=
    congrArg (Outcome.read db .size) (current.attachmentsSize_eq_quota owner now)
  rw [asked]
  refine ⟨fun row => ?charged, ?ordered, fun stays => ?exact, fun leaves => ?refused,
    fun nonneg => ?number⟩
  case charged =>
    simp only [rows, chargedRows, List.mem_filter, decide_eq_true_eq]
    rfl
  case ordered => exact current.messageRows_ordered.sublist List.filter_sublist
  case exact =>
    have whole := stays sizes (List.prefix_refl sizes)
    refine ⟨Int64.ofInt (Total.addedUp sizes),
      Int64.toInt_ofInt_of_le whole.1 (Int.lt_of_le_of_lt whole.2 (by decide)), ?_⟩
    rw [quota_of_staysWithin stays]
    rfl
  case refused =>
    obtain ⟨part, front, beyond⟩ := leaves
    rw [quota_of_not_staysWithin fun stays => beyond (stays part front)]
    rfl
  case number =>
    rw [← Total.staysWithin_iff_of_nonneg nonneg]
    constructor
    · rintro ⟨counted, answer⟩
      by_contra leaves
      rw [quota_of_not_staysWithin leaves] at answer
      cases answer
    · intro stays
      rw [quota_of_staysWithin stays]
      exact ⟨_, rfl⟩

/-- The same sizes in another order: on the way to the largest number the one sum leaves the range,
and the other does not. -/
theorem quota_exact_or_refused_by_order :
    let clock : Instant := ⟨1700000000, 0, by decide, by decide, by decide⟩
    let attached (id owner : String) (size : Int64) : Act :=
      (clock, .add { Message.plain "t" id 1 "" with
        attachment := some ⟨"a.png", "", size, 1700000000, "u", owner⟩ })
    let largest : Int64 := 9223372036854775807
    let db := carryOut fresh
      [attached "a" "o" largest, attached "b" "p" largest, attached "c" "o" 1,
        attached "d" "p" (-1), attached "e" "o" (-1), attached "f" "p" 1]
    Reachable db ∧
      perform clock db (.attachmentsSize "o") =
        ⟨db, [], .error (.of (.engine .integerOverflow))⟩ ∧
      ∃ counted, counted.toInt = Int64.maxValue.toInt ∧
        perform clock db (.attachmentsSize "p") = ⟨db, [], .ok (.size counted)⟩ := by
  intro clock attached largest db
  let run : List Act :=
    [attached "a" "o" largest, attached "b" "p" largest, attached "c" "o" 1,
      attached "d" "p" (-1), attached "e" "o" (-1), attached "f" "p" 1]
  have reachable : Reachable db := Reachable.fresh.carryOut run
  have first : (chargedRows "o" clock db).map (integerOf "attachment_size") = [largest, 1, -1] :=
    (chargedSizes_carryOut run "o" clock).trans (by decide)
  have second : (chargedRows "p" clock db).map (integerOf "attachment_size") = [largest, -1, 1] :=
    (chargedSizes_carryOut run "p" clock).trans (by decide)
  obtain ⟨-, -, -, refused, -⟩ := quota_exact_or_refused reachable "o" clock
  obtain ⟨-, -, exact, -, -⟩ := quota_exact_or_refused reachable "p" clock
  rw [first] at refused
  rw [second] at exact
  have stays : Total.StaysWithin [largest, -1, 1] := by decide
  exact ⟨reachable, refused ⟨[largest, 1], by decide, by decide⟩, exact stays⟩

end MessageStore.Store
