import MessageStore.Relational.Condition

/-!
# How cells compare

What a comparison says of two integers or of two texts, and how integers are
ordered by one key after another.
-/

namespace MessageStore.Relational

/-- What a comparison says of two integers. -/
def Test.ofInts : Test → Int → Int → Bool
  | equal, first, second => first = second
  | less, first, second => first < second
  | atMost, first, second => first ≤ second
  | greater, first, second => second < first
  | atLeast, first, second => second ≤ first

/-- A comparison holds in the order of two integers if it says so of them. -/
theorem Test.holds_orderInt (test : Test) (first second : Int) :
    test.holds (Cell.orderInt first second) = test.ofInts first second := by
  unfold Cell.orderInt
  rcases Int.lt_trichotomy first second with before | rfl | behind
  · have apart : first ≠ second := by omega
    have notBehind : ¬ second < first := by omega
    have atMost : first ≤ second := by omega
    have notAtLeast : ¬ second ≤ first := by omega
    cases test <;> simp [holds, ofInts, before, apart, notBehind, atMost, notAtLeast]
  · cases test <;> simp [holds, ofInts]
  · have apart : first ≠ second := by omega
    have notBefore : ¬ first < second := by omega
    have notAtMost : ¬ first ≤ second := by omega
    have atLeast : second ≤ first := by omega
    cases test <;> simp [holds, ofInts, behind, apart, notBefore, notAtMost, atLeast]

section Texts

variable {text other : String}

theorem Cell.orderText_eq_lt_iff : orderText text other = .lt ↔ text < other := by
  unfold orderText
  by_cases before : text < other
  · simp [before]
  · by_cases same : text = other <;> simp [same, before]

/-- Texts are in no order if they are the same. -/
theorem Cell.orderText_eq_eq_iff : orderText text other = .eq ↔ text = other := by
  unfold orderText
  by_cases same : text = other
  · subst same
    simp
  · by_cases before : text < other <;> simp [same, before]

theorem Cell.orderText_ne_gt_iff : orderText text other ≠ .gt ↔ text ≤ other := by
  rw [Std.le_iff_lt_or_eq, ← orderText_eq_lt_iff, ← orderText_eq_eq_iff]
  cases orderText text other <;> simp

end Texts

/-- A text equals another one in a column of texts if they are the same. -/
theorem Condition.cellHolds_text (text other : String) :
    cellHolds .text .equal (.text text) (.text other) = decide (text = other) := by
  change (Cell.orderText text other == .eq) = _
  rw [Bool.eq_iff_iff, beq_iff_eq, Cell.orderText_eq_eq_iff, decide_eq_true_eq]

/-- An integer does not come behind another one if it is less, or if it is the same and what is
compared next does not come behind. -/
theorem Cell.orderInt_then (first second : Int) (rest : Ordering) :
    ((orderInt first second).then rest != .gt) =
      decide (first < second ∨ first = second ∧ rest ≠ .gt) := by
  unfold orderInt
  rcases Int.lt_trichotomy first second with before | rfl | behind
  · simp [before]
  · cases rest <;> simp
  · have notBefore : ¬ first < second := by omega
    have apart : first ≠ second := by omega
    simp [notBefore, apart]

end MessageStore.Relational
