import Mathlib.Data.List.Infix
import MessageStore.Relational.Total

/-!
# Sums of integers

A sum of integers is exact as long as it stays in the range of 64 bits, wherever
it is broken off; otherwise it is no sum but a fault, even if what comes later
would lead back into the range.  Where no integer is negative a sum only grows,
so that it stays in range if the whole of it is.
-/

namespace MessageStore.Relational.Total

/-- What integers add up to. -/
def addedUp : List Int64 → Int
  | [] => 0
  | value :: values => value.toInt + addedUp values

section AddedUp

variable {values others : List Int64}

@[simp]
theorem addedUp_nil : addedUp [] = 0 :=
  rfl

@[simp]
theorem addedUp_cons (value : Int64) (values : List Int64) :
    addedUp (value :: values) = value.toInt + addedUp values :=
  rfl

theorem addedUp_append (values others : List Int64) :
    addedUp (values ++ others) = addedUp values + addedUp others := by
  induction values with
  | nil => simp
  | cons value rest ih => simp [ih, Int.add_assoc]

/-- The order of integers does not matter to their sum. -/
theorem addedUp_perm (same : values.Perm others) : addedUp values = addedUp others := by
  induction same with
  | nil => rfl
  | cons value _ ih => rw [addedUp_cons, addedUp_cons, ih]
  | swap first second rest =>
      simp only [addedUp_cons]
      omega
  | trans _ _ ih ihMore => exact ih.trans ihMore

theorem addedUp_nonneg (nonneg : ∀ value ∈ values, 0 ≤ value.toInt) : 0 ≤ addedUp values := by
  induction values with
  | nil => exact Int.le_refl 0
  | cons value rest ih =>
      obtain ⟨valueNonneg, restNonneg⟩ := List.forall_mem_cons.mp nonneg
      exact Int.add_nonneg valueNonneg (ih restNonneg)

end AddedUp

/-- A sum in the range of 64 bits. -/
def Within (sum : Int) : Prop :=
  Int64.minValue.toInt ≤ sum ∧ sum ≤ Int64.maxValue.toInt

instance (sum : Int) : Decidable (Within sum) :=
  inferInstanceAs (Decidable (_ ∧ _))

theorem within_zero : Within 0 := by
  decide

/-- Integers whose sum is in range wherever it is broken off. -/
def StaysWithin (values : List Int64) : Prop :=
  ∀ part, part <+: values → Within (addedUp part)

instance (values : List Int64) : Decidable (StaysWithin values) :=
  decidable_of_iff (∀ part ∈ values.inits, Within (addedUp part)) (by
    simp only [List.mem_inits, StaysWithin])

section Range

variable {values : List Int64}

theorem StaysWithin.whole (stays : StaysWithin values) : Within (addedUp values) :=
  stays values (List.prefix_refl values)

/-- The sum of integers that are not negative stays in range if the whole of it is. -/
theorem staysWithin_iff_of_nonneg (nonneg : ∀ value ∈ values, 0 ≤ value.toInt) :
    StaysWithin values ↔ addedUp values ≤ Int64.maxValue.toInt := by
  refine ⟨fun stays => stays.whole.2, fun fits part front => ?_⟩
  obtain ⟨rest, rfl⟩ := front
  have partSum := addedUp_nonneg fun value member => nonneg value (List.mem_append_left rest member)
  have restSum := addedUp_nonneg fun value member =>
    nonneg value (List.mem_append_right part member)
  have least : Int64.minValue.toInt ≤ 0 := within_zero.1
  rw [addedUp_append] at fits
  exact ⟨by omega, by omega⟩

end Range

/-- A sum goes on exactly where it stays in range. -/
theorem add_within {sum : Int} {value : Int64} (within : Within (sum + value.toInt)) :
    Partial.add (.exact sum) (.integer value) = .exact (sum + value.toInt) :=
  if_pos within

theorem add_beyond {sum : Int} {value : Int64} (beyond : ¬ Within (sum + value.toInt)) :
    Partial.add (.exact sum) (.integer value) =
      .approximate ((nearest sum).add? (nearest value.toInt)) true :=
  if_neg beyond

/-- A sum that has left the range stays a fault, whatever integers come later. -/
theorem total_foldl_overflowed (values : List Int64) (sum : Option Binary64) :
    ((values.map Summand.integer).foldl Partial.add (.approximate sum true)).total =
      .error .integerOverflow := by
  induction values generalizing sum with
  | nil => rfl
  | cons value rest ih => exact ih _

/-- A sum that stays in range with all that is still added is exact. -/
theorem total_foldl_within {values : List Int64} {sum : Int}
    (stays : ∀ part, part <+: values → Within (sum + addedUp part)) :
    ((values.map Summand.integer).foldl Partial.add (.exact sum)).total =
      .ok (integer (Int64.ofInt (sum + addedUp values))) := by
  induction values generalizing sum with
  | nil =>
      rw [addedUp_nil, Int.add_zero]
      rfl
  | cons value rest ih =>
      have next : Within (sum + value.toInt) := by
        have one := stays [value] (List.prefix_append [value] rest)
        rwa [addedUp_cons, addedUp_nil, Int.add_zero] at one
      rw [List.map_cons, List.foldl_cons, add_within next, addedUp_cons, ← Int.add_assoc]
      refine ih fun part front => ?_
      rw [Int.add_assoc, ← addedUp_cons]
      exact stays (value :: part) ((List.prefix_cons_inj value).mpr front)

/-- A sum in range that leaves the range with a part of what is still added is a fault. -/
theorem total_foldl_beyond {values part : List Int64} {sum : Int} (within : Within sum)
    (front : part <+: values) (leaves : ¬ Within (sum + addedUp part)) :
    ((values.map Summand.integer).foldl Partial.add (.exact sum)).total =
      .error .integerOverflow := by
  -- On what is left to add; the part loses the same integers, and is not empty while in range.
  induction values generalizing part sum with
  | nil =>
      rw [List.prefix_nil.mp front, addedUp_nil, Int.add_zero] at leaves
      exact absurd within leaves
  | cons value rest ih =>
      rcases List.prefix_cons_iff.mp front with rfl | ⟨fewer, rfl, frontRest⟩
      · rw [addedUp_nil, Int.add_zero] at leaves
        exact absurd within leaves
      rw [List.map_cons, List.foldl_cons]
      by_cases next : Within (sum + value.toInt)
      · rw [add_within next]
        rw [addedUp_cons, ← Int.add_assoc] at leaves
        exact ih next frontRest leaves
      · rw [add_beyond next]
        exact total_foldl_overflowed rest _

/-- Integers are summed exactly if their sum stays in range, and otherwise not at all. -/
theorem ofCells_integers (values : List Int64) :
    ofCells (values.map .integer) =
      if StaysWithin values then .ok (integer (Int64.ofInt (addedUp values)))
      else .error .integerOverflow := by
  have summands : (values.map Cell.integer).filterMap summand? = values.map Summand.integer := by
    rw [List.filterMap_map]
    exact List.filterMap_eq_map_iff_forall_eq_some.mpr fun _ _ => rfl
  rw [ofCells, summands]
  split
  next stays =>
    have fromZero : ∀ part, part <+: values → Within (0 + addedUp part) := fun part front => by
      rw [Int.zero_add]
      exact stays part front
    have exact := total_foldl_within fromZero
    rwa [Int.zero_add] at exact
  next leaves =>
    obtain ⟨part, leaves⟩ := not_forall.mp leaves
    obtain ⟨front, beyond⟩ := Classical.not_imp.mp leaves
    exact total_foldl_beyond within_zero front (by rwa [Int.zero_add])

end MessageStore.Relational.Total
