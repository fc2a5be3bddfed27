import Mathlib.Algebra.BigOperators.Group.List.Lemmas
import Mathlib.Algebra.Ring.Nat
import MessageStore.Topic

/-!
# Topics in order

Leaving out what is the same as its neighbour before it makes a list in order one
in strict order, with the same elements.  So the distinct topics of a list are its
topics in strict order, however often they stand in it, and a list in strict order
stays as it is.  The number of times that each of them stands in the list adds up
to its length.
-/

namespace MessageStore

/-! ## Neighbours -/

section Neighbours

variable {α β : Type}

/-- Nothing is left out for good. -/
theorem mem_withoutRepeats_iff [DecidableEq α] {x : α} {xs : List α} :
    x ∈ withoutRepeats (· == ·) xs ↔ x ∈ xs := by
  refine ⟨mem_of_mem_withoutRepeats, fun member => ?_⟩
  induction xs with
  | nil => cases member
  | cons first rest ih =>
      rw [withoutRepeats]
      cases tail : withoutRepeats (· == ·) rest with
      | nil =>
          rw [tail] at ih
          rcases List.mem_cons.mp member with rfl | later
          · exact List.mem_singleton_self _
          · cases ih later
      | cons second others =>
          rw [tail] at ih
          simp only
          split
          · rename_i same
            rw [eq_of_beq same]
            rcases List.mem_cons.mp member with rfl | later
            · rw [eq_of_beq same]
              exact List.mem_cons_self
            · exact ih later
          · exact List.mem_cons.mpr ((List.mem_cons.mp member).imp_right ih)

/-- A list in order is in strict order once repeats are left out. -/
theorem pairwise_withoutRepeats [DecidableEq α] {before : α → α → Prop} {xs : List α}
    (antisymm : ∀ x y, before x y → before y x → x = y) (ordered : xs.Pairwise before) :
    (withoutRepeats (· == ·) xs).Pairwise fun x y => before x y ∧ x ≠ y := by
  induction ordered with
  | nil => exact .nil
  | @cons first rest ahead _ ih =>
      rw [withoutRepeats]
      cases tail : withoutRepeats (· == ·) rest with
      | nil => exact List.pairwise_singleton _ _
      | cons second others =>
          rw [tail] at ih
          obtain ⟨secondAhead, othersOrdered⟩ := List.pairwise_cons.mp ih
          have left : ∀ y ∈ second :: others, before first y := fun y member =>
            ahead y (mem_of_mem_withoutRepeats (tail ▸ member))
          simp only
          split
          · rename_i same
            rw [eq_of_beq same]
            exact ih
          · rename_i apart
            refine List.pairwise_cons.mpr ⟨fun y member => ⟨left y member, ?_⟩, ih⟩
            rintro rfl
            rcases List.mem_cons.mp member with rfl | later
            · exact apart (beq_self_eq_true _)
            · obtain ⟨behind, different⟩ := secondAhead first later
              exact different (antisymm _ _ behind (left second List.mem_cons_self))

/-- Where no two neighbours are the same, nothing is left out. -/
theorem withoutRepeats_eq_self [DecidableEq α] {xs : List α} (apart : xs.Pairwise (· ≠ ·)) :
    withoutRepeats (· == ·) xs = xs := by
  induction apart with
  | nil => rfl
  | @cons first rest ahead _ ih =>
      rw [withoutRepeats, ih]
      cases rest with
      | nil => rfl
      | cons second others =>
          have different := ahead second List.mem_cons_self
          simp [different]

/-- What neighbours are made into does not matter where it shows whether they are the same. -/
theorem withoutRepeats_map {same : β → β → Bool} {sameBefore : α → α → Bool} {change : α → β}
    (agree : ∀ x y, same (change x) (change y) = sameBefore x y) (xs : List α) :
    withoutRepeats same (xs.map change) = (withoutRepeats sameBefore xs).map change := by
  induction xs with
  | nil => rfl
  | cons first rest ih =>
      rw [List.map_cons, withoutRepeats, withoutRepeats, ih]
      cases withoutRepeats sameBefore rest with
      | nil => rfl
      | cons second others =>
          simp only [List.map_cons, agree]
          split <;> rfl

end Neighbours

/-! ## Topics -/

namespace Topic

/-- A topic that comes before another. -/
def Before (first second : Topic) : Prop :=
  first.id < second.id

instance : DecidableRel Before :=
  fun first second => inferInstanceAs (Decidable (first.id < second.id))

variable {topics : List Topic} {topic : Topic}

theorem Before.ne {first second : Topic} (before : first.Before second) : first ≠ second := by
  rintro rfl
  exact String.lt_irrefl _ before

theorem sorted_pairwise (topics : List Topic) : (sorted topics).Pairwise (·.id ≤ ·.id) := by
  refine (List.pairwise_mergeSort ?_ ?_ topics).imp of_decide_eq_true
  · intro first second third earlier later
    exact decide_eq_true (String.le_trans (of_decide_eq_true earlier) (of_decide_eq_true later))
  · intro first second
    rw [Bool.or_eq_true, decide_eq_true_eq, decide_eq_true_eq]
    exact String.le_total _ _

theorem mem_distinct_iff : topic ∈ distinct topics ↔ topic ∈ topics := by
  unfold distinct
  rw [mem_withoutRepeats_iff]
  exact List.mem_mergeSort

/-- Distinct topics are in strict order. -/
theorem distinct_pairwise (topics : List Topic) : (distinct topics).Pairwise Before := by
  refine (pairwise_withoutRepeats ?_ (sorted_pairwise topics)).imp ?_
  · intro first second notBehind notAhead
    cases first
    cases second
    exact congrArg mk (String.le_antisymm notBehind notAhead)
  · rintro ⟨first⟩ ⟨second⟩ ⟨notBehind, apart⟩
    exact Std.lt_of_le_of_ne notBehind fun same => apart (congrArg mk same)

theorem nodup_of_pairwise (ordered : topics.Pairwise Before) : topics.Nodup :=
  ordered.imp Before.ne

theorem sorted_eq_self (ordered : topics.Pairwise Before) : sorted topics = topics := by
  refine List.mergeSort_of_pairwise (ordered.imp fun before => ?_)
  exact decide_eq_true (Std.le_of_lt before)

/-- Topics in strict order are distinct and in order already. -/
theorem distinct_eq_self (ordered : topics.Pairwise Before) : distinct topics = topics := by
  rw [distinct, sorted_eq_self ordered]
  exact withoutRepeats_eq_self (nodup_of_pairwise ordered)

/-- Topics in strict order are told by which they are. -/
theorem eq_of_pairwise {others : List Topic} (ordered : topics.Pairwise Before)
    (otherOrdered : others.Pairwise Before) (same : ∀ topic, topic ∈ topics ↔ topic ∈ others) :
    topics = others := by
  have perm : topics.Perm others :=
    (List.perm_ext_iff_of_nodup (nodup_of_pairwise ordered) (nodup_of_pairwise otherOrdered)).mpr
      same
  refine List.Perm.eq_of_pairwise (fun first second _ _ before behind => ?_) ordered otherOrdered
    perm
  exact absurd behind (String.lt_asymm before)

/-- The number of times that each distinct topic stands in a list adds up to the length of the
list. -/
theorem sum_count_distinct (topics : List Topic) :
    ((distinct topics).map fun topic => topics.count topic).sum = topics.length := by
  have same : (distinct topics).Perm topics.dedup := by
    refine (List.perm_ext_iff_of_nodup (nodup_of_pairwise (distinct_pairwise topics))
      (List.nodup_dedup topics)).mpr fun topic => ?_
    rw [mem_distinct_iff, List.mem_dedup]
  rw [(same.map _).sum_eq, List.sum_map_count_dedup_eq_length]

end Topic

end MessageStore
