import MessageStore.Relational.Table

/-!
# Positions of new rows

A row that is given its position by the table comes behind all others, so it
joins them at the end and its position is free.  Where the largest position ever
used is recorded, and no row has a larger one, the next position is the one
behind it.
-/

namespace MessageStore.Relational

namespace Table

variable {table : Table} {position : Int64}

/-- The rows of a table are in the order of their positions. -/
def Ordered (table : Table) : Prop :=
  table.rows.Pairwise fun first second => first.position < second.position

instance (table : Table) : Decidable table.Ordered :=
  inferInstanceAs (Decidable (table.rows.Pairwise _))

/-- Rows that take the positions of rows in order are in order. -/
theorem Ordered.of_positions {other : Table} (ordered : table.Ordered)
    (positions : other.rows.map (·.position) = table.rows.map (·.position)) : other.Ordered := by
  have values : (table.rows.map (·.position)).Pairwise (· < ·) := List.pairwise_map.mpr ordered
  rw [← positions] at values
  exact List.pairwise_map.mp values

theorem insertOrdered_of_last {row : Row} {rows : List Row}
    (last : ∀ other ∈ rows, other.position < row.position) :
    insertOrdered row rows = rows ++ [row] := by
  induction rows with
  | nil => rfl
  | cons first rest ih =>
      have firstBefore := last first List.mem_cons_self
      have notBefore : ¬ row.position < first.position := by
        rw [Int64.lt_iff_toInt_lt] at firstBefore ⊢
        omega
      unfold insertOrdered
      rw [if_neg notBefore, ih fun other member => last other (List.mem_cons_of_mem first member)]
      rfl

/-- What comes next behind the rows that are present is behind each of them. -/
theorem lt_afterPresent {row : Row} (member : row ∈ table.rows) :
    row.position.toInt < (table.largestPresent.map (· + 1)).getD 1 := by
  have positions : row.position.toInt ∈ table.rows.map fun row => row.position.toInt :=
    List.mem_map_of_mem member
  unfold largestPresent
  cases largest : (table.rows.map fun row => row.position.toInt).max? with
  | none =>
      rw [List.max?_eq_none_iff] at largest
      rw [largest] at positions
      cases positions
  | some maximum =>
      have bound := (List.max?_eq_some_iff.mp largest).2 _ positions
      simp only [Option.map_some, Option.getD_some]
      omega

/-- The next position is behind all rows. -/
theorem lt_nextPosition (next : table.nextPosition? = some position) :
    ∀ row ∈ table.rows, row.position < position := by
  intro row member
  have before := lt_afterPresent member
  have lower := row.position.le_toInt
  have above : (table.largestPresent.map (· + 1)).getD 1 ≤ position.toInt := by
    unfold nextPosition? at next
    revert next
    cases table.numbering with
    | fromPresent =>
        intro next
        simp only [Option.ite_none_right_eq_some, Option.some.injEq] at next
        obtain ⟨small, rfl⟩ := next
        rw [Int64.toInt_maxValue] at small
        exact Int.le_of_eq (Int64.toInt_ofInt_of_le (by omega) (by omega)).symm
    | fromLargest used =>
        intro next
        simp only [Option.ite_none_right_eq_some, Option.some.injEq] at next
        obtain ⟨small, rfl⟩ := next
        rw [Int64.toInt_maxValue] at small
        rw [Int64.toInt_ofInt_of_le (by omega) (by omega)]
        exact Int.le_max_left _ _
  rw [Int64.lt_iff_toInt_lt]
  omega

/-- The next position depends on the positions that are used only. -/
theorem nextPosition?_congr {other : Table}
    (positions : other.rows.map (·.position) = table.rows.map (·.position))
    (numbering : other.numbering = table.numbering) :
    other.nextPosition? = table.nextPosition? := by
  have values : (other.rows.map fun row => row.position.toInt) =
      table.rows.map fun row => row.position.toInt := by
    have mapped := congrArg (List.map Int64.toInt) positions
    rw [List.map_map, List.map_map] at mapped
    exact mapped
  unfold nextPosition? largestPresent
  rw [values, numbering]

/-! ## Tables that record the largest position ever used -/

/-- The position that is recorded as the largest ever used, or zero. -/
def largestUsed (table : Table) : Int64 :=
  match table.numbering with
  | .fromPresent => 0
  | .fromLargest used => used.getD 0

/-- Where the largest position is recorded, the next one depends on it and on the positions that
are used. -/
theorem nextPosition?_of_largestUsed {other : Table}
    (positions : other.rows.map (·.position) = table.rows.map (·.position))
    (recorded : table.numbering ≠ .fromPresent) (otherRecorded : other.numbering ≠ .fromPresent)
    (same : other.largestUsed = table.largestUsed) :
    other.nextPosition? = table.nextPosition? := by
  have value (used : Option Int64) : (used.map Int64.toInt).getD 0 = (used.getD 0).toInt := by
    cases used <;> rfl
  cases numbering : table.numbering with
  | fromPresent => exact absurd numbering recorded
  | fromLargest used =>
      cases otherNumbering : other.numbering with
      | fromPresent => exact absurd otherNumbering otherRecorded
      | fromLargest otherUsed =>
          have sameUsed : otherUsed.getD 0 = used.getD 0 := by
            simpa only [largestUsed, numbering, otherNumbering] using same
          have present : other.largestPresent = table.largestPresent := by
            have mapped := congrArg (List.map Int64.toInt) positions
            rw [List.map_map, List.map_map] at mapped
            exact congrArg List.max? mapped
          unfold nextPosition?
          simp only [numbering, otherNumbering, present, value, sameUsed]

/-- A row that joins a table is recorded if it has the largest position ever used. -/
theorem largestUsed_withRow (recorded : table.numbering ≠ .fromPresent) (row : Row) :
    (table.withRow row).largestUsed =
      if table.largestUsed < row.position then row.position else table.largestUsed := by
  cases numbering : table.numbering with
  | fromPresent => exact absurd numbering recorded
  | fromLargest used =>
      simp only [largestUsed, Table.withRow, numbering, Numbering.use, Option.getD_some]

/-- A table that records the largest position ever used, or none for zero. -/
structure Counts (table : Table) (largest : Int64) : Prop where
  recorded : ∃ used, table.numbering = .fromLargest used ∧ used.getD 0 = largest
  nonneg : 0 ≤ largest.toInt
  bound : ∀ row ∈ table.rows, row.position.toInt ≤ largest.toInt

variable {largest : Int64}

theorem Counts.largestUsed (counts : table.Counts largest) : table.largestUsed = largest := by
  obtain ⟨used, numbering, same⟩ := counts.recorded
  unfold Table.largestUsed
  rw [numbering]
  exact same

/-- The next position is the one behind the largest ever used, if there is one. -/
theorem Counts.nextPosition? (counts : table.Counts largest) :
    table.nextPosition? =
      if largest.toInt < Int64.maxValue.toInt then some (Int64.ofInt (largest.toInt + 1))
      else none := by
  obtain ⟨used, numbering, same⟩ := counts.recorded
  have present : (table.largestPresent.map (· + 1)).getD 1 ≤ largest.toInt + 1 := by
    unfold largestPresent
    cases maximum : (table.rows.map fun row => row.position.toInt).max? with
    | none =>
        have nonneg := counts.nonneg
        simp only [Option.map_none, Option.getD_none]
        omega
    | some present =>
        obtain ⟨row, member, rfl⟩ := List.mem_map.mp (List.max?_mem maximum)
        have bound := counts.bound row member
        simp only [Option.map_some, Option.getD_some]
        omega
  have sameInt : (used.map Int64.toInt).getD 0 = largest.toInt := by
    rw [← same]
    cases used <;> rfl
  unfold Table.nextPosition?
  simp only [numbering, sameInt]
  rw [Int.max_eq_right present]
  by_cases room : largest.toInt < Int64.maxValue.toInt
  · rw [if_pos room, if_pos (by omega)]
  · rw [if_neg room, if_neg (by omega)]

/-- Tables that count, and give the next row the same position, have recorded the same one. -/
theorem Counts.eq_of_nextPosition? {other : Table} {otherLargest : Int64}
    (counts : table.Counts largest) (otherCounts : other.Counts otherLargest)
    (next : other.nextPosition? = table.nextPosition?) : otherLargest = largest := by
  have nonneg := counts.nonneg
  have otherNonneg := otherCounts.nonneg
  have above := largest.toInt_le
  have otherAbove := otherLargest.toInt_le
  rw [counts.nextPosition?, otherCounts.nextPosition?] at next
  rw [Int64.toInt_maxValue] at next above otherAbove
  apply Int64.toInt_inj.mp
  by_cases room : largest.toInt < 2 ^ 63 - 1
  · rw [if_pos room, Option.ite_none_right_eq_some, Option.some.injEq] at next
    obtain ⟨otherRoom, equal⟩ := next
    have values := congrArg Int64.toInt equal
    rw [Int64.toInt_ofInt_of_le (by omega) (by omega),
      Int64.toInt_ofInt_of_le (by omega) (by omega)] at values
    omega
  · rw [if_neg room, ite_eq_right_iff] at next
    have otherFull : ¬ otherLargest.toInt < 2 ^ 63 - 1 := fun otherRoom => nomatch next otherRoom
    omega

/-- A table counts on when rows are taken out. -/
theorem Counts.of_subset {other : Table} (counts : table.Counts largest)
    (numbering : other.numbering = table.numbering)
    (subset : ∀ row ∈ other.rows, row.position ∈ table.rows.map (·.position)) :
    other.Counts largest := by
  refine ⟨?_, counts.nonneg, ?_⟩
  · rw [numbering]
    exact counts.recorded
  · intro row member
    obtain ⟨old, oldMember, same⟩ := List.mem_map.mp (subset row member)
    rw [← same]
    exact counts.bound old oldMember

/-- A table counts on when rows are changed in place. -/
theorem Counts.of_positions {other : Table} (counts : table.Counts largest)
    (numbering : other.numbering = table.numbering)
    (positions : other.rows.map (·.position) = table.rows.map (·.position)) :
    other.Counts largest := by
  apply counts.of_subset numbering
  intro row member
  rw [← positions]
  exact List.mem_map_of_mem member

/-- A table that gives a row its position records this position. -/
theorem Counts.withRow (counts : table.Counts largest) {row : Row}
    (next : table.nextPosition? = some row.position) :
    (table.withRow row).Counts row.position ∧
      row.position.toInt = largest.toInt + 1 := by
  rw [counts.nextPosition?, Option.ite_none_right_eq_some, Option.some.injEq] at next
  obtain ⟨room, next⟩ := next
  have nonneg := counts.nonneg
  have value : row.position.toInt = largest.toInt + 1 := by
    rw [← next, Int64.toInt_ofInt_of_le (by omega) (by rw [Int64.toInt_maxValue] at room; omega)]
  refine ⟨⟨?_, by omega, ?_⟩, value⟩
  · obtain ⟨used, numbering, same⟩ := counts.recorded
    have before : largest < row.position := by
      rw [Int64.lt_iff_toInt_lt]
      omega
    refine ⟨some row.position, ?_, rfl⟩
    simp [Table.withRow, numbering, Numbering.use, same, before]
  · intro other member
    have last : ∀ other ∈ table.rows, other.position < row.position := by
      intro other member
      have bound := counts.bound other member
      rw [Int64.lt_iff_toInt_lt]
      omega
    rw [Table.withRow, insertOrdered_of_last last, List.mem_append, List.mem_singleton] at member
    rcases member with present | rfl
    · have bound := counts.bound other present
      omega
    · exact Int.le_refl _

end Table

end MessageStore.Relational
