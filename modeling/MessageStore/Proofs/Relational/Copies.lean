import MessageStore.Proofs.Relational.Columns

/-!
# Rows that join a table one after another

A table that records the largest position ever used accepts rows of cells that
its columns prefer as long as there are positions left.  They come behind the
rows that are there, in their order, at the positions that follow the largest
one.
-/

namespace MessageStore.Relational

namespace Table

variable {table : Table} {largest : Int64}

/-- A row behind all others joins them at the end. -/
theorem withRow_rows {row : Row} (last : ∀ other ∈ table.rows, other.position < row.position) :
    (table.withRow row).rows = table.rows ++ [row] :=
  insertOrdered_of_last last

/-- A row at the next position joins the others at the end. -/
theorem withRow_newRow_rows {position : Int64} (next : table.nextPosition? = some position)
    (given : List (String × Cell)) :
    (table.withRow (table.newRow given position)).rows =
      table.rows ++ [table.newRow given position] :=
  withRow_rows (lt_nextPosition next)

theorem Ordered.withRow {row : Row} (ordered : table.Ordered)
    (last : ∀ other ∈ table.rows, other.position < row.position) :
    (table.withRow row).Ordered := by
  unfold Ordered
  rw [withRow_rows last, List.pairwise_append]
  refine ⟨ordered, List.pairwise_singleton _ _, ?_⟩
  intro other member new newMember
  rw [List.mem_singleton.mp newMember]
  exact last other member

/-- What joining rows one after another leaves. -/
structure Filled (table : Table) (given : Row → List (String × Cell)) (sources : List Row)
    (largest : Int64) (filled : Table) : Prop where
  name : filled.name = table.name
  columns : filled.columns = table.columns
  rows : filled.rows = table.rows ++ sources.mapIdx fun index source =>
    table.newRow (given source) (Int64.ofInt (largest.toInt + index + 1))
  ordered : filled.Ordered
  counts : ∃ used, filled.Counts used ∧ used.toInt = largest.toInt + sources.length

/-- Rows can be joined as long as there are positions left. -/
theorem foldlM_insert {given : Row → List (String × Cell)} {sources : List Row}
    (distinct : Distinct table.columns)
    (repeatable : ∀ column ∈ table.columns, column.key ≠ .unique)
    (preferred : ∀ source ∈ sources, ∀ column ∈ table.dataColumns,
      (givenCell (given source) column).kind = column.affinity.kind)
    (counts : table.Counts largest) (ordered : table.Ordered)
    (room : largest.toInt + sources.length ≤ Int64.maxValue.toInt) :
    ∃ filled,
      sources.foldlM (fun (table : Table) source => table.insert none (given source)) table =
        .ok filled ∧
      Filled table given sources largest filled := by
  induction sources generalizing table largest with
  | nil =>
      refine ⟨table, rfl, rfl, rfl, ?_, ordered, largest, counts, ?_⟩ <;> simp
  | cons source rest ih =>
      rw [List.length_cons, Int.natCast_add] at room
      obtain ⟨row, made⟩ :
          ∃ row, row = table.newRow (given source) (Int64.ofInt (largest.toInt + 1)) := ⟨_, rfl⟩
      have next : table.nextPosition? = some row.position := by
        rw [counts.nextPosition?, made]
        exact if_pos (by omega)
      have joined : table.insert none (given source) = .ok (table.withRow row) := by
        rw [insert_of_preferred distinct repeatable (preferred source List.mem_cons_self), made]
        simp only [next, made]
        rfl
      obtain ⟨countsNext, value⟩ := counts.withRow next
      have last := lt_nextPosition next
      have preferredRest : ∀ other ∈ rest, ∀ column ∈ table.dataColumns,
          (givenCell (given other) column).kind = column.affinity.kind := by
        intro other member
        exact preferred other (List.mem_cons_of_mem source member)
      obtain ⟨filled, fills, result⟩ := @ih (table.withRow row) row.position distinct repeatable
        preferredRest countsNext (ordered.withRow last) (by omega)
      refine ⟨filled, bind_eq_ok_iff.mpr ⟨_, joined, fills⟩, ?_⟩
      have rows : filled.rows = table.rows ++ (source :: rest).mapIdx fun index source =>
          table.newRow (given source) (Int64.ofInt (largest.toInt + index + 1)) := by
        have positions : (fun (index : Nat) source => (table.withRow row).newRow (given source)
              (Int64.ofInt (row.position.toInt + index + 1))) =
            fun index source => table.newRow (given source)
              (Int64.ofInt (largest.toInt + (index + 1 : Nat) + 1)) := by
          funext index source
          have sum : row.position.toInt + index + 1 = largest.toInt + (index + 1 : Nat) + 1 := by
            omega
          rw [sum]
          rfl
        rw [result.rows, withRow_rows last, positions, List.mapIdx_cons, made]
        simp
      exact
        { name := result.name
          columns := result.columns
          rows
          ordered := result.ordered
          counts := by
            obtain ⟨used, usedCounts, sum⟩ := result.counts
            refine ⟨used, usedCounts, ?_⟩
            rw [List.length_cons]
            omega }

end Table

end MessageStore.Relational
