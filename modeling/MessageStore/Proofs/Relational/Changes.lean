import MessageStore.Proofs.Outcome
import MessageStore.Proofs.Relational.Rows
import MessageStore.Relational.Statement

/-!
# Changes that succeed

For every change of a table or of a database: when it succeeds, and what it then
leaves.  A change reads the table that its name finds, checks what it is given
against the columns and the rows of this table, and puts the result in its
place.
-/

namespace MessageStore.Relational

namespace Table

variable {table after : Table}

theorem insert_eq_ok_iff {position? : Option Int64} {given : List (String × Cell)} :
    table.insert position? given = .ok after ↔
      ∃ position, position?.or table.nextPosition? = some position ∧
        table.violation? ⟨position, table.newCells given⟩ = none ∧
        after = table.withRow ⟨position, table.newCells given⟩ := by
  unfold insert
  cases position?.or table.nextPosition? with
  | none => simp
  | some position =>
      cases refused : table.violation? ⟨position, table.newCells given⟩ with
      | some fault => simp [refused]
      | none => simp [refused, eq_comm]

/-- A row may join a table exactly if no column refuses it and its position is free. -/
theorem violation?_eq_none_iff {row : Row} :
    table.violation? row = none ↔
      table.nullViolation? row = none ∧ (∀ other ∈ table.rows, other.position ≠ row.position) ∧
        table.uniqueViolation? row = none := by
  unfold violation?
  cases nulls : table.nullViolation? row with
  | some column => simp
  | none =>
      by_cases taken : table.rows.any fun other => other.position == row.position
      · have used : ∃ other ∈ table.rows, other.position = row.position := by simpa using taken
        obtain ⟨other, member, same⟩ := used
        simp only [taken, if_true, reduceCtorEq, true_and, false_iff, not_and]
        intro free
        exact absurd same (free other member)
      · have free : ∀ other ∈ table.rows, other.position ≠ row.position := by simpa using taken
        simp only [taken, Bool.false_eq_true, if_false, Option.map_eq_none_iff, true_and]
        exact ⟨fun unrepeated => ⟨free, unrepeated⟩, fun accepted => accepted.2⟩

/-- A table with one more column, in which rows have the cell of rows that are not given one. -/
def withColumn (table : Table) (column : Column) : Table :=
  { table with
    columns := table.columns ++ [column]
    rows := table.rows.map fun row =>
      { row with cells := row.cells ++ [(column.name, column.fallback)] } }

theorem addColumn_eq_ok_iff {column : Column} :
    table.addColumn column = .ok after ↔
      table.column? column.name = none ∧ after = table.withColumn column := by
  unfold addColumn
  cases table.column? column.name with
  | none => simp [withColumn, eq_comm]
  | some other => simp

end Table

namespace Database

variable {db after : Database}

theorem of_table? {name : String} {table : Table} (found : db.table? name = some table) :
    table ∈ db.tables ∧ sameName table.name name = true := by
  unfold table? at found
  exact ⟨List.mem_of_find?_eq_some found, by simpa using List.find?_some found⟩

theorem readable_eq_ok_iff {name : String} {table : Table} :
    db.readable name = .ok table ↔ db.table? name = some table := by
  unfold readable
  cases db.table? name with
  | none => simp
  | some found => simp

theorem writable_eq_ok_iff {name : String} {table : Table} :
    db.writable name = .ok table ↔ db.view? name = none ∧ db.table? name = some table := by
  unfold writable
  cases db.view? name with
  | some view => simp
  | none => simp [readable_eq_ok_iff]

theorem requireColumns_eq_ok_iff {table : Table} {names : List String} :
    requireColumns table names = .ok () ↔ ∀ name ∈ names, (table.column? name).isSome := by
  unfold requireColumns
  cases missing : names.find? fun name => (table.column? name).isNone with
  | none => simpa [Option.isSome_iff_ne_none] using missing
  | some name =>
      have absent : (table.column? name).isNone = true := by simpa using List.find?_some missing
      rw [Option.isNone_iff_eq_none] at absent
      simp only [reduceCtorEq, false_iff]
      intro known
      have present := known name (List.mem_of_find?_eq_some missing)
      simp [absent] at present

theorem createTable_eq_ok_iff {name : String} {columns : List Column} {numbering : Numbering}
    {mayStay : Bool} :
    db.createTable name columns numbering mayStay = .ok after ↔
      (mayStay = true ∧ ((db.table? name).isSome ∨ (db.view? name).isSome) ∧ after = db) ∨
        (db.table? name = none ∧ db.view? name = none ∧ db.index? name = none ∧
          after = { db with tables := db.tables ++ [⟨name, columns, [], numbering⟩] }) := by
  unfold createTable
  cases db.table? name with
  | some table => cases mayStay <;> simp [@eq_comm _ db]
  | none =>
      cases db.view? name with
      | some view => cases mayStay <;> simp [@eq_comm _ db]
      | none =>
          cases db.index? name with
          | some index => simp
          | none => simp [eq_comm]

theorem createIndex_eq_ok_iff {name target : String} :
    db.createIndex name target = .ok after ↔
      ∃ table, db.table? target = some table ∧
        db.table? name = none ∧ db.view? name = none ∧ db.index? name = none ∧
        after = { db with indexes := db.indexes ++ [⟨name, table.name⟩] } := by
  unfold createIndex
  rw [bind_eq_ok_iff]
  refine exists_congr fun table => and_congr readable_eq_ok_iff ?_
  cases db.table? name with
  | some table => simp
  | none =>
      cases db.view? name with
      | some view => simp
      | none =>
          cases db.index? name with
          | some index => simp
          | none => simp [eq_comm]

theorem addColumn_eq_ok_iff {target : String} {column : Column} :
    db.addColumn target column = .ok after ↔
      ∃ table, db.writable target = .ok table ∧ table.column? column.name = none ∧
        after = db.replace (table.withColumn column) := by
  unfold addColumn
  rw [bind_eq_ok_iff]
  refine exists_congr fun table => and_congr_right fun _ => ?_
  rw [bind_eq_ok_iff]
  constructor
  · rintro ⟨wider, added, ⟨⟩⟩
    obtain ⟨fresh, rfl⟩ := Table.addColumn_eq_ok_iff.mp added
    exact ⟨fresh, rfl⟩
  · rintro ⟨fresh, rfl⟩
    exact ⟨_, Table.addColumn_eq_ok_iff.mpr ⟨fresh, rfl⟩, rfl⟩

theorem insertAt_eq_ok_iff {target : String} {position? : Option Int64}
    {given : List (String × Cell)} :
    db.insertAt target position? given = .ok after ↔
      ∃ table larger, db.writable target = .ok table ∧
        (∀ cell ∈ given, (table.column? cell.1).isSome) ∧
        table.insert position? given = .ok larger ∧ after = db.replace larger := by
  unfold insertAt
  rw [bind_eq_ok_iff]
  refine exists_congr fun table => ?_
  cases unknown : given.find? fun cell => (table.column? cell.1).isNone with
  | some cell =>
      have absent : (table.column? cell.1).isNone = true := by simpa using List.find?_some unknown
      rw [Option.isNone_iff_eq_none] at absent
      constructor
      · rintro ⟨_, failed⟩
        cases failed
      · rintro ⟨_, _, known, _⟩
        have present := known cell (List.mem_of_find?_eq_some unknown)
        simp [absent] at present
  | none =>
      have known : ∀ cell ∈ given, (table.column? cell.1).isSome := by
        simpa [Option.isSome_iff_ne_none] using unknown
      constructor
      · rintro ⟨target, inserted⟩
        obtain ⟨larger, joined, ⟨⟩⟩ := bind_eq_ok_iff.mp inserted
        exact ⟨larger, target, known, joined, rfl⟩
      · rintro ⟨larger, target, _, joined, rfl⟩
        exact ⟨target, bind_eq_ok_iff.mpr ⟨larger, joined, rfl⟩⟩

/-- Inserting cells of known columns is inserting them into the table. -/
theorem insertAt_eq {target : String} {table : Table} {position? : Option Int64}
    {given : List (String × Cell)} (writable : db.writable target = .ok table)
    (known : ∀ cell ∈ given, (table.column? cell.1).isSome) :
    db.insertAt target position? given = (table.insert position? given).map db.replace := by
  unfold insertAt
  rw [writable]
  simp only [bind, Except.bind]
  split
  next unknown _ found =>
    have present := known _ (List.mem_of_find?_eq_some found)
    have absent := List.find?_some found
    simp only [Option.isNone_iff_eq_none] at absent
    simp [absent] at present
  next =>
    cases table.insert position? given with
    | error fault => rfl
    | ok larger => rfl

/-- The cells that a row of one table gives to the columns of another. -/
def copiedCells (source : Table) (pairs : List (String × String)) (row : Row) :
    List (String × Cell) :=
  pairs.filterMap fun (filled, filling) =>
    (source.column? filling).map fun column => (filled, row.cell column)

theorem copyRows_eq_ok_iff {target source : String} {pairs : List (String × String)} :
    db.copyRows target pairs source = .ok after ↔
      ∃ table origin filled, db.writable target = .ok table ∧ db.table? source = some origin ∧
        (∀ pair ∈ pairs, (origin.column? pair.2).isSome) ∧
        origin.rows.foldlM
          (fun (table : Table) row => table.insert none (copiedCells origin pairs row)) table =
            .ok filled ∧
        after = db.replace { filled with numbering := Table.Numbering.touch filled.numbering } := by
  constructor
  · intro copied
    obtain ⟨table, target, copied⟩ := bind_eq_ok_iff.mp copied
    obtain ⟨origin, source, copied⟩ := bind_eq_ok_iff.mp copied
    obtain ⟨⟨⟩, known, copied⟩ := bind_eq_ok_iff.mp copied
    obtain ⟨filled, fills, ⟨⟩⟩ := bind_eq_ok_iff.mp copied
    refine ⟨table, origin, filled, target, readable_eq_ok_iff.mp source, ?_, fills, rfl⟩
    intro pair member
    exact requireColumns_eq_ok_iff.mp known pair.2 (List.mem_map_of_mem member)
  · rintro ⟨table, origin, filled, target, source, known, fills, rfl⟩
    have required : requireColumns origin (pairs.map Prod.snd) = .ok () := by
      rw [requireColumns_eq_ok_iff]
      intro name member
      obtain ⟨pair, pairMember, rfl⟩ := List.mem_map.mp member
      exact known pair pairMember
    exact bind_eq_ok_iff.mpr ⟨table, target,
      bind_eq_ok_iff.mpr ⟨origin, readable_eq_ok_iff.mpr source,
        bind_eq_ok_iff.mpr ⟨(), required, bind_eq_ok_iff.mpr ⟨filled, fills, rfl⟩⟩⟩⟩

/-- A row that has been changed with one more cell assigned, which may come from the row as it
was. -/
def assignOne (table : Table) (row changed : Row) (assignment : String × Operand) : Row :=
  match table.column? assignment.1 with
  | some column =>
      changed.put column.name (column.affinity.convert (operandCell table row assignment.2))
  | none => changed

theorem assignRow_eq (table : Table) (assignments : List (String × Operand)) (row : Row) :
    assignRow table assignments row = assignments.foldl (assignOne table row) row :=
  rfl

theorem position_assignOne (table : Table) (row changed : Row) (assignment : String × Operand) :
    (assignOne table row changed assignment).position = changed.position := by
  unfold assignOne
  cases table.column? assignment.1 with
  | none => rfl
  | some column => exact Row.position_put _ _ _

/-- Assignments leave a row in its place. -/
theorem position_assignRow (table : Table) (assignments : List (String × Operand)) (row : Row) :
    (assignRow table assignments row).position = row.position := by
  have each (changed : Row) :
      (assignments.foldl (assignOne table row) changed).position = changed.position := by
    induction assignments generalizing changed with
    | nil => rfl
    | cons assignment rest ih =>
        exact (ih _).trans (position_assignOne table row changed assignment)
  exact each row

/-- Whether an update is about a row. -/
def meets (table : Table) (condition : Option Condition) (row : Row) : Bool :=
  condition.all (·.holds table row)

/-- A table after an update that has been checked. -/
def updated (table : Table) (assignments : List (String × Operand))
    (condition : Option Condition) : Table :=
  { table with
    rows := table.rows.map fun row =>
      if meets table condition row then assignRow table assignments row else row }

/-- An update leaves every row in its place. -/
theorem positions_updated (table : Table) (assignments : List (String × Operand))
    (condition : Option Condition) :
    (updated table assignments condition).rows.map (·.position) =
      table.rows.map (·.position) := by
  unfold updated
  rw [List.map_map]
  apply List.map_congr_left
  intro row _
  change (if meets table condition row then assignRow table assignments row else row).position = _
  split
  · exact position_assignRow table assignments row
  · rfl

/-- A partial change of every row succeeds if it does for each of them. -/
theorem mapM_eq_ok_iff {rows changed : List Row} {change : Row → Except Fault Row}
    {allowed : Row → Prop} {result : Row → Row}
    (each : ∀ row next, change row = .ok next ↔ allowed row ∧ next = result row) :
    rows.mapM change = .ok changed ↔ (∀ row ∈ rows, allowed row) ∧ changed = rows.map result := by
  induction rows generalizing changed with
  | nil => simp [pure, Except.pure, eq_comm]
  | cons row rows ih =>
      rw [List.mapM_cons, bind_eq_ok_iff]
      constructor
      · rintro ⟨next, first, rest⟩
        obtain ⟨others, tail, ⟨⟩⟩ := bind_eq_ok_iff.mp rest
        obtain ⟨rowAllowed, rfl⟩ := (each row next).mp first
        obtain ⟨othersAllowed, rfl⟩ := ih.mp tail
        exact ⟨by simpa using ⟨rowAllowed, othersAllowed⟩, rfl⟩
      · rintro ⟨allAllowed, rfl⟩
        have rest := ih.mpr ⟨fun other member => allAllowed other (List.mem_cons_of_mem row member),
          rfl⟩
        exact ⟨result row, (each row _).mpr ⟨allAllowed row List.mem_cons_self, rfl⟩,
          bind_eq_ok_iff.mpr ⟨_, rest, rfl⟩⟩

theorem updateTable_eq_ok_iff {table edited : Table} {assignments : List (String × Operand)}
    {condition : Option Condition} :
    updateTable table assignments condition = .ok edited ↔
      (∀ row ∈ table.rows, meets table condition row = true →
        table.nullViolation? (assignRow table assignments row) = none) ∧
      edited = updated table assignments condition := by
  unfold updateTable
  rw [bind_eq_ok_iff]
  have each : ∀ row next,
      (if meets table condition row then
        match table.nullViolation? (assignRow table assignments row) with
        | some column => throw (.notNull table.name column.name)
        | none => pure (assignRow table assignments row)
      else pure row : Except Fault Row) = .ok next ↔
        (meets table condition row = true →
          table.nullViolation? (assignRow table assignments row) = none) ∧
        next = if meets table condition row then assignRow table assignments row else row := by
    intro row next
    cases meets table condition row with
    | false => simp [pure, Except.pure, eq_comm]
    | true =>
        cases table.nullViolation? (assignRow table assignments row) with
        | some column => simp [throw, throwThe, MonadExceptOf.throw]
        | none => simp [pure, Except.pure, eq_comm]
  constructor
  · rintro ⟨rows, changed, ⟨⟩⟩
    obtain ⟨allowed, rfl⟩ := (mapM_eq_ok_iff each).mp changed
    exact ⟨allowed, rfl⟩
  · rintro ⟨allowed, rfl⟩
    exact ⟨_, (mapM_eq_ok_iff each).mpr ⟨allowed, rfl⟩, rfl⟩

theorem update_eq_ok_iff {target : String} {assignments : List (String × Operand)}
    {condition : Option Condition} :
    db.update target assignments condition = .ok after ↔
      ∃ table, db.writable target = .ok table ∧
        (∀ name ∈ assignments.flatMap assignmentNames ++
          (condition.map Condition.names).getD [], (table.column? name).isSome) ∧
        (∀ row ∈ table.rows, meets table condition row = true →
          table.nullViolation? (assignRow table assignments row) = none) ∧
        after = db.replace (updated table assignments condition) := by
  unfold update
  rw [bind_eq_ok_iff]
  refine exists_congr fun table => and_congr_right fun _ => ?_
  rw [bind_eq_ok_iff]
  constructor
  · rintro ⟨⟨⟩, known, changed⟩
    obtain ⟨edited, edits, ⟨⟩⟩ := bind_eq_ok_iff.mp changed
    obtain ⟨allowed, rfl⟩ := updateTable_eq_ok_iff.mp edits
    exact ⟨requireColumns_eq_ok_iff.mp known, allowed, rfl⟩
  · rintro ⟨known, allowed, rfl⟩
    exact ⟨(), requireColumns_eq_ok_iff.mpr known,
      bind_eq_ok_iff.mpr ⟨_, updateTable_eq_ok_iff.mpr ⟨allowed, rfl⟩, rfl⟩⟩

/-- A table without the rows that meet a condition. -/
def deleted (table : Table) (condition : Condition) : Table :=
  { table with rows := table.rows.filter fun row => !condition.holds table row }

/-- Deleting by known columns succeeds. -/
theorem delete_eq {target : String} {table : Table} {condition : Condition}
    (writable : db.writable target = .ok table)
    (known : ∀ name ∈ condition.names, (table.column? name).isSome) :
    db.delete target condition =
      .ok (db.replace (deleted table condition),
        table.rows.length - (deleted table condition).rows.length) := by
  unfold delete
  rw [writable]
  change (do
    requireColumns table condition.names
    return _) = _
  rw [requireColumns_eq_ok_iff.mpr known]
  rfl

theorem dropTable_eq_ok_iff {target : String} :
    db.dropTable target = .ok after ↔
      ∃ table, db.writable target = .ok table ∧
        after =
          { db with
            tables := db.tables.filter fun other => other.name ≠ table.name
            indexes := db.indexes.filter fun index => index.table ≠ table.name } := by
  unfold dropTable
  rw [bind_eq_ok_iff]
  refine exists_congr fun table => and_congr_right fun _ => ?_
  simp [pure, Except.pure, eq_comm]

theorem renameTable_eq_ok_iff {target newName : String} :
    db.renameTable target newName = .ok after ↔
      ∃ table, db.writable target = .ok table ∧
        after =
          { db with
            tables := db.tables.map fun other =>
              if other.name = table.name then { other with name := newName } else other
            indexes := db.indexes.map fun index =>
              if index.table = table.name then { index with table := newName } else index } := by
  unfold renameTable
  rw [bind_eq_ok_iff]
  refine exists_congr fun table => and_congr_right fun _ => ?_
  simp [pure, Except.pure, eq_comm]

end Database

end MessageStore.Relational
