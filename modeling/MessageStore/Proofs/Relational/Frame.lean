import MessageStore.Proofs.Relational.Changes

/-!
# What changes leave alone

A change touches the tables that it names, and no others: a table that is looked
up under any other name is found as it was before.  Names count as the same
without regard to the case of letters, so a statement that names a table touches
whatever the lookup of that name finds.  Only a table that is dropped or renamed
loses its name.
-/

namespace MessageStore.Relational

theorem sameName_trans {first second third : String}
    (left : sameName first second = true) (right : sameName second third = true) :
    sameName first third = true := by
  simp only [sameName, beq_iff_eq] at left right ⊢
  exact left.trans right

/-- What one spelling of a name differs from, every spelling differs from. -/
theorem sameName_eq_false {first second third : String}
    (spelling : sameName first second = true) (different : sameName second third = false) :
    sameName first third = false := by
  rw [← Bool.not_eq_true] at different ⊢
  intro same
  exact different (sameName_trans (by rw [sameName_comm]; exact spelling) same)

/-- Rows that join a table change neither its name nor its columns. -/
theorem Table.insert_frame {table after : Table} {position? : Option Int64}
    {given : List (String × Cell)} (inserted : table.insert position? given = .ok after) :
    after.name = table.name ∧ after.columns = table.columns := by
  obtain ⟨_, _, _, rfl⟩ := Table.insert_eq_ok_iff.mp inserted
  exact ⟨rfl, rfl⟩

/-- Rows that join a table one after another change neither its name nor its columns. -/
theorem Table.foldlM_insert_frame {given : Row → List (String × Cell)} {sources : List Row}
    {table filled : Table}
    (fills : sources.foldlM (fun (table : Table) row => table.insert none (given row)) table =
      .ok filled) :
    filled.name = table.name ∧ filled.columns = table.columns := by
  induction sources generalizing table with
  | nil =>
      cases fills
      exact ⟨rfl, rfl⟩
  | cons source sources ih =>
      rw [List.foldlM_cons] at fills
      obtain ⟨larger, joined, fills⟩ := bind_eq_ok_iff.mp fills
      have first := Table.insert_frame joined
      have rest := ih fills
      exact ⟨rest.1.trans first.1, rest.2.trans first.2⟩

namespace Database

variable {db after : Database}

/-- Where a name has only one spelling, looking it up in this spelling is looking it up. -/
theorem table?_eq_tableNamed? {name : String}
    (spelled : ∀ table ∈ db.tables, sameName table.name name = true → table.name = name) :
    db.table? name = db.tableNamed? name := by
  unfold table? tableNamed?
  rw [← List.head?_filter, ← List.head?_filter]
  congr 1
  apply List.filter_congr
  intro table member
  by_cases spelling : sameName table.name name = true
  · simp [spelled table member spelling]
  · have distinct : table.name ≠ name := by
      intro equal
      simp [equal] at spelling
    simp [distinct, spelling]

/-- A lookup after a table has been put in the place of the one of its name. -/
theorem table?_replace (db : Database) (table : Table) (name : String) :
    (db.replace table).table? name =
      (db.table? name).map fun old => if old.name = table.name then table else old := by
  unfold replace table?
  rw [List.find?_map]
  congr 2
  funext old
  simp only [Function.comp_apply]
  split
  next same => rw [same]
  next => rfl

theorem table?_replace_self {old table : Table} {name : String}
    (found : db.table? name = some old) (same : table.name = old.name) :
    (db.replace table).table? name = some table := by
  rw [table?_replace, found]
  simp [same]

/-- A table that takes the place of one that can be changed can be changed. -/
theorem writable_replace_self {old table : Table} {name : String}
    (writable : db.writable name = .ok old) (same : table.name = old.name) :
    (db.replace table).writable name = .ok table := by
  obtain ⟨noView, found⟩ := writable_eq_ok_iff.mp writable
  exact writable_eq_ok_iff.mpr ⟨noView, table?_replace_self found same⟩

/-- A table that has taken a place is replaced there as the one before it. -/
theorem replace_replace (db : Database) {first second : Table} (same : first.name = second.name) :
    (db.replace first).replace second = db.replace second := by
  simp only [replace, List.map_map, Database.mk.injEq, and_true]
  apply List.map_congr_left
  intro old _
  by_cases named : old.name = second.name
  · simp [named, same]
  · simp [named, same]

/-- Putting a table in the place of one that a name finds changes no lookup of another name. -/
theorem replace_frame {name target : String} {old table : Table}
    (writable : db.writable target = .ok old) (same : table.name = old.name)
    (different : sameName target name = false) :
    (db.replace table).table? name = db.table? name := by
  have spelling := (of_table? (writable_eq_ok_iff.mp writable).2).2
  have tableDifferent : sameName table.name name = false := by
    rw [same]
    exact sameName_eq_false spelling different
  rw [table?_replace]
  cases found : db.table? name with
  | none => rfl
  | some other =>
      have distinct : other.name ≠ table.name := by
        intro equal
        have otherSpelling := (of_table? found).2
        rw [equal, tableDifferent] at otherSpelling
        cases otherSpelling
      simp [distinct]

@[simp]
theorem replace_names (db : Database) (table : Table) :
    (db.replace table).tables.map (·.name) = db.tables.map (·.name) := by
  simp only [replace, List.map_map]
  apply List.map_congr_left
  intro old _
  simp only [Function.comp_apply]
  split
  next same => exact same.symm
  next => rfl

/-- A table is found behind tables that are not found under its name. -/
theorem table?_append_self {tables : List Table} {views : List String} {indexes : List Index}
    {table : Table} {name : String}
    (absent : tables.find? (fun other => sameName other.name name) = none)
    (named : table.name = name) :
    Database.table? ⟨tables ++ [table], views, indexes⟩ name = some table := by
  unfold table?
  simp [absent, named]

/-- A table takes the place of one behind tables that are not found under its name. -/
theorem replace_append_self {tables : List Table} {views : List String} {indexes : List Index}
    {old table : Table} {name : String}
    (absent : tables.find? (fun other => sameName other.name name) = none)
    (oldNamed : old.name = name) (named : table.name = name) :
    Database.replace ⟨tables ++ [old], views, indexes⟩ table =
      ⟨tables ++ [table], views, indexes⟩ := by
  have others : ∀ other ∈ tables, (if other.name = table.name then table else other) = other := by
    intro other member
    apply if_neg
    intro equal
    rw [List.find?_eq_none] at absent
    exact absent other member (by simp [equal, named])
  simp only [replace, List.map_append, List.map_congr_left others, List.map_id']
  simp [oldNamed, named]

/-- What a database holds by name: its tables, its views and its indexes. -/
def outline (db : Database) : List String × List String × List Index :=
  (db.tables.map (·.name), db.views, db.indexes)

@[simp]
theorem replace_outline (db : Database) (table : Table) :
    (db.replace table).outline = db.outline := by
  rw [outline, replace_names]
  rfl

theorem createTable_frame {name target : String} {columns : List Column}
    {numbering : Numbering} {mayStay : Bool}
    (created : db.createTable target columns numbering mayStay = .ok after)
    (different : sameName target name = false) :
    after.table? name = db.table? name := by
  rcases createTable_eq_ok_iff.mp created with ⟨_, _, rfl⟩ | ⟨_, _, _, rfl⟩
  · rfl
  · simp [table?, List.find?_append, different]

theorem createIndex_frame {name target : String}
    (created : db.createIndex name target = .ok after) :
    after.tables = db.tables := by
  obtain ⟨_, _, _, _, _, rfl⟩ := createIndex_eq_ok_iff.mp created
  rfl

theorem addColumn_frame {name target : String} {column : Column}
    (added : db.addColumn target column = .ok after) (different : sameName target name = false) :
    after.table? name = db.table? name := by
  obtain ⟨_, writable, _, rfl⟩ := addColumn_eq_ok_iff.mp added
  exact replace_frame writable rfl different

theorem insertAt_frame {name target : String} {position? : Option Int64}
    {given : List (String × Cell)} (inserted : db.insertAt target position? given = .ok after)
    (different : sameName target name = false) :
    after.table? name = db.table? name := by
  obtain ⟨_, _, writable, _, joined, rfl⟩ := insertAt_eq_ok_iff.mp inserted
  exact replace_frame writable (Table.insert_frame joined).1 different

theorem copyRows_frame {name target source : String} {pairs : List (String × String)}
    (copied : db.copyRows target pairs source = .ok after)
    (different : sameName target name = false) :
    after.table? name = db.table? name := by
  obtain ⟨_, _, _, writable, _, _, fills, rfl⟩ := copyRows_eq_ok_iff.mp copied
  exact replace_frame writable (Table.foldlM_insert_frame fills).1 different

theorem update_frame {name target : String} {assignments : List (String × Operand)}
    {condition : Option Condition} (edited : db.update target assignments condition = .ok after)
    (different : sameName target name = false) :
    after.table? name = db.table? name := by
  obtain ⟨_, writable, _, _, rfl⟩ := update_eq_ok_iff.mp edited
  exact replace_frame writable rfl different

theorem dropTable_frame {name target : String} (dropped : db.dropTable target = .ok after)
    (different : sameName target name = false) :
    after.table? name = db.table? name := by
  obtain ⟨table, writable, rfl⟩ := dropTable_eq_ok_iff.mp dropped
  have spelling := (of_table? (writable_eq_ok_iff.mp writable).2).2
  simp only [table?, List.find?_filter]
  congr 1
  funext other
  by_cases same : other.name = table.name
  · simp [same, sameName_eq_false spelling different]
  · simp [same]

theorem renameTable_frame {name target newName : String}
    (renamed : db.renameTable target newName = .ok after)
    (different : sameName target name = false) (differentNew : sameName newName name = false) :
    after.table? name = db.table? name := by
  obtain ⟨table, writable, rfl⟩ := renameTable_eq_ok_iff.mp renamed
  have spelling := (of_table? (writable_eq_ok_iff.mp writable).2).2
  have oldName := sameName_eq_false spelling different
  have predicate : ((fun other : Table => sameName other.name name) ∘ fun other : Table =>
      if other.name = table.name then { other with name := newName } else other) =
        fun other => sameName other.name name := by
    funext other
    by_cases same : other.name = table.name
    · simp [same, oldName, differentNew]
    · simp [same]
  have renamedLookup := List.find?_map (l := db.tables)
    (p := fun other : Table => sameName other.name name)
    (f := fun other : Table =>
      if other.name = table.name then { other with name := newName } else other)
  rw [predicate] at renamedLookup
  refine renamedLookup.trans ?_
  cases found : db.table? name with
  | none => rw [show db.tables.find? (fun other => sameName other.name name) = none from found]; rfl
  | some other =>
      rw [show db.tables.find? (fun other => sameName other.name name) = some other from found]
      have distinct : other.name ≠ table.name := by
        intro same
        have otherSpelling := (of_table? found).2
        rw [same, oldName] at otherSpelling
        cases otherSpelling
      simp [distinct]

/-- The name of a table that is not the one dropped stays. -/
theorem dropTable_keeps {name target : String} (dropped : db.dropTable target = .ok after)
    (different : sameName target name = false) (present : name ∈ db.tables.map (·.name)) :
    name ∈ after.tables.map (·.name) := by
  obtain ⟨table, writable, rfl⟩ := dropTable_eq_ok_iff.mp dropped
  have spelling := (of_table? (writable_eq_ok_iff.mp writable).2).2
  obtain ⟨other, member, rfl⟩ := List.mem_map.mp present
  refine List.mem_map_of_mem (List.mem_filter.mpr ⟨member, ?_⟩)
  have distinct : other.name ≠ table.name := by
    intro same
    have clash := sameName_eq_false spelling different
    simp [same] at clash
  simpa using distinct

theorem renameTable_keeps {name target newName : String}
    (renamed : db.renameTable target newName = .ok after)
    (different : sameName target name = false) (present : name ∈ db.tables.map (·.name)) :
    name ∈ after.tables.map (·.name) := by
  obtain ⟨table, writable, rfl⟩ := renameTable_eq_ok_iff.mp renamed
  have spelling := (of_table? (writable_eq_ok_iff.mp writable).2).2
  obtain ⟨other, member, rfl⟩ := List.mem_map.mp present
  have distinct : other.name ≠ table.name := by
    intro same
    have clash := sameName_eq_false spelling different
    simp [same] at clash
  refine List.mem_map.mpr ⟨_, List.mem_map_of_mem member, ?_⟩
  simp [distinct]

/-- A table that is renamed has its new name. -/
theorem renameTable_names {target newName : String}
    (renamed : db.renameTable target newName = .ok after) :
    newName ∈ after.tables.map (·.name) := by
  obtain ⟨table, writable, rfl⟩ := renameTable_eq_ok_iff.mp renamed
  have member := (of_table? (writable_eq_ok_iff.mp writable).2).1
  exact List.mem_map.mpr ⟨_, List.mem_map_of_mem member, by simp⟩

end Database

namespace Statement

/-- The tables that a statement touches, as it names them. -/
def touched : Statement → List String
  | createTable name _ _ _ => [name]
  | createIndex _ _ => []
  | addColumn table _ => [table]
  | insert table _ => [table]
  | copyRows target _ _ => [target]
  | update table _ _ => [table]
  | dropTable name => [name]
  | renameTable name newName => [name, newName]

/-- The tables whose names a statement takes away. -/
def removed : Statement → List String
  | dropTable name => [name]
  | renameTable name _ => [name]
  | _ => []

section Exec

variable {db after : Database} {statement : Statement} {name : String}

/-- A statement leaves alone what is not the same as a name that it touches. -/
theorem exec_frame (done : statement.exec db = .ok after)
    (untouched : ∀ other ∈ statement.touched, sameName other name = false) :
    after.table? name = db.table? name := by
  cases statement with
  | createTable _ _ _ _ => exact Database.createTable_frame done (untouched _ (by simp [touched]))
  | createIndex _ _ => simp only [Database.table?, Database.createIndex_frame done]
  | addColumn _ _ => exact Database.addColumn_frame done (untouched _ (by simp [touched]))
  | insert _ _ => exact Database.insertAt_frame done (untouched _ (by simp [touched]))
  | copyRows _ _ _ => exact Database.copyRows_frame done (untouched _ (by simp [touched]))
  | update _ _ _ => exact Database.update_frame done (untouched _ (by simp [touched]))
  | dropTable _ => exact Database.dropTable_frame done (untouched _ (by simp [touched]))
  | renameTable _ _ =>
      exact Database.renameTable_frame done (untouched _ (by simp [touched]))
        (untouched _ (by simp [touched]))

/-- A name stays that no name taken away is the same as. -/
theorem exec_keeps (done : statement.exec db = .ok after)
    (kept : ∀ other ∈ statement.removed, sameName other name = false)
    (present : name ∈ db.tables.map (·.name)) :
    name ∈ after.tables.map (·.name) := by
  cases statement with
  | createTable _ _ _ _ =>
      rcases Database.createTable_eq_ok_iff.mp done with ⟨_, _, rfl⟩ | ⟨_, _, _, rfl⟩
      · exact present
      · rw [List.map_append]
        exact List.mem_append_left _ present
  | createIndex _ _ =>
      rw [Database.createIndex_frame done]
      exact present
  | addColumn _ _ =>
      obtain ⟨_, _, _, rfl⟩ := Database.addColumn_eq_ok_iff.mp done
      rwa [Database.replace_names]
  | insert _ _ =>
      obtain ⟨_, _, _, _, _, rfl⟩ := Database.insertAt_eq_ok_iff.mp done
      rwa [Database.replace_names]
  | copyRows _ _ _ =>
      obtain ⟨_, _, _, _, _, _, _, rfl⟩ := Database.copyRows_eq_ok_iff.mp done
      rwa [Database.replace_names]
  | update _ _ _ =>
      obtain ⟨_, _, _, _, rfl⟩ := Database.update_eq_ok_iff.mp done
      rwa [Database.replace_names]
  | dropTable _ => exact Database.dropTable_keeps done (kept _ (by simp [removed])) present
  | renameTable _ _ => exact Database.renameTable_keeps done (kept _ (by simp [removed])) present

end Exec

section Batch

variable {db after : Database} {statements : List Statement} {name : String}

/-- A batch leaves alone what none of its statements touches. -/
theorem execAll_frame (done : execAll db statements = .ok after)
    (untouched : ∀ other ∈ statements.flatMap touched, sameName other name = false) :
    after.table? name = db.table? name := by
  induction statements generalizing db with
  | nil =>
      cases done
      rfl
  | cons statement rest ih =>
      obtain ⟨next, first, done⟩ := bind_eq_ok_iff.mp done
      rw [List.flatMap_cons] at untouched
      rw [ih done fun other member => untouched other (List.mem_append_right _ member)]
      exact exec_frame first fun other member => untouched other (List.mem_append_left _ member)

/-- A name stays that a batch does not take away. -/
theorem execAll_keeps (done : execAll db statements = .ok after)
    (kept : ∀ other ∈ statements.flatMap removed, sameName other name = false)
    (present : name ∈ db.tables.map (·.name)) :
    name ∈ after.tables.map (·.name) := by
  induction statements generalizing db with
  | nil =>
      cases done
      exact present
  | cons statement rest ih =>
      obtain ⟨next, first, done⟩ := bind_eq_ok_iff.mp done
      rw [List.flatMap_cons] at kept
      refine ih done (fun other member => kept other (List.mem_append_right _ member)) ?_
      have keptFirst : ∀ other ∈ statement.removed, sameName other name = false :=
        fun other member => kept other (List.mem_append_left _ member)
      exact exec_keeps first keptFirst present

/-- A batch of two parts is the second part after the first one. -/
theorem execAll_append (db : Database) (first second : List Statement) :
    execAll db (first ++ second) = execAll db first >>= fun middle => execAll middle second := by
  induction first generalizing db with
  | nil => rfl
  | cons statement rest ih =>
      rw [List.cons_append, execAll_cons, execAll_cons]
      cases statement.exec db with
      | error fault => rfl
      | ok next => exact ih next

theorem execAll_append_eq_ok_iff {first second : List Statement} :
    execAll db (first ++ second) = .ok after ↔
      ∃ middle, execAll db first = .ok middle ∧ execAll middle second = .ok after := by
  rw [execAll_append, bind_eq_ok_iff]

end Batch

end Statement

end MessageStore.Relational
