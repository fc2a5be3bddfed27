import Mathlib.Data.List.Pairwise
import MessageStore.Proofs.Relational.Frame

/-!
# Tables that are told apart by their names

No two tables of a database have the same name, letter case apart.  Statements
keep this, so a name stands for one table only, and a table that takes its own
place changes nothing.  A table that is renamed needs a name that is free, as
one is that has been dropped.
-/

namespace MessageStore.Relational

/-- A database in which no two tables have the same name. -/
def Database.Apart (db : Database) : Prop :=
  (db.tables.map (·.name)).Pairwise fun first second => sameName first second = false

namespace Database

variable {db after : Database}

theorem Apart.congr (apart : db.Apart)
    (same : after.tables.map (·.name) = db.tables.map (·.name)) : after.Apart := by
  unfold Apart
  rw [same]
  exact apart

/-- Tables whose names are the same are the same. -/
theorem Apart.eq_of_sameName (apart : db.Apart) {first second : Table}
    (member : first ∈ db.tables) (otherMember : second ∈ db.tables)
    (same : sameName first.name second.name = true) : first = second := by
  refine Decidable.byContradiction fun unequal => ?_
  have symmetric :
      Std.Symm fun first second : Table => sameName first.name second.name = false :=
    ⟨fun first second different => (sameName_comm second.name first.name).trans different⟩
  have different := (List.pairwise_map.mp apart).forall member otherMember unequal
  rw [same] at different
  cases different

/-- A table is found under its name in any spelling. -/
theorem Apart.table?_of_tableNamed? (apart : db.Apart) {name : String} {table : Table}
    (found : db.tableNamed? name = some table) :
    table.name = name ∧ db.table? name = some table := by
  have named : table.name = name := by simpa using List.find?_some found
  refine ⟨named, ?_⟩
  rw [table?_eq_tableNamed? fun other member same => ?_]
  · exact found
  · rw [← named] at same ⊢
    rw [apart.eq_of_sameName member (List.mem_of_find?_eq_some found) same]

/-- A table that takes its own place changes nothing. -/
theorem Apart.replace_eq_self (apart : db.Apart) {name : String} {table : Table}
    (found : db.table? name = some table) : db.replace table = db := by
  have member : table ∈ db.tables := List.mem_of_find?_eq_some found
  have each : ∀ old ∈ db.tables, (if old.name = table.name then table else old) = id old := by
    intro old oldMember
    split
    · rename_i same
      exact (apart.eq_of_sameName oldMember member (same ▸ sameName_self _)).symm
    · rfl
  unfold replace
  rw [List.map_congr_left each, List.map_id]

/-- A table that is created has a name that was free. -/
theorem Apart.createTable (apart : db.Apart) {name : String} {columns : List Column}
    {numbering : Numbering} {mayStay : Bool}
    (created : db.createTable name columns numbering mayStay = .ok after) : after.Apart := by
  rcases createTable_eq_ok_iff.mp created with ⟨_, _, rfl⟩ | ⟨free, _, _, rfl⟩
  · exact apart
  · unfold Apart
    rw [List.map_append, List.pairwise_append]
    refine ⟨apart, List.pairwise_singleton _ _, ?_⟩
    intro first member second otherMember
    obtain ⟨table, present, rfl⟩ := List.mem_map.mp member
    rw [List.mem_singleton.mp otherMember]
    simpa using List.find?_eq_none.mp free table present

/-- A name is free once its table has been dropped. -/
theorem Apart.dropTable (apart : db.Apart) {name : String}
    (dropped : db.dropTable name = .ok after) : after.Apart ∧ after.table? name = none := by
  obtain ⟨table, writable, rfl⟩ := dropTable_eq_ok_iff.mp dropped
  obtain ⟨member, spelling⟩ := of_table? (writable_eq_ok_iff.mp writable).2
  constructor
  · exact apart.sublist (List.filter_sublist.map _)
  · refine List.find?_eq_none.mpr fun other otherMember same => ?_
    obtain ⟨present, differs⟩ := List.mem_filter.mp otherMember
    rw [sameName_comm] at spelling
    have named : other = table :=
      apart.eq_of_sameName present member (sameName_trans same spelling)
    simp [named] at differs

/-- A table may be renamed to a name that is free. -/
theorem Apart.renameTable (apart : db.Apart) {name newName : String}
    (free : db.table? newName = none) (renamed : db.renameTable name newName = .ok after) :
    after.Apart := by
  obtain ⟨table, writable, rfl⟩ := renameTable_eq_ok_iff.mp renamed
  have member := (of_table? (writable_eq_ok_iff.mp writable).2).1
  have differs (other : Table) (present : other ∈ db.tables) :
      sameName other.name newName = false := by
    simpa using List.find?_eq_none.mp free other present
  refine List.pairwise_map.mpr (List.pairwise_map.mpr ?_)
  have pairs := List.pairwise_map.mp apart
  refine pairs.imp_of_mem fun {first second} present otherPresent different => ?_
  split <;> split
  · -- Of two tables of one name, neither would differ from the other.
    rename_i same otherSame
    rw [same, otherSame, sameName_self] at different
    cases different
  · rw [sameName_comm]
    exact differs second otherPresent
  · exact differs first present
  · exact different

end Database

namespace Statement

variable {db after : Database} {statement : Statement} {statements : List Statement}

/-- A statement that takes no name away keeps tables apart. -/
theorem exec_apart (done : statement.exec db = .ok after) (kept : statement.removed = [])
    (apart : db.Apart) : after.Apart := by
  cases statement with
  | createTable _ _ _ _ => exact apart.createTable done
  | createIndex _ _ =>
      refine apart.congr ?_
      rw [Database.createIndex_frame done]
  | addColumn _ _ =>
      obtain ⟨_, _, _, rfl⟩ := Database.addColumn_eq_ok_iff.mp done
      exact apart.congr (Database.replace_names _ _)
  | insert _ _ =>
      obtain ⟨_, _, _, _, _, rfl⟩ := Database.insertAt_eq_ok_iff.mp done
      exact apart.congr (Database.replace_names _ _)
  | copyRows _ _ _ =>
      obtain ⟨_, _, _, _, _, _, _, rfl⟩ := Database.copyRows_eq_ok_iff.mp done
      exact apart.congr (Database.replace_names _ _)
  | update _ _ _ =>
      obtain ⟨_, _, _, _, rfl⟩ := Database.update_eq_ok_iff.mp done
      exact apart.congr (Database.replace_names _ _)
  | dropTable _ => cases kept
  | renameTable _ _ => cases kept

/-- A batch that takes no name away keeps tables apart. -/
theorem execAll_apart (done : execAll db statements = .ok after)
    (kept : statements.flatMap removed = []) (apart : db.Apart) : after.Apart := by
  induction statements generalizing db with
  | nil =>
      cases done
      exact apart
  | cons statement rest ih =>
      obtain ⟨next, first, done⟩ := bind_eq_ok_iff.mp done
      rw [List.flatMap_cons, List.append_eq_nil_iff] at kept
      exact ih done kept.2 (exec_apart first kept.1 apart)

end Statement

end MessageStore.Relational
