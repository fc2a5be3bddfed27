import MessageStore.Proofs.Relational.Copies
import MessageStore.Proofs.Schema.Layouts
import MessageStore.Store.Basic

/-!
# Messages that are added

The row of a message gives every column of the current layout a cell of its
class, whatever the order of the columns.  So a message is added to a table in
this layout unless the last position has been used, and it comes behind all
others.
-/

namespace MessageStore.Store

open Relational (Affinity Cell Column Database Table givenCell givenCell_of_mem lookup_of_mem
  sameName sameName_self)
open Schema (Laid dataColumns layoutColumns layoutColumns_distinct messageTable)

section Given

variable (message : Message) (published : Bool)

/-- The row of a message has a cell for each column of data, of the class of the column. -/
theorem newRow_kinds :
    ((newRow message published).map fun cell => (cell.1, cell.2.kind)) =
      (dataColumns 6).map fun column => (column.name, column.affinity.kind) :=
  rfl

theorem newRow_names :
    (newRow message published).map Prod.fst = (dataColumns 6).map (·.name) :=
  rfl

/-- A cell of the row of a message has the name of a column. -/
theorem newRow_named {cell : String × Cell} (member : cell ∈ newRow message published) :
    ∃ column ∈ dataColumns 6, column.name = cell.1 := by
  have named : cell.1 ∈ (dataColumns 6).map (·.name) := by
    rw [← newRow_names message published]
    exact List.mem_map_of_mem member
  exact List.mem_map.mp named

theorem dataColumns_data : ∀ column ∈ dataColumns 6, column.key ≠ .position := by
  decide

theorem newRow_distinct :
    (newRow message published).Pairwise fun first second => sameName first.1 second.1 = false := by
  have distinct := layoutColumns_distinct (by decide : 6 ≤ Schema.currentVersion)
  have data : ((dataColumns 6).map (·.name)).Pairwise fun first second =>
      sameName first second = false :=
    List.pairwise_map.mpr (List.pairwise_cons.mp distinct).2
  rw [← newRow_names message published] at data
  exact List.pairwise_map.mp data

variable {table : Table}

/-- The row of a message has a cell of the right class for each column of data of a table in the
current layout. -/
theorem exists_given (laid : Laid 6 table) {own : Column} (member : own ∈ table.dataColumns) :
    ∃ cell, (own.name, cell) ∈ newRow message published ∧ cell.kind = own.affinity.kind := by
  obtain ⟨column, columnMember, data, same⟩ := laid.exists_dataColumn member
  obtain ⟨sameNames, sameAffinity, _⟩ := Column.of_bare_eq same
  have dataMember : column ∈ dataColumns 6 := by
    rcases List.mem_cons.mp columnMember with rfl | member
    · exact absurd rfl data
    · exact member
  have kinds : (column.name, column.affinity.kind) ∈
      (newRow message published).map fun cell => (cell.1, cell.2.kind) := by
    rw [newRow_kinds]
    exact List.mem_map_of_mem dataMember
  obtain ⟨⟨name, cell⟩, given, equal⟩ := List.mem_map.mp kinds
  obtain ⟨rfl, kind⟩ := Prod.mk.inj equal
  exact ⟨cell, by rw [← sameNames]; exact given, by rw [← sameAffinity]; exact kind⟩

theorem givenCell_newRow_kind (laid : Laid 6 table) :
    ∀ own ∈ table.dataColumns,
      (givenCell (newRow message published) own).kind = own.affinity.kind := by
  intro own member
  obtain ⟨cell, given, kind⟩ := exists_given message published laid member
  rw [givenCell_of_mem (newRow_distinct message published) given]
  exact kind

theorem newRow_nodup : ((newRow message published).map Prod.fst).Nodup := by
  refine List.pairwise_map.mpr ((newRow_distinct message published).imp ?_)
  intro first second different equal
  rw [equal, sameName_self] at different
  cases different

/-- A new row of a table in the current layout holds what the row of the message holds. -/
theorem lookup_newRow (laid : Laid 6 table) (name : String) :
    (table.newCells (newRow message published)).lookup name =
      (newRow message published).lookup name := by
  by_cases named : ∃ own ∈ table.dataColumns, own.name = name
  · obtain ⟨own, member, rfl⟩ := named
    obtain ⟨cell, given, kind⟩ := exists_given message published laid member
    rw [Table.lookup_newCells laid.distinct member,
      givenCell_of_mem (newRow_distinct message published) given, Affinity.convert_of_kind kind,
      lookup_of_mem (newRow_nodup message published) given]
  · have absent : (table.newCells (newRow message published)).lookup name = none := by
      rw [List.lookup_eq_none_iff]
      intro cell member
      have inNames : cell.1 ∈ table.dataColumns.map (·.name) := by
        rw [← Table.newCells_names]
        exact List.mem_map_of_mem member
      obtain ⟨own, ownMember, same⟩ := List.mem_map.mp inNames
      rw [bne_iff_ne]
      rintro rfl
      exact named ⟨own, ownMember, same⟩
    have notGiven : (newRow message published).lookup name = none := by
      rw [List.lookup_eq_none_iff]
      intro cell member
      rw [bne_iff_ne]
      rintro rfl
      obtain ⟨column, columnMember, same⟩ := newRow_named message published member
      obtain ⟨own, ownMember, agree⟩ := laid.exists_own (List.mem_cons_of_mem _ columnMember)
        (dataColumns_data column columnMember)
      exact named ⟨own, ownMember, (Column.of_bare_eq agree).1.trans same⟩
    rw [absent, notGiven]

/-- The columns of the current layout are those of a new row. -/
theorem newRow_known (laid : Laid 6 table) :
    ∀ cell ∈ newRow message published, (table.column? cell.1).isSome := by
  intro cell member
  obtain ⟨column, columnMember, same⟩ := newRow_named message published member
  obtain ⟨own, found, _⟩ := laid.column? (List.mem_cons_of_mem _ columnMember)
  rw [← same, found]
  rfl

/-- The row of a message joins a table in the current layout, unless the last position has been
used. -/
theorem insert_newRow (laid : Laid 6 table) :
    table.insert none (newRow message published) =
      match table.nextPosition? with
      | none => .error .full
      | some position =>
          .ok (table.withRow (table.newRow (newRow message published) position)) := by
  have repeatable : ∀ own ∈ table.columns, own.key ≠ .unique := by
    have keys : ∀ column ∈ layoutColumns 6, column.key ≠ .unique := by
      decide
    intro own member
    obtain ⟨column, columnMember, same⟩ := laid.exists_column member
    rw [← (Column.of_bare_eq same).2.2]
    exact keys column columnMember
  exact Table.insert_of_preferred laid.distinct repeatable
    (givenCell_newRow_kind message published laid)

/-- The row of a message leaves a table in the current layout. -/
theorem laid_withRow (laid : Laid 6 table) {position : Int64}
    (next : table.nextPosition? = some position) :
    Laid 6 (table.withRow (table.newRow (newRow message published) position)) := by
  have last := Table.lt_nextPosition next
  have rows := Table.withRow_newRow_rows next (newRow message published)
  refine { laid with rows := ?_, ordered := ?_, numbered := ?_ }
  · intro row member
    rw [rows] at member
    rcases List.mem_append.mp member with old | new
    · exact (laid.rows row old).congr rfl
    · have kinds := givenCell_newRow_kind message published laid
      have fits : (table.newRow (newRow message published) position).Fits table :=
        Table.fits_newCells laid.distinct kinds
      rw [List.mem_singleton.mp new]
      exact fits.congr rfl
  · exact Table.Ordered.withRow laid.ordered last
  · rw [← laid.numbered]
    unfold Table.withRow
    cases table.numbering <;> simp [Table.Numbering.use]

end Given

/-- A message is added to a table in the current layout behind all other rows, unless the last
position has been used. -/
theorem add_eq {now : Instant} {message : Message} {db : Database} {table : Table}
    (event : message.event = .message) (writable : db.writable messageTable = .ok table)
    (laid : Laid 6 table) :
    add now message db =
      match table.nextPosition? with
      | none => .error (.of (.engine .full))
      | some position => .ok (db.replace (table.withRow
          (table.newRow (newRow message (message.isDue now.seconds)) position))) := by
  have inserted : db.insert messageTable (newRow message (message.isDue now.seconds)) =
      (table.insert none (newRow message (message.isDue now.seconds))).map db.replace :=
    Database.insertAt_eq writable (newRow_known message _ laid)
  unfold add requireMessage
  rw [if_pos event, inserted, insert_newRow message _ laid]
  cases table.nextPosition? with
  | none => rfl
  | some position => rfl

end MessageStore.Store
