import MessageStore.Proofs.Relational.Views
import MessageStore.Proofs.Store.Adding
import MessageStore.Store.Operation

/-!
# Stores that cannot be told apart

Two stores whose tables of messages look alike, and give the next row the same
position, answer every operation alike and still look alike afterwards.  The
tables may differ in the order of their columns and in what these give to new
rows, since every statement names the columns that it is about, and a new row is
given a cell for each of them.
-/

namespace MessageStore.Store

open Relational (Affinity Cell Column Condition Database Operand Query Row Table View)
open Schema (Laid dataColumns integer layoutColumns messageTable text)

/-! ## Cells that are assigned -/

/-- Assignments of given cells. -/
def assigning (cells : List (String × Cell)) : List (String × Operand) :=
  cells.map fun (name, cell) => (name, .cell cell)

/-- Cells of the classes of the columns of data that they are assigned to. -/
def Preferred (cells : List (String × Cell)) : Prop :=
  ∀ cell ∈ cells, ∃ column ∈ dataColumns 6,
    column.name = cell.1 ∧ cell.2.kind = column.affinity.kind

section Assigning

variable {table : Table} {cells : List (String × Cell)}

/-- A cell of the right class is put in its place as it is. -/
theorem assignOne_eq (laid : Laid 6 table) (row changed : Row) {cell : String × Cell}
    (preferred : ∃ column ∈ dataColumns 6,
      column.name = cell.1 ∧ cell.2.kind = column.affinity.kind) :
    Database.assignOne table row changed (cell.1, .cell cell.2) = changed.put cell.1 cell.2 := by
  obtain ⟨column, member, name, kind⟩ := preferred
  obtain ⟨own, found, _, same⟩ := laid.column? (List.mem_cons_of_mem _ member)
  obtain ⟨ownName, affinity, _⟩ := Column.of_bare_eq same
  rw [name] at found ownName
  rw [← affinity] at kind
  simp only [Database.assignOne, found, Database.operandCell, Affinity.convert_of_kind kind, ownName]

/-- Cells of the right classes are put in their places as they are. -/
theorem assignRow_eq_putAll (laid : Laid 6 table) (preferred : Preferred cells) (row : Row) :
    Database.assignRow table (assigning cells) row = row.putAll cells := by
  -- The row that operands refer to stays while the one that is changed varies.
  have each : ∀ changed : Row,
      (assigning cells).foldl (Database.assignOne table row) changed = changed.putAll cells := by
    induction cells with
    | nil => exact fun _ => rfl
    | cons cell rest ih =>
        intro changed
        have preferredRest : Preferred rest :=
          fun other member => preferred other (List.mem_cons_of_mem cell member)
        change (assigning rest).foldl (Database.assignOne table row)
          (Database.assignOne table row changed (cell.1, .cell cell.2)) =
            (changed.put cell.1 cell.2).putAll rest
        rw [assignOne_eq laid row changed (preferred cell List.mem_cons_self)]
        exact ih preferredRest (changed.put cell.1 cell.2)
  exact each row

/-- A row still fits once it has been given cells of the right classes. -/
theorem fits_putAll (laid : Laid 6 table) (preferred : Preferred cells) {row : Row}
    (fits : row.Fits table) : (row.putAll cells).Fits table := by
  induction cells generalizing row with
  | nil => exact fits
  | cons cell rest ih =>
      obtain ⟨column, member, name, kind⟩ := preferred cell List.mem_cons_self
      obtain ⟨own, _, ownMember, same⟩ := laid.column? (List.mem_cons_of_mem _ member)
      obtain ⟨ownName, affinity, _⟩ := Column.of_bare_eq same
      refine ih (fun other member => preferred other (List.mem_cons_of_mem cell member)) ?_
      apply fits.put
      intro other otherMember sameNames
      rw [← name, ← ownName] at sameNames
      rw [laid.distinct.eq_of_name ownMember (List.mem_filter.mp otherMember).1 sameNames, affinity]
      exact kind

theorem fits_assignRow (laid : Laid 6 table) (preferred : Preferred cells) {row : Row}
    (fits : row.Fits table) : (Database.assignRow table (assigning cells) row).Fits table := by
  rw [assignRow_eq_putAll laid preferred]
  exact fits_putAll laid preferred fits

/-- An update by cells of the right classes leaves a table in the current layout. -/
theorem laid_updated (laid : Laid 6 table) (preferred : Preferred cells)
    (condition : Option Condition) :
    Laid 6 (Database.updated table (assigning cells) condition) := by
  refine { laid with rows := ?_, ordered := ?_ }
  · intro row member
    obtain ⟨old, oldMember, rfl⟩ := List.mem_map.mp member
    have fits := laid.rows old oldMember
    split
    · exact (fits_assignRow laid preferred fits).congr rfl
    · exact fits.congr rfl
  · exact laid.ordered.of_positions (Database.positions_updated _ _ _)

/-- An update by cells of the right classes succeeds. -/
theorem update_eq {db : Database} {condition : Condition}
    (writable : db.writable messageTable = .ok table) (laid : Laid 6 table)
    (preferred : Preferred cells)
    (known : ∀ name ∈ condition.names, ∃ column ∈ layoutColumns 6, column.name = name) :
    db.update messageTable (assigning cells) (some condition) =
      .ok (db.replace (Database.updated table (assigning cells) (some condition))) := by
  have present : ∀ name, (∃ column ∈ layoutColumns 6, column.name = name) →
      (table.column? name).isSome := by
    rintro name ⟨column, member, rfl⟩
    obtain ⟨own, found, _⟩ := laid.column? member
    rw [found]
    rfl
  refine Database.update_eq_ok_iff.mpr ⟨table, writable, ?_, ?_, rfl⟩
  · intro name member
    rcases List.mem_append.mp member with assigned | compared
    · obtain ⟨assignment, assignmentMember, named⟩ := List.mem_flatMap.mp assigned
      obtain ⟨cell, cellMember, rfl⟩ := List.mem_map.mp assignmentMember
      obtain rfl : name = cell.1 := List.mem_singleton.mp named
      obtain ⟨column, columnMember, same, _⟩ := preferred cell cellMember
      exact present _ ⟨column, List.mem_cons_of_mem _ columnMember, same⟩
    · exact present name (known name compared)
  · intro row member _
    exact (fits_assignRow laid preferred (laid.rows row member)).nullViolation?

end Assigning

/-! ## Statements that change messages -/

/-- What an update replaces are cells of the right classes. -/
theorem preferred_editedCells (message : Message) : Preferred (editedCells message) := by
  have kinds : ((editedCells message).map fun cell => (cell.1, cell.2.kind)) =
      [integer "updated", text "message", text "title", integer "priority", text "tags",
        text "click"].map fun column => (column.name, column.affinity.kind) :=
    rfl
  have columns : ∀ column ∈ [integer "updated", text "message", text "title", integer "priority",
      text "tags", text "click"], column ∈ dataColumns 6 := by
    decide
  intro cell member
  have kind : (cell.1, cell.2.kind) ∈
      (editedCells message).map fun cell => (cell.1, cell.2.kind) :=
    List.mem_map_of_mem (f := fun cell : String × Cell => (cell.1, cell.2.kind)) member
  rw [kinds] at kind
  obtain ⟨column, columnMember, same⟩ := List.mem_map.mp kind
  obtain ⟨name, sameKind⟩ := Prod.mk.inj same
  exact ⟨column, columns column columnMember, name, sameKind.symm⟩

theorem preferred_published : Preferred [("published", .integer 1)] := by
  intro cell member
  rw [List.mem_singleton.mp member]
  exact ⟨integer "published", by decide, rfl, rfl⟩

theorem ofMessage_known (topic id : String) :
    ∀ name ∈ (ofMessage topic id).names, ∃ column ∈ layoutColumns 6, column.name = name := by
  change ∀ name ∈ ["topic", "mid"], _
  decide

theorem ofId_known (id : String) :
    ∀ name ∈ (Condition.compare "mid" .equal (.text id)).names,
      ∃ column ∈ layoutColumns 6, column.name = name := by
  change ∀ name ∈ ["mid"], _
  decide

/-- The rows that a prune deletes. -/
def outdated (cutoff : Instant) : Condition :=
  .both (.compare "time" .less (secondCell cutoff.seconds)) Replay.published

theorem outdated_known {table : Table} (laid : Laid 6 table) (cutoff : Instant) :
    ∀ name ∈ (outdated cutoff).names, (table.column? name).isSome := by
  have columns : ∀ name ∈ ["time", "published"], integer name ∈ layoutColumns 6 := by
    decide
  change ∀ name ∈ ["time", "published"], _
  intro name member
  obtain ⟨own, found, _⟩ := laid.column? (columns name member)
  rw [Schema.integer_name] at found
  rw [found]
  rfl

/-- A table in the current layout stays in it when rows are deleted. -/
theorem laid_deleted {table : Table} (laid : Laid 6 table) (condition : Condition) :
    Laid 6 (Database.deleted table condition) :=
  { laid with
    rows := fun row member => (laid.rows row (List.mem_filter.mp member).1).congr rfl
    ordered := laid.ordered.filter _ }

/-- A prune succeeds. -/
theorem prune_eq {db : Database} {table : Table} (writable : db.writable messageTable = .ok table)
    (laid : Laid 6 table) (cutoff : Instant) :
    prune cutoff db = .ok (db.replace (Database.deleted table (outdated cutoff)),
      table.rows.length - (Database.deleted table (outdated cutoff)).rows.length) :=
  congrArg ofEngine (Database.delete_eq writable (outdated_known laid cutoff))

theorem update_of_message {message : Message} (event : message.event = .message) (db : Database) :
    update message db =
      ofEngine (db.update messageTable (assigning (editedCells message))
        (some (ofMessage message.topic message.id))) := by
  unfold update requireMessage
  rw [if_pos event]
  rfl

theorem update_of_other {message : Message} (event : message.event ≠ .message) (db : Database) :
    update message db = .error (.of (.unexpectedEvent message.event)) := by
  unfold update requireMessage
  rw [if_neg event]
  rfl

theorem markPublished_eq (message : Message) (db : Database) :
    markPublished message db =
      ofEngine (db.update messageTable (assigning [("published", .integer 1)])
        (some (.compare "mid" .equal (.text message.id)))) :=
  rfl

/-! ## Tables and stores that look alike -/

/-- Tables of messages in the current layout that look alike and count on from the same
position. -/
structure Twins (first second : Table) : Prop where
  left : Laid 6 first
  right : Laid 6 second
  rows : first.rows.map Row.view = second.rows.map Row.view
  used : first.largestUsed = second.largestUsed

section Tables

variable {first second : Table}

theorem Twins.alike (twins : Twins first second) : first.Alike second where
  name := twins.left.named.trans twins.right.named.symm
  columns := twins.left.columns_agree twins.right
  rows := twins.rows

/-- An update by cells of the right classes keeps tables alike. -/
theorem Twins.updated (twins : Twins first second) {cells : List (String × Cell)}
    (preferred : Preferred cells) (condition : Option Condition) :
    Twins (Database.updated first (assigning cells) condition)
      (Database.updated second (assigning cells) condition) := by
  have left := laid_updated twins.left preferred condition
  have right := laid_updated twins.right preferred condition
  exact ⟨left, right, (twins.alike.updated (assigning cells) condition).rows, twins.used⟩

/-- Deleting keeps tables alike, and deletes the same number of rows. -/
theorem Twins.deleted (twins : Twins first second) (condition : Condition) :
    Twins (Database.deleted first condition) (Database.deleted second condition) ∧
      first.rows.length - (Database.deleted first condition).rows.length =
        second.rows.length - (Database.deleted second condition).rows.length := by
  have kept : (Database.deleted first condition).rows.map Row.view =
      (Database.deleted second condition).rows.map Row.view := by
    apply Relational.filter_of_same_view twins.rows
    intro row other same
    rw [twins.alike.holds same condition]
  refine ⟨⟨laid_deleted twins.left _, laid_deleted twins.right _, kept, twins.used⟩, ?_⟩
  have lengths := congrArg List.length twins.rows
  have keptLengths := congrArg List.length kept
  rw [List.length_map, List.length_map] at lengths keptLengths
  rw [lengths, keptLengths]

/-- Twins give the next row the same position. -/
theorem Twins.nextPosition? (twins : Twins first second) :
    first.nextPosition? = second.nextPosition? := by
  have positions : first.rows.map (·.position) = second.rows.map (·.position) :=
    Relational.map_of_same_view twins.rows fun _ _ same => (View.mk.inj same).1
  exact Table.nextPosition?_of_largestUsed positions twins.right.recorded twins.left.recorded
    twins.used

/-- A message that is added keeps tables alike. -/
theorem Twins.withRow (twins : Twins first second) {position : Int64}
    (next : first.nextPosition? = some position) (message : Message) (published : Bool) :
    Twins (first.withRow (first.newRow (newRow message published) position))
      (second.withRow (second.newRow (newRow message published) position)) := by
  have otherNext := twins.nextPosition?.symm.trans next
  have sameView : (first.newRow (newRow message published) position).view =
      (second.newRow (newRow message published) position).view := by
    unfold Row.view
    congr 1
    funext name
    exact (lookup_newRow message published twins.left name).trans
      (lookup_newRow message published twins.right name).symm
  have rows := Table.withRow_newRow_rows next (newRow message published)
  have otherRows := Table.withRow_newRow_rows otherNext (newRow message published)
  refine ⟨laid_withRow message published twins.left next,
    laid_withRow message published twins.right otherNext, ?_, ?_⟩
  · rw [rows, otherRows, List.map_append, List.map_append, twins.rows, List.map_singleton,
      List.map_singleton, sameView]
  · rw [Table.largestUsed_withRow twins.left.recorded, Table.largestUsed_withRow
      twins.right.recorded, twins.used]
    rfl

end Tables

/-- Stores whose tables of messages are twins. -/
def TwinStores (first second : Database) : Prop :=
  ∃ left right, first.writable messageTable = .ok left ∧
    second.writable messageTable = .ok right ∧ Twins left right

/-- Outcomes that cannot be told apart, now or later. -/
structure Agree (first second : Outcome) : Prop where
  answer : first.answer = second.answer
  log : first.log = second.log
  stores : TwinStores first.db second.db

section Stores

variable {first second : Database}

/-- Twins in the places of twins make twin stores. -/
theorem twinStores_replace {left right leftAfter rightAfter : Table}
    (leftWritable : first.writable messageTable = .ok left)
    (rightWritable : second.writable messageTable = .ok right) (twins : Twins left right)
    (after : Twins leftAfter rightAfter) :
    TwinStores (first.replace leftAfter) (second.replace rightAfter) := by
  refine ⟨leftAfter, rightAfter, ?_, ?_, after⟩
  · exact Database.writable_replace_self leftWritable
      (after.left.named.trans twins.left.named.symm)
  · exact Database.writable_replace_self rightWritable
      (after.right.named.trans twins.right.named.symm)

/-- Queries of the messages have the same results on twin stores. -/
theorem TwinStores.run (twins : TwinStores first second) (query : Query)
    (messages : query.table = messageTable) : query.run first = query.run second := by
  obtain ⟨left, right, leftWritable, rightWritable, tables⟩ := twins
  have found := (Database.writable_eq_ok_iff.mp leftWritable).2
  have otherFound := (Database.writable_eq_ok_iff.mp rightWritable).2
  rw [← messages] at found otherFound
  exact tables.alike.run found otherFound

theorem TwinStores.select (twins : TwinStores first second) (condition : Condition)
    (limit : Option Nat) : select first condition limit = select second condition limit := by
  unfold Store.select
  rw [twins.run _ rfl]

theorem TwinStores.position? (twins : TwinStores first second) (topic : String) :
    position? first topic = position? second topic := by
  funext id
  unfold Store.position?
  rw [twins.run _ rfl]

/-- Stores that are only read stay alike. -/
theorem TwinStores.read {α : Type} (twins : TwinStores first second) (wrap : α → Answer)
    {result otherResult : Except Error α} (same : result = otherResult) :
    Agree (.read first wrap result) (.read second wrap otherResult) := by
  rw [same]
  exact ⟨rfl, rfl, twins⟩

theorem TwinStores.messages (twins : TwinStores first second) (topic : String) (since : Since)
    (scheduled : Bool) :
    messages topic since scheduled first = messages topic since scheduled second := by
  unfold Store.messages
  simp only [twins.position?, twins.select]

/-- A message is added alike. -/
theorem TwinStores.add (twins : TwinStores first second) (now : Instant) (message : Message) :
    Agree (.write first (add now message first)) (.write second (add now message second)) := by
  obtain ⟨left, right, leftWritable, rightWritable, tables⟩ := id twins
  by_cases event : message.event = .message
  · rw [add_eq event leftWritable tables.left, add_eq event rightWritable tables.right,
      ← tables.nextPosition?]
    cases next : left.nextPosition? with
    | none => exact ⟨rfl, rfl, twins⟩
    | some position =>
        have after := tables.withRow next message (message.isDue now.seconds)
        exact ⟨rfl, rfl, twinStores_replace leftWritable rightWritable tables after⟩
  · have refused (db : Database) :
        Store.add now message db = .error (.of (.unexpectedEvent message.event)) := by
      unfold Store.add requireMessage
      rw [if_neg event]
      rfl
    rw [refused, refused]
    exact ⟨rfl, rfl, twins⟩

/-- Cells of the right classes are assigned alike. -/
theorem TwinStores.assign (twins : TwinStores first second) {cells : List (String × Cell)}
    {condition : Condition} (preferred : Preferred cells)
    (known : ∀ name ∈ condition.names, ∃ column ∈ layoutColumns 6, column.name = name) :
    Agree
      (.write first
        (ofEngine (first.update messageTable (assigning cells) (some condition))))
      (.write second
        (ofEngine (second.update messageTable (assigning cells) (some condition)))) := by
  obtain ⟨left, right, leftWritable, rightWritable, tables⟩ := twins
  rw [update_eq leftWritable tables.left preferred known,
    update_eq rightWritable tables.right preferred known]
  exact ⟨rfl, rfl, twinStores_replace leftWritable rightWritable tables
    (tables.updated preferred (some condition))⟩

/-- A message is updated alike. -/
theorem TwinStores.update (twins : TwinStores first second) (message : Message) :
    Agree (.write first (update message first)) (.write second (update message second)) := by
  by_cases event : message.event = .message
  · rw [update_of_message event, update_of_message event]
    exact twins.assign (preferred_editedCells message) (ofMessage_known _ _)
  · rw [update_of_other event, update_of_other event]
    exact ⟨rfl, rfl, twins⟩

/-- Messages are marked as published alike. -/
theorem TwinStores.markPublished (twins : TwinStores first second) (message : Message) :
    Agree (.write first (markPublished message first))
      (.write second (markPublished message second)) := by
  rw [markPublished_eq, markPublished_eq]
  exact twins.assign preferred_published (ofId_known _)

/-- Messages are pruned alike. -/
theorem TwinStores.prune (twins : TwinStores first second) (now : Instant) (cutoff : Instant) :
    Agree (perform now first (.prune cutoff)) (perform now second (.prune cutoff)) := by
  obtain ⟨left, right, leftWritable, rightWritable, tables⟩ := twins
  obtain ⟨after, number⟩ := tables.deleted (outdated cutoff)
  simp only [Store.perform, prune_eq leftWritable tables.left, prune_eq rightWritable tables.right]
  refine ⟨rfl, ?_, twinStores_replace leftWritable rightWritable tables after⟩
  exact congrArg (fun number => [Store.pruned number cutoff]) number

/-- Twin stores answer every operation alike, report alike, and stay twins. -/
theorem TwinStores.perform (twins : TwinStores first second) (now : Instant)
    (operation : Operation) :
    Agree (perform now first operation) (perform now second operation) := by
  cases operation with
  | add message => exact twins.add now message
  | update message => exact twins.update message
  | messages topic since scheduled =>
      exact twins.read .messages (twins.messages topic since scheduled)
  | message topic id =>
      apply twins.read
      unfold message
      rw [twins.select]
  | due =>
      apply twins.read
      exact twins.select _ none
  | markPublished message => exact twins.markPublished message
  | count topic =>
      apply twins.read
      unfold count
      rw [twins.run _ rfl]
  | topics =>
      apply twins.read
      unfold topics
      rw [twins.run _ rfl]
  | prune cutoff => exact twins.prune now cutoff
  | attachmentsSize owner =>
      apply twins.read
      unfold attachmentsSize
      rw [twins.run _ rfl]
  | attachmentsExpired =>
      apply twins.read
      unfold attachmentsExpired
      rw [twins.run _ rfl]

end Stores

/-! ## Runs -/

/-- What a store answers and reports to operations that are carried out at given times one after
another. -/
def answers (db : Database) :
    List (Instant × Operation) → List (Except Error Answer × List Log.Record)
  | [] => []
  | (now, operation) :: rest =>
      let outcome := perform now db operation
      (outcome.answer, outcome.log) :: answers outcome.db rest

/-- Twin stores give the same answers to all operations. -/
theorem TwinStores.answers {first second : Database} (twins : TwinStores first second)
    (operations : List (Instant × Operation)) :
    Store.answers first operations = Store.answers second operations := by
  induction operations generalizing first second with
  | nil => rfl
  | cons operation rest ih =>
      obtain ⟨now, operation⟩ := operation
      have agree := twins.perform now operation
      simp only [Store.answers]
      rw [agree.answer, agree.log, ih agree.stores]

end MessageStore.Store
