import MessageStore.Proofs.Schema.Layouts
import MessageStore.Proofs.Store.Queries

/-!
# Stores in the current layout, whatever their rows hold

What is read from any store whose table of messages has the columns of the current
layout, in whatever order.  Nothing is assumed of the cells of its rows: a query
selects rows by how these cells compare, and returns what is read from them in the
order of their times, whatever these are, and then of their positions.
-/

namespace MessageStore.Store

open Relational (Cell Column Condition Database Query Row Table Test)
open Schema (layoutColumns messageTable)

/-- A store whose table of messages has the columns of the current layout, in some order. -/
structure Framed (db : Database) (table : Table) : Prop where
  found : db.table? messageTable = some table
  columns : (table.columns.map Column.bare).Perm ((layoutColumns 6).map Column.bare)
  ordered : table.Ordered

theorem exists_readColumn {name : String} (member : name ∈ readColumns) :
    ∃ column ∈ layoutColumns 6, column.key ≠ .position ∧ column.name = name := by
  revert name
  decide

namespace Framed

variable {db : Database} {table : Table}

theorem messageRows_eq (framed : Framed db table) : messageRows db = table.rows := by
  rw [messageRows, framed.found]
  rfl

theorem column? (framed : Framed db table) {column : Column} (member : column ∈ layoutColumns 6) :
    ∃ own, table.column? column.name = some own ∧ own.bare = column.bare := by
  obtain ⟨own, found, -, same⟩ := Table.column?_of_perm framed.columns
    (Schema.layoutColumns_distinct (by decide)) member
  exact ⟨own, found, same⟩

/-- A column of data shows the cell that a row has under its name. -/
theorem exists_data (framed : Framed db table) {column : Column} (member : column ∈ layoutColumns 6)
    (data : column.key ≠ .position) (row : Row) :
    ∃ own, table.column? column.name = some own ∧ own.name = column.name ∧
      own.affinity = column.affinity ∧ row.cell own = cellUnder column.name row := by
  obtain ⟨own, found, same⟩ := framed.column? member
  obtain ⟨name, affinity, key⟩ := Column.of_bare_eq same
  refine ⟨own, found, name, affinity, ?_⟩
  rw [Row.cell, key, if_neg data, name, cellUnder]

/-- The column of positions shows the position of a row. -/
theorem exists_position (framed : Framed db table) (row : Row) :
    ∃ own, table.column? "id" = some own ∧ own.name = "id" ∧ own.affinity = .integer ∧
      row.cell own = .integer row.position := by
  obtain ⟨own, found, same⟩ := framed.column? (by decide : Schema.position ∈ layoutColumns 6)
  obtain ⟨name, affinity, key⟩ := Column.of_bare_eq same
  exact ⟨own, found, name, affinity, if_pos key⟩

/-! ### What queries show -/

theorem project_data (framed : Framed db table) {column : Column} (member : column ∈ layoutColumns 6)
    (data : column.key ≠ .position) (row : Row) :
    Query.project table [column.name] row = [(column.name, cellUnder column.name row)] := by
  obtain ⟨own, found, name, -, shown⟩ := framed.exists_data member data row
  simp [Query.project, found, name, shown]

theorem project_position (framed : Framed db table) (row : Row) :
    Query.project table ["id"] row = [("id", .integer row.position)] := by
  obtain ⟨own, found, name, -, shown⟩ := framed.exists_position row
  simp [Query.project, found, name, shown]

/-- The columns of a message show the cells under their names. -/
theorem project_eq (framed : Framed db table) (row : Row) :
    Query.project table readColumns row = Current.named row := by
  have each : ∀ name ∈ readColumns,
      ((table.column? name).map fun column => (column.name, row.cell column)) =
        some (name, (row.cells.lookup name).getD .null) := by
    intro name member
    obtain ⟨column, columnMember, data, rfl⟩ := exists_readColumn member
    obtain ⟨own, found, name, -, shown⟩ := framed.exists_data columnMember data row
    rw [found, Option.map_some, name, shown, cellUnder]
  exact List.filterMap_eq_map_iff_forall_eq_some.mpr each

/-- A query of messages by columns of messages has a result. -/
theorem run_eq (framed : Framed db table) {query : Query} (messages : query.table = messageTable)
    (known : ∀ name ∈ query.names, ∃ column ∈ layoutColumns 6, column.name = name) :
    query.run db = .ok ((query.rows table).map (Query.project table query.columns)) := by
  have required : Database.requireColumns table query.names = .ok () := by
    apply Database.requireColumns_eq_ok_iff.mpr
    intro name member
    obtain ⟨column, columnMember, rfl⟩ := known name member
    obtain ⟨own, ownFound, _⟩ := framed.column? columnMember
    rw [ownFound]
    rfl
  have readable : db.readable query.table = .ok table := by
    rw [messages, Database.readable_eq_ok_iff, framed.found]
  unfold Query.run
  rw [readable]
  change (Database.requireColumns table query.names >>= fun _ => _) = _
  rw [required]
  rfl

/-! ### What conditions say of rows -/

section Conditions

variable (framed : Framed db table) {row : Row}
include framed

theorem holds_data {column : Column} (member : column ∈ layoutColumns 6)
    (data : column.key ≠ .position) (row : Row) (test : Test) (operand : Cell) :
    Condition.holds table row (.compare column.name test operand) =
      Condition.cellHolds column.affinity test (cellUnder column.name row) operand := by
  obtain ⟨own, found, -, affinity, shown⟩ := framed.exists_data member data row
  unfold Condition.holds
  simp only [found, affinity, shown]

theorem holds_integer {name : String} (member : Schema.integer name ∈ layoutColumns 6) (row : Row)
    (test : Test) (value : Int64) :
    Condition.holds table row (.compare name test (.integer value)) =
      decide (Compares name test value row) := by
  refine (framed.holds_data member nofun row test _).trans ?_
  rw [Bool.eq_iff_iff, decide_eq_true_eq, Compares]
  simp [Condition.cellHolds, Schema.integer]

theorem holds_position (row : Row) (test : Test) (position : Int64) :
    Condition.holds table row (.compare "id" test (.integer position)) =
      test.ofInts row.position.toInt position.toInt := by
  obtain ⟨own, found, -, affinity, shown⟩ := framed.exists_position row
  unfold Condition.holds
  simp only [found, affinity, shown]
  exact test.holds_orderInt _ _

/-- A row meets the condition that a column of texts holds a text if it has the text there. -/
theorem holds_text {name : String} (member : Schema.text name ∈ layoutColumns 6) (row : Row)
    (text : String) :
    Condition.holds table row (.compare name .equal (.text text)) =
      decide (row.cells.lookup name = some (.text text)) := by
  refine (framed.holds_data member nofun row .equal _).trans ?_
  change Condition.cellHolds .text .equal ((row.cells.lookup name).getD .null) _ = _
  cases stored : row.cells.lookup name with
  | none => rfl
  | some cell =>
      cases cell with
      | text own => simp [Condition.cellHolds_text]
      | _ => rfl

theorem holds_topic (row : Row) (topic : String) :
    Condition.holds table row (.compare "topic" .equal (.text topic)) =
      decide (OfTopic topic row) :=
  framed.holds_text (by decide) row topic

/-- A row meets the condition of a lookup if it has the topic and the ID. -/
theorem holds_ofMessage (row : Row) (topic id : String) :
    Condition.holds table row (ofMessage topic id) = decide (OfTopic topic row ∧ OfId id row) := by
  have named : Condition.holds table row (.compare "mid" .equal (.text id)) =
      decide (OfId id row) := framed.holds_text (by decide) row id
  rw [ofMessage, Condition.holds, framed.holds_topic, named, Bool.decide_and]

theorem holds_published (row : Row) :
    Condition.holds table row Replay.published = decide (Compares "published" .equal 1 row) :=
  framed.holds_integer (by decide) row .equal 1

theorem holds_unpublished (row : Row) :
    Condition.holds table row Replay.unpublished = decide (Compares "published" .equal 0 row) :=
  framed.holds_integer (by decide) row .equal 0

/-- The condition of a replay from a second on. -/
theorem holds_fromSecond (row : Row) {topic : String} {second : Int64} {scheduled : Bool}
    {condition : Condition}
    (replay : (Replay.fromSecond second scheduled).condition? topic = some condition) :
    Condition.holds table row condition =
      decide (OfTopic topic row ∧ Compares "time" .atLeast second row ∧
        (scheduled = true ∨ Compares "published" .equal 1 row)) := by
  have late := framed.holds_integer (by decide : Schema.integer "time" ∈ layoutColumns 6) row
    .atLeast second
  cases replay
  rw [Replay.ofTopic, Condition.holds, framed.holds_topic]
  cases scheduled with
  | true =>
      rw [if_pos rfl, late]
      simp
  | false =>
      rw [if_neg Bool.false_ne_true, Condition.holds, late, framed.holds_published]
      simp

/-- The condition of a replay behind a position. -/
theorem holds_behind (row : Row) {topic : String} {position : Int64} {scheduled : Bool}
    {condition : Condition}
    (replay : (Replay.behind position scheduled).condition? topic = some condition) :
    Condition.holds table row condition =
      decide (OfTopic topic row ∧
        (position < row.position ∨ Compares "published" .equal 0 row) ∧
        (scheduled = true ∨ Compares "published" .equal 1 row)) := by
  cases replay
  rw [Replay.ofTopic, Condition.holds, framed.holds_topic]
  cases scheduled with
  | true =>
      rw [if_pos rfl, Condition.holds, framed.holds_position, framed.holds_unpublished]
      simp [Test.ofInts, Int64.lt_iff_toInt_lt]
  | false =>
      have exclusive : Compares "published" .equal 1 row → ¬ Compares "published" .equal 0 row :=
        fun published scheduled => absurd (published.equal_unique scheduled) (by decide)
      rw [if_neg Bool.false_ne_true, Condition.holds, framed.holds_position,
        framed.holds_published]
      simp only [Test.ofInts, Int64.lt_iff_toInt_lt, Bool.false_eq_true, false_or]
      grind

theorem holds_awaiting (row : Row) (now : Instant) :
    Condition.holds table row (awaiting now) =
      decide (Compares "time" .atMost (Int64.ofInt now.seconds) row ∧
        Compares "published" .equal 0 row) := by
  have late := framed.holds_integer (by decide : Schema.integer "time" ∈ layoutColumns 6) row
    .atMost (Int64.ofInt now.seconds)
  rw [awaiting, secondCell, Condition.holds, late, framed.holds_unpublished, Bool.decide_and]

end Conditions

/-! ### What queries select -/

section Selections

variable (framed : Framed db table) (condition : Condition)
include framed

/-- A row that may stand before another one in the order of replays does, unless it has the same
position. -/
theorem precedes_of_precedes {first second : Row}
    (may : Query.precedes table replayOrder first second = true)
    (apart : first.position ≠ second.position) : Precedes first second := by
  have keys (row : Row) : (Query.project table replayOrder row).map Prod.snd =
      [cellUnder "time" row, .integer row.position] := by
    obtain ⟨time, timeFound, -, -, timeShown⟩ :=
      framed.exists_data (by decide : Schema.integer "time" ∈ layoutColumns 6) nofun row
    obtain ⟨position, positionFound, -, -, positionShown⟩ := framed.exists_position row
    change table.column? "time" = some time at timeFound
    change row.cell time = cellUnder "time" row at timeShown
    simp [Query.project, replayOrder, timeFound, timeShown, positionFound, positionShown]
  unfold Query.precedes at may
  rw [keys, keys] at may
  change (((cellUnder "time" first).order (cellUnder "time" second)).then
    ((Cell.orderInt first.position.toInt second.position.toInt).then .eq) != .gt) = true at may
  unfold Precedes
  cases order : (cellUnder "time" first).order (cellUnder "time" second) with
  | lt => exact .inl rfl
  | gt =>
      rw [order] at may
      cases may
  | eq =>
      rw [order, Ordering.then, Cell.orderInt_then, decide_eq_true_eq] at may
      refine .inr ⟨rfl, ?_⟩
      rw [Int64.lt_iff_toInt_lt]
      exact may.resolve_right fun same => apart (Int64.toInt_inj.mp same.1)

/-- A query for messages selects the rows that meet its condition. -/
theorem perm_chosenRows :
    (chosenRows db condition).Perm ((messageRows db).filter (condition.holds table ·)) := by
  rw [framed.messageRows_eq, chosenRows, framed.found]
  exact List.mergeSort_perm _ _

/-- What a query for messages selects is in the order of times, then of positions. -/
theorem chosenRows_pairwise : (chosenRows db condition).Pairwise Precedes := by
  have apart : ((messageRows db).filter (condition.holds table ·)).Pairwise
      fun first second => first.position ≠ second.position := by
    rw [framed.messageRows_eq]
    refine (framed.ordered.filter _).imp fun less same => ?_
    rw [same] at less
    exact Int64.lt_irrefl less
  have sorted : (chosenRows db condition).Pairwise (Query.precedes table replayOrder · ·) := by
    rw [chosenRows, framed.found]
    exact List.pairwise_mergeSort (Query.precedes_trans _ _) (Query.precedes_total _ _) _
  exact sorted.imp₂ (fun _ _ => framed.precedes_of_precedes)
    ((framed.perm_chosenRows condition).symm.pairwise apart Ne.symm)

/-- A query for messages by known columns returns what is read from the rows that it selects. -/
theorem select_eq {condition : Condition}
    (known : ∀ name ∈ condition.names, ∃ column ∈ layoutColumns 6, column.name = name)
    (limit : Option Nat) :
    select db condition limit =
      (({ messageQuery condition with limit } : Query).rows table).mapM decode := by
  let query : Query := { messageQuery condition with limit }
  have names : ∀ name ∈ query.names, ∃ column ∈ layoutColumns 6, column.name = name := by
    have fixed : ∀ name ∈ readColumns ++ replayOrder,
        ∃ column ∈ layoutColumns 6, column.name = name := by
      decide
    intro name member
    rcases List.mem_append.mp member with columns | order
    · rcases List.mem_append.mp columns with columns | compared
      · exact fixed name (List.mem_append_left _ columns)
      · exact known name compared
    · exact fixed name (List.mem_append_right _ order)
  have ran : query.run db = _ := framed.run_eq rfl names
  have projected : Query.project table query.columns = Current.named := funext framed.project_eq
  change (ofEngine (query.run db) >>= fun rows => rows.mapM readMessage) = _
  rw [ran, projected]
  change ((query.rows table).map Current.named).mapM readMessage = _
  exact List.mapM_map

/-- A query for messages without a limit returns what is read from all the rows that it selects. -/
theorem select_all {condition : Condition}
    (known : ∀ name ∈ condition.names, ∃ column ∈ layoutColumns 6, column.name = name) :
    select db condition none = (chosenRows db condition).mapM decode := by
  rw [framed.select_eq known, chosenRows, framed.found]
  rfl

/-- A query for one message returns what is read from the first row that it selects. -/
theorem select_first {condition : Condition}
    (known : ∀ name ∈ condition.names, ∃ column ∈ layoutColumns 6, column.name = name) :
    select db condition (some 1) = (chosenRows db condition).head?.toList.mapM decode := by
  rw [framed.select_eq known, chosenRows, framed.found]
  change (((messageQuery condition).rows table).take 1).mapM decode = _
  rw [List.take_one]
  rfl

end Selections

/-! ### Lookups -/

/-- The first position of a message is that of its first row. -/
theorem rows_positionQuery (framed : Framed db table) (topic id : String) :
    (positionQuery topic id).rows table = (firstRow? db topic id).toList := by
  have sorted : (table.rows.filter ((ofMessage topic id).holds table ·)).Pairwise
      (Query.precedes table ["id"] · ·) := by
    refine (framed.ordered.filter _).imp fun before => ?_
    rename_i first second
    unfold Query.precedes
    rw [framed.project_position, framed.project_position]
    change (((Cell.orderInt first.position.toInt second.position.toInt).then .eq) != .gt) = true
    rw [Int64.lt_iff_toInt_lt] at before
    simp [Cell.orderInt, before]
  have met : table.rows.filter ((ofMessage topic id).holds table ·) =
      (messageRows db).filter fun row => OfTopic topic row ∧ OfId id row := by
    rw [framed.messageRows_eq]
    exact List.filter_congr fun row _ => framed.holds_ofMessage row topic id
  change ((table.rows.filter ((ofMessage topic id).holds table ·)).mergeSort
    (Query.precedes table ["id"])).take 1 = _
  rw [List.mergeSort_of_pairwise sorted, met, List.take_one, List.head?_filter, firstRow?]

/-- The position of a message is that of its first row. -/
theorem position?_eq (framed : Framed db table) (topic id : String) :
    position? db topic id = .ok ((firstRow? db topic id).map (·.position)) := by
  have names : ∀ name ∈ (positionQuery topic id).names,
      ∃ column ∈ layoutColumns 6, column.name = name := by
    change ∀ name ∈ ["id", "topic", "mid", "id"], _
    decide
  have ran : (positionQuery topic id).run db = _ := framed.run_eq rfl names
  rw [framed.rows_positionQuery] at ran
  change (ofEngine ((positionQuery topic id).run db) >>= fun rows => _) = _
  rw [ran]
  cases firstRow? db topic id with
  | none => rfl
  | some row =>
      change (ofEngine (.ok [Query.project table ["id"] row]) >>= fun rows => _) = _
      rw [framed.project_position]
      rfl

/-! ### Reading -/

section Reading

variable (framed : Framed db table)
include framed

/-- What a marker comes down to: a replay whose condition holds of the rows that are wanted. -/
theorem exists_resolved (topic : String) (since : Since) (scheduled : Bool) :
    ∃ replay, Replay.resolve since scheduled (position? db topic) = .ok replay ∧
      match replay.condition? topic with
      | none => ∀ row, ¬ Wanted db topic since scheduled row
      | some condition => ∀ row, condition.holds table row =
          decide (Wanted db topic since scheduled row) := by
  cases since with
  | nothing => exact ⟨.nothing, rfl, fun _ wanted => wanted.2.1⟩
  | everything => exact ⟨.fromSecond 0 scheduled, rfl, fun row => framed.holds_fromSecond row rfl⟩
  | time instant =>
      exact ⟨.fromSecond (Int64.ofInt instant.seconds) scheduled, rfl,
        fun row => framed.holds_fromSecond row rfl⟩
  | message id =>
      have position := framed.position?_eq topic id
      cases found : firstRow? db topic id with
      | none =>
          rw [found] at position
          refine ⟨.fromSecond 0 scheduled, ?_, fun row => ?_⟩
          · simp only [Replay.resolve, position]
            rfl
          · rw [framed.holds_fromSecond row rfl, decide_eq_decide]
            simp only [Wanted, Requested, found]
      | some first =>
          rw [found] at position
          refine ⟨.behind first.position scheduled, ?_, fun row => ?_⟩
          · simp only [Replay.resolve, position]
            rfl
          · rw [framed.holds_behind row rfl, decide_eq_decide]
            simp only [Wanted, Requested, found]

/-- The rows that a subscriber is shown are those that are wanted, in order. -/
theorem perm_shownRows (topic : String) (since : Since) (scheduled : Bool) :
    (shownRows topic since scheduled db).Perm
        ((messageRows db).filter fun row => Wanted db topic since scheduled row) ∧
      (shownRows topic since scheduled db).Pairwise Precedes := by
  obtain ⟨replay, resolved, asked⟩ := framed.exists_resolved topic since scheduled
  unfold shownRows
  simp only [resolved]
  cases found : replay.condition? topic with
  | none =>
      simp only [found] at asked
      simp [asked]
  | some condition =>
      simp only [found] at asked
      have perm := framed.perm_chosenRows condition
      rw [funext asked] at perm
      exact ⟨perm, framed.chosenRows_pairwise condition⟩

/-- A page holds what is read from the rows that a subscriber is shown. -/
theorem messages_eq (topic : String) (since : Since) (scheduled : Bool) :
    messages topic since scheduled db = (shownRows topic since scheduled db).mapM decode := by
  have columns : ∀ name ∈ ["topic", "time", "id", "published"],
      ∃ column ∈ layoutColumns 6, column.name = name := by
    decide
  obtain ⟨replay, resolved, -⟩ := framed.exists_resolved topic since scheduled
  unfold messages shownRows
  simp only [resolved]
  change (match replay.condition? topic with
    | none => _
    | some condition => select db condition none) = _
  cases found : replay.condition? topic with
  | none => rfl
  | some condition =>
      exact framed.select_all fun name member =>
        columns name (Replay.mem_names found name member)

/-- What is due is what is read from the rows that are due and not published. -/
theorem due_eq (now : Instant) : due now db = (dueRows now db).mapM decode := by
  refine framed.select_all ?_
  change ∀ name ∈ ["time", "published"], _
  decide

/-- A lookup returns what is read from the first row with the topic and the ID. -/
theorem message_eq (topic id : String) :
    message topic id db =
      match (chosenRows db (ofMessage topic id)).head? with
      | some row => decode row
      | none => .error (.of (.messageNotFound topic id)) := by
  have known : ∀ name ∈ (ofMessage topic id).names,
      ∃ column ∈ layoutColumns 6, column.name = name := by
    change ∀ name ∈ ["topic", "mid"], _
    decide
  rw [message, framed.select_first known]
  cases (chosenRows db (ofMessage topic id)).head? with
  | none => rfl
  | some row =>
      simp only [Option.toList_some, List.mapM_cons, List.mapM_nil]
      cases decode row <;> rfl

end Reading

end Framed

end MessageStore.Store
