import MessageStore.Proofs.Store.Framed

/-!
# What is read from a current store

The queries for messages in any store whose table of messages is in the current
layout, whatever the order of its columns, and whatever texts and integers its
rows hold.  All of them select from the rows in one order, by time and then by
position, and read what they select in the same way; they differ only in which
rows they leave out.
-/

namespace MessageStore.Store

open Relational (Cell Condition Database Query Row Table Test)
open Schema (Laid layoutColumns messageTable)

/-! ## The order of rows -/

/-- The second at which the message of a row is to be delivered. -/
def timeOf (row : Row) : Int :=
  (integerOf "time" row).toInt

/-- A row that stands before another in replays: it is to be delivered earlier, or at the same
second and has the smaller position. -/
def StandsAhead (first second : Row) : Prop :=
  timeOf first < timeOf second ∨ timeOf first = timeOf second ∧ first.position < second.position

/-- Whether a row may stand before another in replays. -/
def mayPrecede (first second : Row) : Bool :=
  timeOf first < timeOf second ∨ timeOf first = timeOf second ∧ first.position ≤ second.position

/-- The rows of the table of messages in the order of replays. -/
def orderedRows (db : Database) : List Row :=
  (messageRows db).mergeSort mayPrecede

theorem mayPrecede_trans (first second third : Row) (earlier : mayPrecede first second)
    (later : mayPrecede second third) : mayPrecede first third := by
  simp only [mayPrecede, decide_eq_true_eq, Int64.le_iff_toInt_le] at *
  omega

theorem mayPrecede_total (first second : Row) :
    mayPrecede first second || mayPrecede second first := by
  simp only [mayPrecede, Bool.or_eq_true, decide_eq_true_eq, Int64.le_iff_toInt_le]
  omega

theorem standsAhead_of_mayPrecede {first second : Row} (may : mayPrecede first second)
    (apart : first.position ≠ second.position) : StandsAhead first second := by
  simp only [mayPrecede, StandsAhead, decide_eq_true_eq, ne_eq, Int64.lt_iff_toInt_lt,
    Int64.le_iff_toInt_le, ← Int64.toInt_inj] at *
  omega

theorem StandsAhead.asymm {first second : Row} (ahead : StandsAhead first second) :
    ¬ StandsAhead second first := by
  simp only [StandsAhead, Int64.lt_iff_toInt_lt] at *
  omega

theorem StandsAhead.ne {first second : Row} (ahead : StandsAhead first second) :
    first ≠ second := by
  rintro rfl
  exact ahead.asymm ahead

theorem perm_orderedRows (db : Database) : (orderedRows db).Perm (messageRows db) :=
  List.mergeSort_perm _ _

theorem mem_orderedRows {db : Database} {row : Row} :
    row ∈ orderedRows db ↔ row ∈ messageRows db :=
  (perm_orderedRows db).mem_iff

/-- What is found in an ordered list comes before everything else that could have been. -/
theorem rel_of_find?_eq_some {α : Type} {before : α → α → Prop} {wanted : α → Bool} {items : List α}
    {first other : α} (ordered : items.Pairwise before) (found : items.find? wanted = some first)
    (member : other ∈ items) (isOne : wanted other = true) : other = first ∨ before first other := by
  obtain ⟨_, earlier, later, split, none⟩ := List.find?_eq_some_iff_append.mp found
  rw [split] at member ordered
  rcases List.mem_append.mp member with skipped | same | ⟨_, behind⟩
  · have isNone := none other skipped
    rw [isOne] at isNone
    cases isNone
  · exact .inl rfl
  · exact .inr (List.rel_of_pairwise_cons (List.pairwise_append.mp ordered).2.1 behind)

/-! ## What a subscriber wants -/

/-- A row of a topic that a marker asks for where scheduled messages are wanted. -/
def AskedFor (db : Database) (topic : String) : Since → Row → Prop
  | .nothing, _ => False
  | .everything, row => 0 ≤ timeOf row
  | .time instant, row => instant.seconds ≤ timeOf row
  | .message id, row =>
      match firstRow? db topic id with
      | some first => first.position < row.position ∨ IsScheduled row
      | none => 0 ≤ timeOf row

instance (db : Database) (topic : String) (since : Since) (row : Row) :
    Decidable (AskedFor db topic since row) :=
  match since with
  | .nothing => .isFalse id
  | .everything => inferInstanceAs (Decidable (0 ≤ timeOf row))
  | .time instant => inferInstanceAs (Decidable (instant.seconds ≤ timeOf row))
  | .message id =>
      match found : firstRow? db topic id with
      | some first =>
          decidable_of_iff (first.position < row.position ∨ IsScheduled row)
            (by simp only [AskedFor, found])
      | none => decidable_of_iff (0 ≤ timeOf row) (by simp only [AskedFor, found])

/-- No two rows of a topic have an ID. -/
def Sole (db : Database) (topic id : String) : Prop :=
  ∀ first ∈ messageRows db, ∀ second ∈ messageRows db, OfTopic topic first → OfId id first →
    OfTopic topic second → OfId id second → first = second

/-! ## Current stores -/

/-- A store with a table of messages in the current layout. -/
structure Current (db : Database) (table : Table) : Prop where
  found : db.table? messageTable = some table
  laid : Laid 6 table

/-- A current store whose messages can be changed. -/
structure Writable (db : Database) (table : Table) : Prop extends Current db table where
  noView : db.view? messageTable = none

theorem writable_iff {db : Database} {table : Table} :
    Writable db table ↔ db.writable messageTable = .ok table ∧ Laid 6 table := by
  rw [Database.writable_eq_ok_iff]
  constructor
  · intro writable
    exact ⟨⟨writable.noView, writable.found⟩, writable.laid⟩
  · rintro ⟨⟨noView, found⟩, laid⟩
    exact ⟨⟨found, laid⟩, noView⟩

theorem Writable.writable {db : Database} {table : Table} (store : Writable db table) :
    db.writable messageTable = .ok table :=
  (writable_iff.mp store).1

/-- A store stays current where its table of messages is replaced by one in the current layout. -/
theorem Writable.replace {db : Database} {table after : Table} (store : Writable db table)
    (laid : Laid 6 after) : Writable (db.replace after) after :=
  writable_iff.mpr ⟨Database.writable_replace_self store.writable
    (laid.named.trans store.laid.named.symm), laid⟩

namespace Current

variable {db : Database} {table : Table}

theorem messageRows_eq (current : Current db table) : messageRows db = table.rows := by
  rw [messageRows, current.found]
  rfl

theorem messageRows_ordered (current : Current db table) :
    (messageRows db).Pairwise fun first second => first.position < second.position := by
  rw [current.messageRows_eq]
  exact current.laid.ordered

/-- Rows of the table that have been sorted are in strict order. -/
theorem sorted_pairwise (current : Current db table) {rows : List Row}
    (some : rows.Sublist (messageRows db)) :
    (rows.mergeSort mayPrecede).Pairwise StandsAhead := by
  have apart : (messageRows db).Pairwise fun first second => first.position ≠ second.position := by
    refine current.messageRows_ordered.imp fun less same => ?_
    rw [same] at less
    exact Int64.lt_irrefl less
  have sorted : (rows.mergeSort mayPrecede).Pairwise fun first second => mayPrecede first second :=
    List.pairwise_mergeSort mayPrecede_trans mayPrecede_total _
  exact sorted.imp₂ (fun _ _ => standsAhead_of_mayPrecede)
    ((List.mergeSort_perm rows _).symm.pairwise (apart.sublist some) Ne.symm)

theorem orderedRows_pairwise (current : Current db table) :
    (orderedRows db).Pairwise StandsAhead :=
  current.sorted_pairwise (List.Sublist.refl _)

/-- Rows in strict order that are those that are wanted are what is left of all rows. -/
theorem eq_filter_of_ordered (current : Current db table) {rows : List Row} {wanted : Row → Bool}
    (all : rows.Perm ((messageRows db).filter wanted)) (ordered : rows.Pairwise StandsAhead) :
    rows = (orderedRows db).filter wanted := by
  refine List.Perm.eq_of_pairwise ?_ ordered (current.orderedRows_pairwise.filter wanted)
    (all.trans ((perm_orderedRows db).symm.filter wanted))
  intro first second _ _ ahead behind
  exact absurd behind ahead.asymm

theorem framed (current : Current db table) : Framed db table :=
  ⟨current.found, current.laid.columns, current.laid.ordered⟩

/-! ### What rows hold -/

section Rows

variable (current : Current db table) {row : Row} {name : String}
include current

/-- A row has an integer under the name of a column of integers. -/
theorem lookup_integer (present : row ∈ table.rows)
    (member : Schema.integer name ∈ layoutColumns 6) :
    row.cells.lookup name = some (.integer (integerOf name row)) := by
  obtain ⟨cell, found, kind⟩ := current.laid.lookup present member nofun
  change row.cells.lookup name = some cell at found
  unfold integerOf
  rw [found]
  cases cell with
  | integer value => rfl
  | _ => cases kind

/-- A row has a text under the name of a column of texts. -/
theorem lookup_text (present : row ∈ table.rows) (member : Schema.text name ∈ layoutColumns 6) :
    row.cells.lookup name = some (.text (textOf name row)) := by
  obtain ⟨cell, found, kind⟩ := current.laid.lookup present member nofun
  change row.cells.lookup name = some cell at found
  unfold textOf
  rw [found]
  cases cell with
  | text value => rfl
  | _ => cases kind

/-- A row has a cell under the name of each column of a message. -/
theorem content_eq (present : row ∈ table.rows) : content row = decode row := by
  have each : ∀ name ∈ readColumns, ((row.cells.lookup name).map fun cell => (name, cell)) =
      some (name, (row.cells.lookup name).getD .null) := by
    intro name member
    obtain ⟨column, columnMember, data, rfl⟩ := exists_readColumn member
    obtain ⟨cell, found, -⟩ := current.laid.lookup present columnMember data
    rw [found]
    rfl
  unfold content decode named
  rw [List.filterMap_eq_map_iff_forall_eq_some.mpr each]

theorem project_integer (present : row ∈ table.rows)
    (member : Schema.integer name ∈ layoutColumns 6) :
    Query.project table [name] row = [(name, .integer (integerOf name row))] := by
  rw [← cellUnder_of_lookup (current.lookup_integer present member)]
  exact current.framed.project_data member nofun row

theorem project_text (present : row ∈ table.rows) (member : Schema.text name ∈ layoutColumns 6) :
    Query.project table [name] row = [(name, .text (textOf name row))] := by
  rw [← cellUnder_of_lookup (current.lookup_text present member)]
  exact current.framed.project_data member nofun row

/-- A query of messages by columns of messages has a result. -/
theorem run_eq {query : Query} (messages : query.table = messageTable)
    (known : ∀ name ∈ query.names, ∃ column ∈ layoutColumns 6, column.name = name) :
    query.run db = .ok ((query.rows table).map (Query.project table query.columns)) :=
  current.framed.run_eq messages known

end Rows

/-! ### What conditions say of rows -/

section Conditions

variable (current : Current db table) {row : Row} {name : String}
include current

theorem compares_iff (present : row ∈ table.rows) (member : Schema.integer name ∈ layoutColumns 6)
    (test : Test) (value : Int64) :
    Compares name test value row ↔ test.ofInts (integerOf name row).toInt value.toInt = true :=
  compares_integer_iff (current.lookup_integer present member)

/-- A row has an integer under the name of a column if this is equal to it. -/
theorem compares_equal_iff (present : row ∈ table.rows)
    (member : Schema.integer name ∈ layoutColumns 6) (value : Int64) :
    Compares name .equal value row ↔ row.cells.lookup name = some (.integer value) := by
  rw [current.compares_iff present member, current.lookup_integer present member,
    Option.some.injEq, Cell.integer.injEq, ← Int64.toInt_inj]
  exact decide_eq_true_iff

theorem isPublished_iff (present : row ∈ table.rows) :
    Compares "published" .equal 1 row ↔ IsPublished row :=
  current.compares_equal_iff present (by decide) 1

theorem isScheduled_iff (present : row ∈ table.rows) :
    Compares "published" .equal 0 row ↔ IsScheduled row :=
  current.compares_equal_iff present (by decide) 0

theorem holds_integer (present : row ∈ table.rows) (member : Schema.integer name ∈ layoutColumns 6)
    (test : Test) (value : Int64) :
    Condition.holds table row (.compare name test (.integer value)) =
      test.ofInts (integerOf name row).toInt value.toInt := by
  rw [current.framed.holds_integer member, Bool.eq_iff_iff, decide_eq_true_eq]
  exact current.compares_iff present member test value

theorem holds_published (present : row ∈ table.rows) :
    Condition.holds table row Replay.published = decide (IsPublished row) := by
  rw [current.framed.holds_published, decide_eq_decide]
  exact current.isPublished_iff present

end Conditions

/-! ### The order of results -/

section Order

variable (current : Current db table)
include current

/-- The times of rows are integers, and these are in the order of the cells. -/
theorem standsAhead_of_precedes {first second : Row} (present : first ∈ table.rows)
    (otherPresent : second ∈ table.rows) (ahead : Precedes first second) :
    StandsAhead first second := by
  have time {row : Row} (present : row ∈ table.rows) :
      cellUnder "time" row = .integer (integerOf "time" row) :=
    cellUnder_of_lookup (current.lookup_integer present (by decide))
  have less := Test.holds_orderInt .less (timeOf first) (timeOf second)
  have same := Test.holds_orderInt .equal (timeOf first) (timeOf second)
  unfold Precedes at ahead
  rw [time present, time otherPresent] at ahead
  change Cell.orderInt (timeOf first) (timeOf second) = _ ∨
    Cell.orderInt (timeOf first) (timeOf second) = _ ∧ _ at ahead
  rcases ahead with earlier | ⟨together, behind⟩
  · rw [earlier] at less
    exact .inl (of_decide_eq_true less.symm)
  · rw [together] at same
    exact .inr ⟨of_decide_eq_true same.symm, behind⟩

/-- Rows in the order of their cells that are those that are wanted are what is left of all rows. -/
theorem eq_filter_of_precedes {rows : List Row} {wanted : Row → Bool}
    (all : rows.Perm ((messageRows db).filter wanted)) (ordered : rows.Pairwise Precedes) :
    rows = (orderedRows db).filter wanted := by
  have present : ∀ row ∈ rows, row ∈ table.rows := fun row member =>
    current.messageRows_eq ▸ List.mem_of_mem_filter (all.mem_iff.mp member)
  refine current.eq_filter_of_ordered all (ordered.imp_of_mem fun member otherMember => ?_)
  exact current.standsAhead_of_precedes (present _ member) (present _ otherMember)

/-- What a query for messages selects are the rows that meet its condition, in order. -/
theorem chosenRows_eq (condition : Condition) :
    chosenRows db condition = (orderedRows db).filter (condition.holds table ·) :=
  current.eq_filter_of_precedes (current.framed.perm_chosenRows condition)
    (current.framed.chosenRows_pairwise condition)

end Order

/-! ### Reading -/

section Reading

/-- What a row is wanted for by its cells is what a subscriber asks for. -/
theorem wanted_iff (current : Current db table) {row : Row} (present : row ∈ table.rows)
    (topic : String) (since : Since) (scheduled : Bool) :
    Wanted db topic since scheduled row ↔
      OfTopic topic row ∧ AskedFor db topic since row ∧ (scheduled = true ∨ IsPublished row) := by
  have late (second : Int64) : Compares "time" .atLeast second row ↔ second.toInt ≤ timeOf row :=
    (current.compares_iff present (by decide) .atLeast second).trans decide_eq_true_iff
  have requested : Requested db topic since row ↔ AskedFor db topic since row := by
    cases since with
    | nothing => exact Iff.rfl
    | everything => exact late 0
    | time instant =>
        have asked := late (Int64.ofInt instant.seconds)
        rwa [toInt_second] at asked
    | message id =>
        simp only [Requested, AskedFor]
        cases firstRow? db topic id with
        | none => exact late 0
        | some first => exact or_congr_right (current.isScheduled_iff present)
  rw [Wanted, requested, current.isPublished_iff present]

/-- The rows that a subscriber is shown are those of the topic that the marker asks for, without
those that are not published unless these are wanted. -/
theorem shownRows_eq (current : Current db table) (topic : String) (since : Since)
    (scheduled : Bool) :
    shownRows topic since scheduled db = (orderedRows db).filter fun row =>
      OfTopic topic row ∧ AskedFor db topic since row ∧ (scheduled = true ∨ IsPublished row) := by
  obtain ⟨all, ordered⟩ := current.framed.perm_shownRows topic since scheduled
  rw [current.eq_filter_of_precedes all ordered]
  refine List.filter_congr fun row member => decide_eq_decide.mpr ?_
  rw [mem_orderedRows, current.messageRows_eq] at member
  exact current.wanted_iff member topic since scheduled

/-- A page holds what the rows say that a subscriber is shown. -/
theorem messages_eq (current : Current db table) (topic : String) (since : Since)
    (scheduled : Bool) :
    messages topic since scheduled db = (shownRows topic since scheduled db).mapM content := by
  rw [current.framed.messages_eq]
  refine mapM_congr fun row member => (current.content_eq ?_).symm
  rw [current.shownRows_eq] at member
  exact current.messageRows_eq ▸ mem_orderedRows.mp (List.mem_of_mem_filter member)

theorem dueRows_eq (current : Current db table) (now : Instant) :
    dueRows now db = (orderedRows db).filter fun row =>
      IsScheduled row ∧ timeOf row ≤ now.seconds := by
  rw [dueRows, current.chosenRows_eq]
  refine List.filter_congr fun row member => ?_
  rw [mem_orderedRows, current.messageRows_eq] at member
  have late := current.compares_iff member (by decide : Schema.integer "time" ∈ layoutColumns 6)
    .atMost (Int64.ofInt now.seconds)
  rw [toInt_second] at late
  rw [current.framed.holds_awaiting, decide_eq_decide, late, current.isScheduled_iff member,
    and_comm]
  exact and_congr_right' decide_eq_true_iff

/-- What is due is what the rows say that are due and not published. -/
theorem due_eq (current : Current db table) (now : Instant) :
    due now db = (dueRows now db).mapM content := by
  rw [current.framed.due_eq]
  refine mapM_congr fun row member => (current.content_eq ?_).symm
  rw [current.dueRows_eq] at member
  exact current.messageRows_eq ▸ mem_orderedRows.mp (List.mem_of_mem_filter member)

/-- A lookup returns what the first row in the order of replays says that has the topic and the
ID. -/
theorem message_eq (current : Current db table) (topic id : String) :
    message topic id db =
      match (orderedRows db).find? fun row => OfTopic topic row ∧ OfId id row with
      | some row => content row
      | none => .error (.of (.messageNotFound topic id)) := by
  have met : (chosenRows db (ofMessage topic id)).head? =
      (orderedRows db).find? fun row => OfTopic topic row ∧ OfId id row := by
    rw [current.chosenRows_eq, ← List.head?_filter]
    exact congrArg List.head?
      (List.filter_congr fun row _ => current.framed.holds_ofMessage row topic id)
  rw [current.framed.message_eq, met]
  cases found : (orderedRows db).find? fun row => OfTopic topic row ∧ OfId id row with
  | none => rfl
  | some row =>
      have present := mem_orderedRows.mp (List.mem_of_find?_eq_some found)
      rw [current.messageRows_eq] at present
      exact (current.content_eq present).symm

/-- A lookup finds the row of a topic with an ID if there is one only. -/
theorem message_of_sole (current : Current db table) {topic id : String} {row : Row}
    (present : row ∈ messageRows db) (ofTopic : OfTopic topic row) (ofId : OfId id row)
    (sole : Sole db topic id) : message topic id db = content row := by
  rw [current.message_eq]
  cases found : (orderedRows db).find? fun row => OfTopic topic row ∧ OfId id row with
  | none =>
      have other := List.find?_eq_none.mp found row (mem_orderedRows.mpr present)
      exact absurd (decide_eq_true ⟨ofTopic, ofId⟩) other
  | some first =>
      have member := mem_orderedRows.mp (List.mem_of_find?_eq_some found)
      have named := List.find?_some found
      obtain ⟨firstTopic, firstId⟩ := of_decide_eq_true named
      rw [sole first member row present firstTopic firstId ofTopic ofId]

/-- A topic has as many messages as rows. -/
theorem count_eq (current : Current db table) (topic : String) :
    count topic db = .ok ((messageRows db).filter (OfTopic topic)).length := by
  let query : Query :=
    { table := messageTable
      columns := []
      condition := some (.compare "topic" .equal (.text topic)) }
  have names : ∀ name ∈ query.names, ∃ column ∈ layoutColumns 6, column.name = name := by
    change ∀ name ∈ ["topic"], _
    decide
  have rows : query.rows table = (messageRows db).filter (OfTopic topic) := by
    rw [current.messageRows_eq]
    exact List.filter_congr fun row _ => current.framed.holds_topic row topic
  have ran : query.run db = _ := current.run_eq rfl names
  rw [rows] at ran
  change (ofEngine (query.run db) >>= fun rows => .ok rows.length) = _
  rw [ran]
  exact congrArg Except.ok (List.length_map _)

end Reading

end Current

end MessageStore.Store
