import MessageStore.Proofs.Store.Agreement

/-!
# Updates as edits

An update replaces six cells in every row that has its topic and its ID, and it
leaves no trace of what these cells were.  So the last one of several updates of
a message decides, and updates of different messages can change places.  What
else is in a store stays: its rows, their order and their other cells, and with
them all answers but for the edited part of the messages.
-/

namespace MessageStore.Store

open Relational (Cell Database Query Row Table overlaid)
open Schema (Laid layoutColumns messageTable)

/-! ## Edited rows -/

/-- The names of the cells that an update replaces. -/
def editedNames : List String :=
  ["updated", "message", "title", "priority", "tags", "click"]

/-- What an update makes of a row. -/
def edit (message : Message) (row : Row) : Row :=
  if OfTopic message.topic row ∧ OfId message.id row then row.putAll (editedCells message) else row

/-- What updates make of a row, one after the other. -/
def editAll (messages : List Message) (row : Row) : Row :=
  messages.foldl (fun row message => edit message row) row

section Rows

variable {message first second : Message} {messages : List Message} {row : Row} {name : String}

theorem edit_of_other (other : ¬ (OfTopic message.topic row ∧ OfId message.id row)) :
    edit message row = row :=
  if_neg other

theorem edit_of_own (own : OfTopic message.topic row ∧ OfId message.id row) :
    edit message row = row.putAll (editedCells message) :=
  if_pos own

theorem position_edit : (edit message row).position = row.position := by
  unfold edit
  split
  · exact row.position_putAll _
  · rfl

theorem lookup_putAll_editedCells (fixed : name ∉ editedNames) :
    (row.putAll (editedCells message)).cells.lookup name = row.cells.lookup name := by
  rw [row.lookup_putAll]
  have same : overlaid (editedCells message) name = id :=
    funext (Relational.overlaid_of_not_mem fixed)
  rw [same, Option.map_id, id]

/-- An update replaces nothing under other names. -/
theorem lookup_edit (fixed : name ∉ editedNames) :
    (edit message row).cells.lookup name = row.cells.lookup name := by
  unfold edit
  split
  · exact lookup_putAll_editedCells fixed
  · rfl

theorem names_edit : (edit message row).cells.map Prod.fst = row.cells.map Prod.fst := by
  unfold edit
  split
  · rw [row.putAll_eq, List.map_map]
    rfl
  · rfl

theorem ofTopic_edit {topic : String} : OfTopic topic (edit message row) ↔ OfTopic topic row := by
  rw [OfTopic, lookup_edit (by decide), OfTopic]

theorem ofId_edit {id : String} : OfId id (edit message row) ↔ OfId id row := by
  rw [OfId, lookup_edit (by decide), OfId]

/-- Of two updates of a message, the last one decides. -/
theorem edit_edit (topic : first.topic = second.topic) (id : first.id = second.id) :
    edit second (edit first row) = edit second row := by
  by_cases own : OfTopic second.topic row ∧ OfId second.id row
  · have firstOwn : OfTopic first.topic row ∧ OfId first.id row := by rwa [topic, id]
    have stillOwn : OfTopic second.topic (edit first row) ∧ OfId second.id (edit first row) := by
      rwa [ofTopic_edit, ofId_edit]
    rw [edit_of_own stillOwn, edit_of_own own, edit_of_own firstOwn]
    exact row.putAll_putAll fun _ member => member
  · have firstOther : ¬ (OfTopic first.topic row ∧ OfId first.id row) := by rwa [topic, id]
    rw [edit_of_other firstOther]

/-- A row has one topic and one ID at most. -/
theorem eq_of_own (firstOwn : OfTopic first.topic row ∧ OfId first.id row)
    (secondOwn : OfTopic second.topic row ∧ OfId second.id row) :
    first.topic = second.topic ∧ first.id = second.id := by
  constructor
  · exact Cell.text.inj (Option.some.inj (firstOwn.1.symm.trans secondOwn.1))
  · exact Cell.text.inj (Option.some.inj (firstOwn.2.symm.trans secondOwn.2))

/-- Updates of different messages can change places. -/
theorem edit_comm (apart : ¬ (first.topic = second.topic ∧ first.id = second.id)) :
    edit second (edit first row) = edit first (edit second row) := by
  by_cases own : OfTopic first.topic row ∧ OfId first.id row
  · have secondOther : ¬ (OfTopic second.topic row ∧ OfId second.id row) :=
      fun secondOwn => apart (eq_of_own own secondOwn)
    have stillOther :
        ¬ (OfTopic second.topic (edit first row) ∧ OfId second.id (edit first row)) := by
      rwa [ofTopic_edit, ofId_edit]
    rw [edit_of_other stillOther, edit_of_other secondOther]
  · have stillOther :
        ¬ (OfTopic first.topic (edit second row) ∧ OfId first.id (edit second row)) := by
      rwa [ofTopic_edit, ofId_edit]
    rw [edit_of_other stillOther, edit_of_other own]

theorem position_editAll : (editAll messages row).position = row.position := by
  induction messages generalizing row with
  | nil => rfl
  | cons message rest ih => exact ih.trans position_edit

theorem lookup_editAll (fixed : name ∉ editedNames) :
    (editAll messages row).cells.lookup name = row.cells.lookup name := by
  induction messages generalizing row with
  | nil => rfl
  | cons message rest ih => exact ih.trans (lookup_edit fixed)

end Rows

/-! ## Edited messages -/

section Messages

variable {message old : Message} {row : Row} {name : String}

/-- An edited row has the cell that the update puts in the place of the one it had. -/
theorem lookup_edited (present : cellUnder name row ≠ .null) :
    (row.putAll (editedCells message)).cells.lookup name =
      some (overlaid (editedCells message) name (cellUnder name row)) := by
  rw [row.lookup_putAll, cellUnder]
  cases found : row.cells.lookup name with
  | none => exact absurd (congrArg (·.getD .null) found) present
  | some cell => rfl

/-- What is read of an edited row beside the cells that are replaced stays. -/
theorem textOf_edited (fixed : name ∉ editedNames) :
    textOf name (row.putAll (editedCells message)) = textOf name row := by
  rw [textOf, lookup_putAll_editedCells fixed, textOf]

theorem integerOf_edited (fixed : name ∉ editedNames) :
    integerOf name (row.putAll (editedCells message)) = integerOf name row := by
  rw [integerOf, lookup_putAll_editedCells fixed, integerOf]

theorem attachmentOf_edited :
    attachmentOf (row.putAll (editedCells message)) = attachmentOf row := by
  unfold attachmentOf
  rw [textOf_edited (by decide), textOf_edited (by decide), integerOf_edited (by decide),
    integerOf_edited (by decide), textOf_edited (by decide), textOf_edited (by decide)]

/-- An update replaces cells by such that can be read. -/
theorem admits_overlaid {attached : Bool} {part : Part} (member : part ∈ parts attached)
    {cell : Cell} (admits : part.form.Admits cell) :
    part.form.Admits (overlaid (editedCells message) part.name cell) := by
  have replaced : ∀ part ∈ parts true, part.name ∈ editedNames →
      part ∈ [⟨2, "updated", .integer⟩, ⟨4, "message", .text⟩, ⟨5, "title", .text⟩,
        ⟨6, "priority", .byte⟩, ⟨7, "tags", .text⟩, ⟨8, "click", .text⟩] := by
    decide
  by_cases edited : part.name ∈ editedNames
  · have one := replaced part (mem_parts_true member) edited
    simp only [List.mem_cons, List.not_mem_nil, or_false] at one
    rcases one with rfl | rfl | rfl | rfl | rfl | rfl
    case inr.inr.inr.inl =>
      have small := message.priority.toNat_lt
      refine ⟨_, rfl, ?_⟩
      rw [toInt_priority]
      omega
    all_goals rfl
  · rw [Relational.overlaid_of_not_mem edited]
    exact admits

/-- A row that can be read can still be once it has been edited. -/
theorem Decodable.edited (decodable : Decodable row) :
    Decodable (row.putAll (editedCells message)) := by
  rw [decodable_iff, attachmentOf_edited]
  intro part member
  have admits := decodable_iff.mp decodable part member
  rw [cellUnder_of_lookup (lookup_edited admits.ne_null)]
  exact admits_overlaid member admits

/-- From an edited row the message is read with the editable part of the other one. -/
theorem messageOf_edited (decodable : Decodable row) :
    messageOf (row.putAll (editedCells message)) = (messageOf row).edited message.stored := by
  have shown {place : Nat} {name : String} {form : Form}
      (member : ⟨place, name, form⟩ ∈ parts false) :
      (row.putAll (editedCells message)).cells.lookup name =
        some (overlaid (editedCells message) name (cellUnder name row)) :=
    lookup_edited (decodable_iff.mp decodable _ (mem_parts_iff.mpr (.inl member))).ne_null
  have text {place : Nat} {name new : String} (member : ⟨place, name, .text⟩ ∈ parts false)
      (given : overlaid (editedCells message) name (cellUnder name row) = .text new) :
      textOf name (row.putAll (editedCells message)) = new := by
    rw [textOf, shown member, given]
  have updated : integerOf "updated" (row.putAll (editedCells message)) = message.updated := by
    rw [integerOf, @shown 2 _ .integer (by decide)]
    rfl
  have priority : UInt8.ofNat
      (integerOf "priority" (row.putAll (editedCells message))).toInt.toNat = message.priority := by
    rw [integerOf, @shown 6 _ .byte (by decide)]
    change UInt8.ofNat (Int64.ofNat message.priority.toNat).toInt.toNat = _
    rw [toInt_priority, Int.toNat_natCast, UInt8.ofNat_toNat]
  unfold messageOf shownAttachment
  rw [attachmentOf_edited, updated, priority, @text 4 "message" message.body (by decide) rfl,
    @text 5 "title" message.title (by decide) rfl, @text 7 "tags" _ (by decide) rfl,
    @text 8 "click" message.click (by decide) rfl, @textOf_edited _ _ "mid" (by decide),
    @integerOf_edited _ _ "time" (by decide), @textOf_edited _ _ "topic" (by decide),
    @textOf_edited _ _ "encoding" (by decide)]
  rfl

/-- From a row that has been edited several times the message is read as before but for its editable
part. -/
theorem exists_decode_editAll {messages : List Message} (read : decode row = .ok old) :
    ∃ now, decode (editAll messages row) = .ok now ∧ now = old.edited now := by
  induction messages generalizing row old with
  | nil => exact ⟨old, read, rfl⟩
  | cons message rest ih =>
      have once : ∃ now, decode (edit message row) = .ok now ∧ now = old.edited now := by
        unfold edit
        split
        · obtain ⟨decodable, rfl⟩ := decode_eq_ok_iff.mp read
          exact ⟨_, decode_eq_ok_iff.mpr ⟨decodable.edited, messageOf_edited decodable⟩, rfl⟩
        · exact ⟨old, read, rfl⟩
      obtain ⟨middle, readMiddle, sameMiddle⟩ := once
      obtain ⟨now, readNow, same⟩ := ih readMiddle
      refine ⟨now, readNow, ?_⟩
      rw [sameMiddle] at same
      exact same

end Messages

/-! ## Updates of a store -/

/-- A table of which all rows have been edited. -/
def editTable (message : Message) (table : Table) : Table :=
  { table with rows := table.rows.map (edit message) }

theorem editTable_editTable {first second : Message} (table : Table)
    (topic : first.topic = second.topic) (id : first.id = second.id) :
    editTable second (editTable first table) = editTable second table := by
  have rows := List.map_congr_left fun row (_ : row ∈ table.rows) => @edit_edit _ _ row topic id
  simp only [editTable, List.map_map, Function.comp_def, rows]

theorem editTable_comm {first second : Message} (table : Table)
    (apart : ¬ (first.topic = second.topic ∧ first.id = second.id)) :
    editTable second (editTable first table) = editTable first (editTable second table) := by
  have rows := List.map_congr_left fun row (_ : row ∈ table.rows) => @edit_comm _ _ row apart
  simp only [editTable, List.map_map, Function.comp_def, rows]

/-- A store of which all rows in the table of messages have been edited. -/
def editStore (message : Message) (db : Database) (table : Table) : Database :=
  db.replace (editTable message table)

section Updates

variable {db : Database} {table : Table} {message first second : Message}

theorem Current.updated_eq (current : Current db table) :
    Database.updated table (assigning (editedCells message))
      (some (ofMessage message.topic message.id)) = editTable message table := by
  have each (row : Row) :
      (if Database.meets table (some (ofMessage message.topic message.id)) row then
        Database.assignRow table (assigning (editedCells message)) row
      else row) = edit message row := by
    have meets : Database.meets table (some (ofMessage message.topic message.id)) row =
        decide (OfTopic message.topic row ∧ OfId message.id row) :=
      current.framed.holds_ofMessage row _ _
    rw [meets, assignRow_eq_putAll current.laid (preferred_editedCells message), edit]
    simp only [decide_eq_true_eq]
  unfold Database.updated editTable
  rw [funext each]

theorem Writable.laid_editTable (store : Writable db table) : Laid 6 (editTable message table) := by
  rw [← store.updated_eq]
  exact laid_updated store.laid (preferred_editedCells message) _

theorem Writable.editStore (store : Writable db table) :
    Writable (editStore message db table) (editTable message table) :=
  store.replace store.laid_editTable

/-- An update edits the rows of the table of messages. -/
theorem Writable.update_eq (store : Writable db table) (event : message.event = .message) :
    update message db = .ok (Store.editStore message db table) := by
  rw [update_of_message event, Store.update_eq store.writable store.laid
    (preferred_editedCells message) (ofMessage_known _ _), store.updated_eq]
  rfl

/-- Two updates edit the rows one after the other. -/
theorem Writable.update_update (store : Writable db table) (firstEvent : first.event = .message)
    (secondEvent : second.event = .message) :
    (update first db >>= update second) =
      .ok (db.replace (editTable second (editTable first table))) := by
  rw [store.update_eq firstEvent]
  change update second (Store.editStore first db table) = _
  rw [store.editStore.update_eq secondEvent]
  exact congrArg Except.ok (Database.replace_replace db rfl)

end Updates

/-! ## Runs of updates -/

/-- The acts of updating messages. -/
def updates (edits : List (Instant × Message)) : List Act :=
  edits.map fun (clock, message) => (clock, .update message)

/-- What of some updates is carried out: those of messages that can be stored. -/
def storable (edits : List (Instant × Message)) : List Message :=
  (edits.map Prod.snd).filter fun message => message.event = .message

/-- A table of which all rows have been edited by several updates. -/
def editTableAll (messages : List Message) (table : Table) : Table :=
  { table with rows := table.rows.map (editAll messages) }

/-- A run of updates edits the rows of the table of messages, and does nothing else to it. -/
theorem Writable.carryOut_updates {db : Database} {table : Table} (store : Writable db table)
    (edits : List (Instant × Message)) :
    Writable (carryOut db (updates edits)) (editTableAll (storable edits) table) := by
  induction edits generalizing db table with
  | nil =>
      have rows : table.rows.map (editAll []) = table.rows := List.map_id _
      change Writable db { table with rows := table.rows.map (editAll []) }
      rw [rows]
      exact store
  | cons act rest ih =>
      obtain ⟨clock, message⟩ := act
      change Writable (carryOut (Outcome.write db (update message db)).db (updates rest)) _
      by_cases event : message.event = .message
      · have edited : Writable (Store.editStore message db table) (editTable message table) :=
          store.editStore
        have after := ih edited
        have rows : (editTable message table).rows.map (editAll (storable rest)) =
            table.rows.map (editAll (message :: storable rest)) :=
          List.map_map
        have kept : storable ((clock, message) :: rest) = message :: storable rest :=
          List.filter_cons_of_pos (decide_eq_true event)
        rw [store.update_eq event, kept]
        unfold editTableAll at after ⊢
        rw [rows] at after
        exact after
      · have kept : storable ((clock, message) :: rest) = storable rest :=
          List.filter_cons_of_neg (by simp [event])
        rw [update_of_other event, kept]
        exact ih store

/-! ## What is read after updates -/

section Reads

variable {db after : Database} {table : Table} {messages : List Message} {row : Row}

theorem viewBeside_editAll : (editAll messages row).viewBeside editedNames =
    row.viewBeside editedNames :=
  Row.viewBeside_eq_iff.mpr ⟨position_editAll, fun _ => lookup_editAll⟩

/-- Edited tables look alike beside the cells that updates replace. -/
theorem alikeBeside_editTableAll (messages : List Message) (table : Table) :
    table.AlikeBeside editedNames (editTableAll messages table) where
  name := rfl
  columns := fun _ => rfl
  rows := by
    change _ = (table.rows.map (editAll messages)).map _
    rw [List.map_map]
    exact List.map_congr_left fun row _ => viewBeside_editAll.symm

theorem timeOf_editAll : timeOf (editAll messages row) = timeOf row := by
  rw [timeOf, integerOf, lookup_editAll (by decide), timeOf, integerOf]

theorem ofTopic_editAll {topic : String} :
    OfTopic topic (editAll messages row) ↔ OfTopic topic row := by
  rw [OfTopic, lookup_editAll (by decide), OfTopic]

theorem ofId_editAll {id : String} : OfId id (editAll messages row) ↔ OfId id row := by
  rw [OfId, lookup_editAll (by decide), OfId]

theorem isPublished_editAll : IsPublished (editAll messages row) ↔ IsPublished row := by
  rw [IsPublished, lookup_editAll (by decide), IsPublished]

theorem isScheduled_editAll : IsScheduled (editAll messages row) ↔ IsScheduled row := by
  rw [IsScheduled, lookup_editAll (by decide), IsScheduled]

/-- The columns that no update replaces are visible in a current table. -/
theorem Current.visible (current : Current db table) {name : String}
    (known : ∃ column ∈ layoutColumns 6, column.name = name) (fixed : name ∉ editedNames) :
    table.Visible editedNames name := by
  obtain ⟨column, member, rfl⟩ := known
  intro own found
  obtain ⟨other, otherFound, _, same⟩ := current.laid.column? member
  obtain rfl := Option.some.inj (found.symm.trans otherFound)
  rwa [(Relational.Column.of_bare_eq same).1]

namespace Current

variable (before : Current db table) (later : Current after (editTableAll messages table))
include before later

/-- A query of columns that no update replaces has the same result after updates. -/
theorem run_editTableAll {query : Query} (messages : query.table = messageTable)
    (fixed : ∀ name ∈ query.names,
      (∃ column ∈ layoutColumns 6, column.name = name) ∧ name ∉ editedNames) :
    query.run after = query.run db := by
  have found := before.found
  have laterFound := later.found
  rw [← messages] at found laterFound
  refine ((alikeBeside_editTableAll _ table).run (fun name member => ?_) found laterFound).symm
  exact before.visible (fixed name member).1 (fixed name member).2

theorem messageRows_editTableAll :
    messageRows after = (messageRows db).map (editAll messages) := by
  rw [later.messageRows_eq, before.messageRows_eq]
  rfl

/-- Edited rows stay in their order. -/
theorem orderedRows_editTableAll :
    orderedRows after = (orderedRows db).map (editAll messages) := by
  have agree : ∀ first ∈ messageRows db, ∀ second ∈ messageRows db, mayPrecede first second =
      mayPrecede (editAll messages first) (editAll messages second) := by
    intro first _ second _
    rw [mayPrecede, mayPrecede, timeOf_editAll, timeOf_editAll, position_editAll, position_editAll]
  rw [orderedRows, before.messageRows_editTableAll later, ← List.map_mergeSort agree, orderedRows]

theorem firstRow?_editTableAll (topic id : String) :
    firstRow? after topic id = (firstRow? db topic id).map (editAll messages) := by
  rw [firstRow?, before.messageRows_editTableAll later, List.find?_map, firstRow?]
  simp only [Function.comp_def, ofTopic_editAll, ofId_editAll]

theorem askedFor_editTableAll {topic : String} {since : Since} :
    AskedFor after topic since (editAll messages row) ↔ AskedFor db topic since row := by
  cases since with
  | nothing => rfl
  | everything | time instant => rw [AskedFor, timeOf_editAll, AskedFor]
  | message id =>
      have first := before.firstRow?_editTableAll later topic id
      cases found : firstRow? db topic id with
      | none =>
          rw [found, Option.map_none] at first
          simp only [AskedFor, found, first, timeOf_editAll]
      | some marked =>
          rw [found, Option.map_some] at first
          simp only [AskedFor, found, first, position_editAll, isScheduled_editAll]

/-- After updates a subscriber is shown the rows as before, edited. -/
theorem shownRows_editTableAll (topic : String) (since : Since) (scheduled : Bool) :
    shownRows topic since scheduled after =
      (shownRows topic since scheduled db).map (editAll messages) := by
  rw [later.shownRows_eq, before.shownRows_eq, before.orderedRows_editTableAll later,
    List.filter_map]
  simp only [Function.comp_def, ofTopic_editAll, isPublished_editAll,
    before.askedFor_editTableAll later]

/-- After updates the same rows are due, edited. -/
theorem dueRows_editTableAll (now : Instant) :
    dueRows now after = (dueRows now db).map (editAll messages) := by
  rw [later.dueRows_eq, before.dueRows_eq, before.orderedRows_editTableAll later, List.filter_map]
  simp only [Function.comp_def, isScheduled_editAll, timeOf_editAll]

theorem count_editTableAll (topic : String) : count topic after = count topic db := by
  unfold count
  rw [before.run_editTableAll later rfl]
  change ∀ name ∈ ["topic"], _
  decide

theorem topics_editTableAll : topics after = topics db := by
  unfold topics
  rw [before.run_editTableAll later rfl]
  change ∀ name ∈ ["topic", "topic"], _
  decide

theorem attachmentsSize_editTableAll (owner : String) (now : Instant) :
    attachmentsSize owner now after = attachmentsSize owner now db := by
  unfold attachmentsSize
  rw [before.run_editTableAll later rfl]
  change ∀ name ∈ ["attachment_size", "attachment_owner", "attachment_expires"], _
  decide

theorem attachmentsExpired_editTableAll (now : Instant) :
    attachmentsExpired now after = attachmentsExpired now db := by
  unfold attachmentsExpired
  rw [before.run_editTableAll later rfl]
  change ∀ name ∈ ["mid", "attachment_expires", "attachment_expires"], _
  decide

end Current

/-- What is read after updates, beside what was read before: from the same rows in the same order,
of which each has been edited, so that they look the same beside the six cells.  Where a result was
read before, one is read after, and its messages differ in their editable parts at most. -/
structure EditedPage (messages : List Message) (rows laterRows : List Row)
    (result later : Except Error (List Message)) : Prop where
  before : result = rows.mapM content
  after : later = laterRows.mapM content
  edited : laterRows = rows.map (editAll messages)
  positions : laterRows.map (·.position) = rows.map (·.position)
  others : laterRows.map (Row.viewBeside editedNames) = rows.map (Row.viewBeside editedNames)
  pages : ∀ page, result = .ok page → ∃ laterPage, later = .ok laterPage ∧
    List.Forall₂ (fun shown now => now = shown.edited now) page laterPage

/-- What is read of edited rows is an edited page. -/
theorem Current.editedPage (before : Current db table)
    (later : Current after (editTableAll messages table)) {wanted : Row → Prop}
    {rows laterRows : List Row} {result laterResult : Except Error (List Message)}
    (source : ReadFrom db wanted rows result) (read : laterResult = laterRows.mapM content)
    (edited : laterRows = rows.map (editAll messages)) :
    EditedPage messages rows laterRows result laterResult where
  before := source.result
  after := read
  edited
  positions := by
    rw [edited, List.map_map]
    exact List.map_congr_left fun row _ => position_editAll
  others := by
    rw [edited, List.map_map]
    exact List.map_congr_left fun row _ => viewBeside_editAll
  pages := by
    intro page shown
    rw [read, edited]
    rw [source.result] at shown
    refine exists_related_of_mapM_eq_ok (fun row member old said => ?_) shown
    have present := ((source.mem_iff row).mp member).1
    rw [before.messageRows_eq] at present
    rw [before.content_eq present] at said
    rw [later.content_eq (List.mem_map_of_mem present)]
    exact exists_decode_editAll said

end Reads

/-! ## The last writer wins -/

/-- An update replaces every cell of its message that it is to replace. -/
theorem Current.lookup_edit_of_own {db : Database} {table : Table} (current : Current db table)
    {message : Message} {row : Row} (present : row ∈ messageRows db)
    (own : OfTopic message.topic row ∧ OfId message.id row) {name : String}
    (replaced : name ∈ editedNames) :
    (edit message row).cells.lookup name = (editedCells message).lookup name := by
  have known : ∃ column ∈ layoutColumns 6, column.key ≠ .position ∧ column.name = name := by
    revert name
    decide
  obtain ⟨column, member, data, rfl⟩ := known
  rw [current.messageRows_eq] at present
  obtain ⟨cell, found, -⟩ := current.laid.lookup present member data
  change row.cells.lookup column.name = some cell at found
  rw [edit_of_own own, row.lookup_putAll, found]
  generalize column.name = name at replaced
  simp only [editedNames, List.mem_cons, List.not_mem_nil, or_false] at replaced
  rcases replaced with rfl | rfl | rfl | rfl | rfl | rfl <;> rfl

/-- In every store whose messages can be changed, as every one that can be reached, an update edits
the rows of its topic and its ID: it replaces their cells under six names, and nothing else.  An
update that is made again changes nothing, the last one of two updates of a message decides, and
updates of different messages can change places.  Whatever updates are made, the same messages are
counted, topics listed and attachments accounted for, and what is due and every page are read from
the same rows in the same order. -/
theorem last_update_decides :
    (∀ db, Reachable db → ∃ table, Writable db table) ∧
    ∀ db table, Writable db table →
      (∀ first, first.event = .message →
        update first db = .ok (editStore first db table) ∧
        (update first db >>= update first) = update first db ∧
        ∀ second, second.event = .message →
          (first.topic = second.topic ∧ first.id = second.id →
            (update first db >>= update second) = update second db) ∧
          (¬ (first.topic = second.topic ∧ first.id = second.id) →
            (update first db >>= update second) = update second db >>= update first)) ∧
      (∀ message, ∀ row ∈ messageRows db,
        (edit message row).position = row.position ∧
        (edit message row).cells.map Prod.fst = row.cells.map Prod.fst ∧
        (∀ name ∉ editedNames, (edit message row).cells.lookup name = row.cells.lookup name) ∧
        (OfTopic message.topic row ∧ OfId message.id row → ∀ name ∈ editedNames,
          (edit message row).cells.lookup name = (editedCells message).lookup name) ∧
        (¬ (OfTopic message.topic row ∧ OfId message.id row) → edit message row = row)) ∧
      ∀ edits,
        let after := carryOut db (updates edits)
        (∀ topic, count topic after = count topic db) ∧ topics after = topics db ∧
        (∀ now,
          (∀ owner, attachmentsSize owner now after = attachmentsSize owner now db) ∧
          attachmentsExpired now after = attachmentsExpired now db ∧
          EditedPage (storable edits) (dueRows now db) (dueRows now after) (due now db)
            (due now after)) ∧
        ∀ topic since scheduled,
          EditedPage (storable edits) (shownRows topic since scheduled db)
            (shownRows topic since scheduled after) (messages topic since scheduled db)
            (messages topic since scheduled after) := by
  refine ⟨fun db => Reachable.exists_writable, fun db table store => ⟨?algebra, ?footprint, ?reads⟩⟩
  case algebra =>
    intro first event
    have edited := store.update_eq event
    refine ⟨edited, ?_, fun second secondEvent => ⟨fun same => ?_, fun apart => ?_⟩⟩
    · rw [store.update_update event event, editTable_editTable table rfl rfl, edited]
      rfl
    · rw [store.update_update event secondEvent, editTable_editTable table same.1 same.2,
        store.update_eq secondEvent]
      rfl
    · rw [store.update_update event secondEvent, store.update_update secondEvent event,
        editTable_comm table apart]
  case footprint =>
    intro message row present
    exact ⟨position_edit, names_edit, fun _ => lookup_edit,
      fun own _ => store.lookup_edit_of_own present own, edit_of_other⟩
  case reads =>
    intro edits after
    have before := store.toCurrent
    have later := (store.carryOut_updates edits).toCurrent
    refine ⟨before.count_editTableAll later, before.topics_editTableAll later, fun now => ⟨?_, ?_, ?_⟩,
      fun topic since scheduled => ?_⟩
    · exact fun owner => before.attachmentsSize_editTableAll later owner now
    · exact before.attachmentsExpired_editTableAll later now
    · exact before.editedPage later (before.readFrom_due now) (later.due_eq now)
        (before.dueRows_editTableAll later now)
    · exact before.editedPage later (before.readFrom_messages topic since scheduled)
        (later.messages_eq topic since scheduled)
        (before.shownRows_editTableAll later topic since scheduled)

/-- Of two rows with one topic and one ID, both are edited by the last of two updates, whatever time
these have, and both keep their places. -/
theorem last_update_decides_among_twins :
    let clock : Instant := ⟨5, 0, by decide, by decide, by decide⟩
    let first : Message := { Message.plain "t" "a" 9 "x" with body := "one" }
    let second : Message := { Message.plain "t" "a" 0 "y" with encoding := "base64" }
    let other : Message := .plain "u" "a" 1 "z"
    let db := carryOut fresh [(clock, .add (.plain "t" "a" 2 "")), (clock, .add (.plain "t" "a" 1 "")),
      (clock, .add (.plain "u" "a" 1 ""))]
    Reachable db ∧ first.event = .message ∧ second.event = .message ∧ other.event = .message ∧
      (update first db >>= update second) = update second db ∧
      (update first db >>= update other) = update other db >>= update first ∧
      (shownRows "t" .everything true (carryOut db (updates [(clock, first), (clock, second)]))).map
        (·.position) = [2, 1] := by
  intro clock first second other db
  let run : List Act := [(clock, .add (.plain "t" "a" 2 "")), (clock, .add (.plain "t" "a" 1 "")),
    (clock, .add (.plain "u" "a" 1 ""))]
  have reachable : Reachable db := Reachable.fresh.carryOut run
  obtain ⟨table, store⟩ := last_update_decides.1 db reachable
  obtain ⟨algebra, -, reads⟩ := last_update_decides.2 db table store
  obtain ⟨-, -, pairs⟩ := algebra first rfl
  have shown : shownRows "t" .everything true db = _ :=
    (@shown_of_ordered "t" .everything true run
      [⟨2, .plain "t" "a" 1 "", true⟩, ⟨1, .plain "t" "a" 2 "", true⟩]
      (by decide) (by simp [Entry.Before, Message.plain])).1
  refine ⟨reachable, rfl, rfl, rfl, (pairs second rfl).1 ⟨rfl, rfl⟩, (pairs other rfl).2 (by decide),
    ?_⟩
  rw [((reads [(clock, first), (clock, second)]).2.2.2 "t" .everything true).positions, shown]
  rfl

end MessageStore.Store
