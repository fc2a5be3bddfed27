import MessageStore.Proofs.Relational.Names
import MessageStore.Proofs.Store.Cells
import MessageStore.Proofs.Store.Standing

/-!
# Messages that are written back

A message that is read from a row holds all that an update would replace there:
its tags are joined to the text that they were split from, and an attachment
that is not shown is not written.  So writing back what a lookup returned
changes nothing, and whoever edits one part of it first changes this part only.
That a table takes its own place changes nothing either, since no two tables of
a store have the same name.
-/

namespace MessageStore

namespace Schema

open Relational (Database Statement)

/-! ## Tables that are told apart -/

section Names

variable {db after : Database}

/-- The rebuilt table of messages gets its name once the old one is dropped. -/
theorem rebuild_apart (done : Statement.execAll db rebuild = .ok after) (apart : db.Apart) :
    after.Apart := by
  obtain ⟨created, create, done⟩ := bind_eq_ok_iff.mp done
  obtain ⟨filled, copy, done⟩ := bind_eq_ok_iff.mp done
  obtain ⟨dropped, drop, done⟩ := bind_eq_ok_iff.mp done
  obtain ⟨renamed, rename, done⟩ := bind_eq_ok_iff.mp done
  have filledApart := Statement.exec_apart copy rfl (Statement.exec_apart create rfl apart)
  obtain ⟨droppedApart, free⟩ := filledApart.dropTable drop
  exact Statement.execAll_apart done rfl (droppedApart.renameTable free rename)

/-- A step keeps tables apart. -/
theorem Step.apply_apart {step : Step} (member : step ∈ steps)
    (done : step.apply none db = .ok after) (apart : db.Apart) : after.Apart := by
  obtain ⟨changed, body, record⟩ := Step.apply_eq_ok_iff.mp done
  refine Statement.execAll_apart record (recordVersion_removes_nothing step) ?_
  rcases body_removes_nothing member with rebuilds | removes
  · rw [rebuilds] at body
    exact rebuild_apart body apart
  · refine Statement.execAll_apart body ?_ apart
    rcases step.body.statementsFor_eq db with all | none
    · rw [all, removes]
    · rw [none]
      rfl

/-- An ascent keeps tables apart. -/
theorem ascend_apart {source target : Nat} (done : ascend source target db = .ok after)
    (apart : db.Apart) : after.Apart := by
  have each (chain : List Step) (members : ∀ step ∈ chain, step ∈ steps) (db : Database)
      (done : chain.foldlM (fun db step => step.apply none db) db = .ok after)
      (apart : db.Apart) : after.Apart := by
    induction chain generalizing db with
    | nil =>
        cases done
        exact apart
    | cons step rest ih =>
        rw [List.foldlM_cons] at done
        obtain ⟨next, first, done⟩ := bind_eq_ok_iff.mp done
        obtain ⟨member, members⟩ := List.forall_mem_cons.mp members
        exact ih members next done (Step.apply_apart member first apart)
  exact each (stepsBetween source target) (fun step member => (List.mem_filter.mp member).1) db done
    apart

/-- A store of an earlier version has one table of each name. -/
theorem LaidOut.apart {version layout : Nat} {table : Relational.Table}
    (laidOut : LaidOut version layout db table) : db.Apart := by
  have symmetric {first second : String} (different : Relational.sameName first second = false) :
      Relational.sameName second first = false :=
    (Relational.sameName_comm second first).trans different
  refine (laidOut.tables.pairwise_iff symmetric).mpr ?_
  split <;> decide

end Names

end Schema

namespace Store

open Relational (Database Row Table)

/-- No two tables of a store that can be reached have the same name. -/
theorem Reachable.apart {db : Database} (reachable : Reachable db) : db.Apart := by
  induction reachable with
  | fresh => exact (by decide : (["messages", "schemaVersion"] : List String).Pairwise
      fun first second => Relational.sameName first second = false)
  | @migrated version layout db table laidOut _ =>
      have standing := laidOut.holds.standing
      have reachable : version ≤ Schema.currentVersion := by
        rcases laidOut.inLayout with ⟨below, _⟩ | ⟨rfl, _⟩
        · exact Nat.le_of_lt (Nat.lt_trans below (by decide))
        · decide
      obtain ⟨_, reached⟩ := Schema.setupTo_reached standing reachable (Nat.le_refl _)
      exact Schema.ascend_apart reached.chain laidOut.apart
  | @acted db _ act ih =>
      rcases edited_perform act.1 db act.2 with same | ⟨_, table, _, _, same⟩
      · rwa [same]
      · rw [same]
        exact ih.congr (Database.replace_names db table)

/-! ## Writing back -/

section Back

variable {db : Database} {table : Table} {row : Row} {shown : Message}

/-- A row holds what an update with its message would put there. -/
theorem Current.lookup_editedCells (current : Current db table) (present : row ∈ table.rows)
    (priority : HasPriority row) :
    ∀ name ∈ editedNames, row.cells.lookup name = (editedCells (messageOf row)).lookup name := by
  intro name member
  simp only [editedNames, List.mem_cons, List.not_mem_nil, or_false] at member
  rcases member with rfl | rfl | rfl | rfl | rfl | rfl
  · exact current.lookup_integer present (by decide)
  · exact current.lookup_text present (by decide)
  · exact current.lookup_text present (by decide)
  · change _ = some (priorityCell (UInt8.ofNat _))
    rw [priorityCell_ofNat priority.1 priority.2]
    exact current.lookup_integer present (by decide)
  · -- The tags are joined to the text that they were split from.
    change _ = some (Relational.Cell.text (Tags.join (Tags.split (textOf "tags" row))))
    rw [Tags.join_split]
    exact current.lookup_text present (by decide)
  · exact current.lookup_text present (by decide)

/-- Under each of its names a row has one cell. -/
theorem Current.nodup_names (current : Current db table) (present : row ∈ table.rows) :
    (row.cells.map Prod.fst).Nodup := by
  rw [(current.laid.rows row present).names]
  exact current.laid.distinct.nodup.sublist (List.filter_sublist.map _)

/-- An update of a row with the message that is read from it changes nothing. -/
theorem Current.edit_eq_self (current : Current db table) (present : row ∈ messageRows db)
    (read : content row = .ok shown) : edit shown row = row := by
  obtain ⟨priority, rfl⟩ := (current.content_eq_ok_iff present).mp read
  rw [current.messageRows_eq] at present
  unfold edit
  split
  · refine row.putAll_eq_self fun cell member other given => ?_
    have stands := Relational.lookup_of_mem (current.nodup_names present) member
    have listed : (editedCells (messageOf row)).lookup cell.1 = some other :=
      Relational.lookup_of_mem (by decide : editedNames.Nodup) given
    have replaced : cell.1 ∈ editedNames := List.mem_map_of_mem (f := Prod.fst) given
    rw [current.lookup_editedCells present priority _ replaced, listed] at stands
    exact Option.some.inj stands
  · rfl

/-- An update with a message that one row only has the topic and the ID of, and that is read from
it, edits every row into itself. -/
theorem Current.editTable_eq_self (current : Current db table) (present : row ∈ messageRows db)
    (read : content row = .ok shown) (sole : Sole db shown.topic shown.id) :
    editTable shown table = table := by
  have stands := current.standsIn present read
  have each : ∀ other ∈ table.rows, edit shown other = id other := by
    intro other otherPresent
    rw [← current.messageRows_eq] at otherPresent
    by_cases own : OfTopic shown.topic other ∧ OfId shown.id other
    · obtain rfl := sole other otherPresent row present own.1 own.2 stands.topic stands.id
      exact current.edit_eq_self present read
    · exact edit_of_other own
  unfold editTable
  rw [List.map_congr_left each, List.map_id]

/-- An update replaces a cell by the same one where it gives what the message of the row gives. -/
theorem Current.lookup_edit_of_agree (current : Current db table) (present : row ∈ messageRows db)
    (read : content row = .ok shown) {changed : Message} {name : String}
    (agree : (editedCells changed).lookup name = (editedCells shown).lookup name) :
    (edit changed row).cells.lookup name = row.cells.lookup name := by
  by_cases own : OfTopic changed.topic row ∧ OfId changed.id row
  · by_cases replaced : name ∈ editedNames
    · obtain ⟨priority, rfl⟩ := (current.content_eq_ok_iff present).mp read
      rw [current.lookup_edit_of_own present own replaced, agree]
      rw [current.messageRows_eq] at present
      exact (current.lookup_editedCells present priority name replaced).symm
    · exact lookup_edit replaced
  · rw [edit_of_other own]

end Back

/-- In every store that can be reached, take a row that alone has its topic and its ID.  A lookup
returns its message exactly if an integer stands there as the priority that is one, and writing this
message back leaves the whole database as it is, whatever texts the row holds.  Whoever changes it
before, and writes it back to its place, replaces cells of this row only, and of these only those
that the change is about. -/
theorem written_back_unchanged {db : Database} (reachable : Reachable db) {topic id : String}
    {row : Row} (present : row ∈ messageRows db) (ofTopic : OfTopic topic row) (ofId : OfId id row)
    (sole : Sole db topic id) :
    ((∃ shown, message topic id db = .ok shown) ↔ HasPriority row) ∧
    ∀ shown, message topic id db = .ok shown →
      update shown db = .ok db ∧
      ∀ changed : Message, changed.event = .message → changed.topic = topic → changed.id = id →
        ∃ after, update changed db = .ok after ∧
          (∀ name, Relational.sameName Schema.messageTable name = false →
            after.table? name = db.table? name) ∧
          messageRows after = (messageRows db).map (edit changed) ∧
          (∀ other ∈ messageRows db, other ≠ row → edit changed other = other) ∧
          (edit changed row).position = row.position ∧
          (edit changed row).cells.map Prod.fst = row.cells.map Prod.fst ∧
          ∀ name, (editedCells changed).lookup name = (editedCells shown).lookup name →
            (edit changed row).cells.lookup name = row.cells.lookup name := by
  obtain ⟨table, store⟩ := reachable.exists_writable
  have current := store.toCurrent
  rw [current.message_of_sole present ofTopic ofId sole]
  constructor
  · simp only [current.content_eq_ok_iff present, exists_and_left, exists_eq, and_true]
  · intro shown read
    have stands := current.standsIn present read
    have sameTopic : shown.topic = topic := stands.ofTopic_iff.mp ofTopic
    have sameId : shown.id = id := stands.id_eq ofId
    have event : shown.event = .message := by
      rw [((current.content_eq_ok_iff present).mp read).2]
      rfl
    constructor
    · have soleShown : Sole db shown.topic shown.id := by rwa [sameTopic, sameId]
      rw [store.update_eq event, editStore, current.editTable_eq_self present read soleShown,
        reachable.apart.replace_eq_self current.found]
    · rintro changed changedEvent rfl rfl
      refine ⟨editStore changed db table, store.update_eq changedEvent, ?_, ?_, ?_, position_edit,
        names_edit, fun name agree => current.lookup_edit_of_agree present read agree⟩
      · exact fun name different => Database.replace_frame store.writable rfl different
      · rw [store.editStore.messageRows_eq, current.messageRows_eq]
        rfl
      · intro other otherPresent different
        refine edit_of_other fun own => different ?_
        exact sole other otherPresent row present own.1 own.2 ofTopic ofId

/-- Tags with commas and an attachment without a name are written back as they are stored, and a
change of the title leaves them alone. -/
theorem written_back_unchanged_partial :
    let clock : Instant := ⟨5, 0, by decide, by decide, by decide⟩
    let added : Message :=
      { Message.plain "t" "a" 2 "" with
        tags := ["x,y", ""]
        attachment := some { Attachment.bare "" "u" with owner := "o" } }
    let entry : Entry := ⟨1, added, true⟩
    let db := carryOut fresh [(clock, .add added), (clock, .add (.plain "u" "a" 1 ""))]
    let shown : Message := { Message.plain "t" "a" 2 "" with tags := ["x", "y", ""] }
    let changed : Message := { shown with title := "new" }
    Reachable db ∧ entry.row ∈ messageRows db ∧ Sole db "t" "a" ∧
      message "t" "a" db = .ok shown ∧ update shown db = .ok db ∧
      (edit changed entry.row).cells.lookup "tags" = some (.text "x,y,") := by
  intro clock added entry db shown changed
  let run : List Act := [(clock, .add added), (clock, .add (.plain "u" "a" 1 ""))]
  have reachable : Reachable db := Reachable.fresh.carryOut run
  have present : entry.row ∈ messageRows db :=
    mem_messageRows_iff.mpr ⟨entry, (by decide : entry ∈ (Holdings.ofRun run).entries), rfl⟩
  have sole : Sole db "t" "a" := by
    have alone : ∀ other ∈ (Holdings.ofRun run).entries,
        other.message.topic = "t" → other.message.id = "a" → other = entry := by
      decide
    have only {row : Row} (member : row ∈ messageRows db) (ofTopic : OfTopic "t" row)
        (ofId : OfId "a" row) : row = entry.row := by
      obtain ⟨other, otherMember, rfl⟩ := mem_messageRows_iff.mp member
      rw [alone other otherMember (other.ofTopic_row.mp ofTopic) (other.ofId_row.mp ofId)]
    intro first member second otherMember firstTopic firstId secondTopic secondId
    rw [only member firstTopic firstId, only otherMember secondTopic secondId]
  obtain ⟨table, current⟩ := reachable.exists_current
  have found : message "t" "a" db = .ok shown := by
    have stored : added.stored = shown := by decide
    rw [← stored]
    exact (current.message_of_sole present rfl rfl sole).trans (content_newRow added 1 true)
  obtain ⟨-, back⟩ := written_back_unchanged reachable present rfl rfl sole
  obtain ⟨same, changes⟩ := back shown found
  obtain ⟨after, -, -, -, -, -, -, kept⟩ := changes changed rfl rfl rfl
  exact ⟨reachable, present, sole, found, same, kept "tags" rfl⟩

end Store

end MessageStore
