import MessageStore.Proofs.Store.Agreement

/-!
# Lookups and markers of an ID

A topic may have an ID more than once, since a message can be sent again.  A
lookup returns the message that is to be delivered first, and a marker stands for
the one that was added first.  They mean the same row unless a message was added
later that is to be delivered earlier; then the replay behind the ID has the row
that a lookup of it returns.
-/

namespace MessageStore.Store

open Holdings (carryOut_fresh ofRun page_eq_of_ordered)
open Relational (Database Row Table)

/-- The row of a topic with an ID that comes before all others that have them. -/
structure FirstOf (db : Database) (topic id : String) (before : Row → Row → Prop) (row : Row) :
    Prop where
  present : row ∈ messageRows db
  ofTopic : OfTopic topic row
  ofId : OfId id row
  before : ∀ other ∈ messageRows db, OfTopic topic other → OfId id other →
    other = row ∨ before row other

/-- A row whose place in the table is before that of another. -/
def StoredBefore (first second : Row) : Prop :=
  first.position < second.position

section Orders

variable {db : Database} {topic id : String} {row first : Row}

/-- The row that is found in a list of all rows in their order is the first one. -/
theorem firstOf_of_find? {rows : List Row} {before : Row → Row → Prop}
    (all : ∀ row, row ∈ rows ↔ row ∈ messageRows db) (ordered : rows.Pairwise before)
    (found : rows.find? (fun row => OfTopic topic row ∧ OfId id row) = some row) :
    FirstOf db topic id before row := by
  have isOne := List.find?_some found
  obtain ⟨ofTopic, ofId⟩ := of_decide_eq_true isOne
  refine ⟨(all row).mp (List.mem_of_find?_eq_some found), ofTopic, ofId, ?_⟩
  intro other member otherTopic otherId
  exact rel_of_find?_eq_some ordered found ((all other).mpr member)
    (decide_eq_true ⟨otherTopic, otherId⟩)

/-- A row that a lookup could have found has a first one before it. -/
theorem exists_firstRow? (lookup : FirstOf db topic id StandsAhead row) :
    ∃ first, firstRow? db topic id = some first := by
  rw [← Option.isSome_iff_exists, firstRow?, List.find?_isSome]
  exact ⟨row, lookup.present, decide_eq_true ⟨lookup.ofTopic, lookup.ofId⟩⟩

/-- The first row in the order of replays is not delivered later than the one that was added
first, and it is this one unless it is delivered earlier. -/
theorem FirstOf.time_le (lookup : FirstOf db topic id StandsAhead row)
    (marker : FirstOf db topic id StoredBefore first) :
    row = first ∨ timeOf row < timeOf first := by
  rcases lookup.before first marker.present marker.ofTopic marker.ofId with same | ahead
  · exact .inl same.symm
  rcases marker.before row lookup.present lookup.ofTopic lookup.ofId with same | added
  · exact .inl same
  · rcases ahead with earlier | ⟨-, smaller⟩
    · exact .inr earlier
    · exact absurd smaller (Int64.lt_asymm added)

end Orders

namespace Current

variable {db : Database} {table : Table} {topic id : String} {row first : Row}

/-- A lookup returns what the first row in the order of replays says. -/
theorem exists_firstOf_of_message (current : Current db table) {found : Message}
    (read : message topic id db = .ok found) :
    ∃ row, FirstOf db topic id StandsAhead row ∧ content row = .ok found := by
  obtain ⟨row, first, said⟩ := current.exists_found_of_message read
  exact ⟨row, firstOf_of_find? (fun _ => mem_orderedRows) current.orderedRows_pairwise first, said⟩

/-- The row that a marker of an ID stands for is the one that was added first. -/
theorem firstOf_of_firstRow? (current : Current db table)
    (found : firstRow? db topic id = some first) : FirstOf db topic id StoredBefore first :=
  firstOf_of_find? (fun _ => Iff.rfl) current.messageRows_ordered found

/-- Rows are replayed behind the one that was added first. -/
theorem mem_shownRows_message_iff (current : Current db table)
    (found : firstRow? db topic id = some first) :
    row ∈ shownRows topic (.message id) false db ↔
      row ∈ messageRows db ∧ OfTopic topic row ∧ IsPublished row ∧ StoredBefore first row := by
  rw [current.shownRows_eq, List.mem_filter, mem_orderedRows, decide_eq_true_eq]
  simp only [AskedFor, found, Bool.false_eq_true, false_or]
  constructor
  · rintro ⟨present, ofTopic, behind | scheduled, published⟩
    · exact ⟨present, ofTopic, published, behind⟩
    · cases scheduled.symm.trans published
  · rintro ⟨present, ofTopic, published, behind⟩
    exact ⟨present, ofTopic, .inl behind, published⟩

/-- The row that a lookup finds is replayed behind the marker of its ID if it is published and to be
delivered before the one that the marker stands for. -/
theorem firstOf_mem_shownRows_iff (current : Current db table)
    (found : firstRow? db topic id = some first) (lookup : FirstOf db topic id StandsAhead row) :
    row ∈ shownRows topic (.message id) false db ↔ IsPublished row ∧ timeOf row < timeOf first := by
  have marker := current.firstOf_of_firstRow? found
  rw [current.mem_shownRows_message_iff found]
  constructor
  · rintro ⟨-, -, published, behind⟩
    refine ⟨published, (lookup.time_le marker).resolve_left ?_⟩
    rintro rfl
    exact Int64.lt_irrefl behind
  · rintro ⟨published, earlier⟩
    refine ⟨lookup.present, lookup.ofTopic, published, ?_⟩
    rcases marker.before row lookup.present lookup.ofTopic lookup.ofId with rfl | behind
    · exact absurd earlier (Int.lt_irrefl _)
    · exact behind

end Current

/-- A lookup returns the row of a topic with an ID that is to be delivered first, and a marker of
the ID stands for the one that was added first.  The row that is looked up is replayed behind the
marker exactly if it is published and to be delivered before the other; so it is not where no row
that was added later is to be delivered earlier, and in particular where the ID is there once. -/
theorem lookup_replayed_iff (db : Database) (reachable : Reachable db) (topic id : String)
    (found : Message) (read : message topic id db = .ok found) :
    ∃ row first, FirstOf db topic id StandsAhead row ∧ content row = .ok found ∧
      FirstOf db topic id StoredBefore first ∧
      ReadFrom db
        (fun other => OfTopic topic other ∧ IsPublished other ∧ StoredBefore first other)
        (shownRows topic (.message id) false db) (messages topic (.message id) false db) ∧
      (row ∈ shownRows topic (.message id) false db ↔
        IsPublished row ∧ timeOf row < timeOf first) ∧
      ((∀ other ∈ messageRows db, OfTopic topic other → OfId id other →
          timeOf first ≤ timeOf other) →
        row = first ∧ row ∉ shownRows topic (.message id) false db) ∧
      (Sole db topic id → row = first ∧ row ∉ shownRows topic (.message id) false db) := by
  obtain ⟨table, current⟩ := reachable.exists_current
  obtain ⟨row, lookup, said⟩ := current.exists_firstOf_of_message read
  obtain ⟨first, isFirst⟩ := exists_firstRow? lookup
  have marker := current.firstOf_of_firstRow? isFirst
  have shown := current.firstOf_mem_shownRows_iff isFirst lookup
  have together (least : ¬ timeOf row < timeOf first) :
      row = first ∧ row ∉ shownRows topic (.message id) false db :=
    ⟨(lookup.time_le marker).resolve_right least, fun member => least (shown.mp member).2⟩
  have source := current.readFrom_messages topic (.message id) false
  refine ⟨row, first, lookup, said, marker,
    { source with mem_iff := fun _ => current.mem_shownRows_message_iff isFirst }, shown, ?_, ?_⟩
  · intro ordered
    exact together (Int.not_lt.mpr (ordered row lookup.present lookup.ofTopic lookup.ofId))
  · intro sole
    have same := sole row lookup.present first marker.present lookup.ofTopic lookup.ofId
      marker.ofTopic marker.ofId
    exact together (same ▸ Int.lt_irrefl _)

/-- Of two messages that were added with one ID for one second, a lookup returns the first, and the
second is replayed behind the ID. -/
theorem lookup_replayed_iff_same_time :
    let clock : Instant := ⟨5, 0, by decide, by decide, by decide⟩
    let first : Message := .plain "t" "a" 1 "x"
    let second : Message := .plain "t" "a" 1 "y"
    let db := carryOut fresh [(clock, .add first), (clock, .add second)]
    Reachable db ∧ message "t" "a" db = .ok first ∧
      messages "t" (.message "a") false db = .ok [second] ∧
      ∃ row, content row = .ok first ∧ row ∉ shownRows "t" (.message "a") false db := by
  intro clock first second db
  let run : List Act := [(clock, .add first), (clock, .add second)]
  have reachable : Reachable db := Reachable.fresh.carryOut run
  have times : ∀ row ∈ messageRows db, timeOf row = 1 := by
    have rows : messageRows db = [⟨1, newRow first true⟩, ⟨2, newRow second true⟩] :=
      @messageRows_ofRun run [⟨1, first, true⟩, ⟨2, second, true⟩] (by decide)
    rw [rows]
    decide
  have read : message "t" "a" db = .ok first := by
    have page : (ofRun run).page (fun entry => entry.message.topic = "t" ∧ entry.message.id = "a") =
        [⟨1, first, true⟩, ⟨2, second, true⟩] :=
      page_eq_of_ordered (by decide) (by simp [Entry.Before, first, second, Message.plain])
    change message "t" "a" (carryOut fresh run) = _
    rw [carryOut_fresh, Holdings.message_db, page]
    rfl
  have replayed : messages "t" (.message "a") false db = .ok [second] :=
    (@shown_of_ordered "t" (.message "a") false run [⟨2, second, true⟩]
      (by decide) (List.pairwise_singleton _ _)).2
  obtain ⟨row, marked, -, said, marker, -, -, ordered, -⟩ :=
    lookup_replayed_iff db reachable "t" "a" first read
  refine ⟨reachable, read, replayed, row, said, (ordered fun other member _ _ => ?_).2⟩
  exact Int.le_of_eq ((times marked marker.present).trans (times other member).symm)

/-- A message that was added with the ID of another, to be delivered earlier, is the one that a
lookup returns, and it is replayed behind its own ID. -/
theorem earlier_twin_replayed :
    let clock : Instant := ⟨5, 0, by decide, by decide, by decide⟩
    let first : Message := .plain "t" "a" 2 "x"
    let second : Message := .plain "t" "a" 1 "y"
    let db := carryOut fresh [(clock, .add first), (clock, .add second)]
    Reachable db ∧ message "t" "a" db = .ok second ∧
      shownRows "t" (.message "a") false db = [⟨2, newRow second true⟩] ∧
      content ⟨2, newRow second true⟩ = .ok second ∧
      messages "t" (.message "a") false db = .ok [second] := by
  intro clock first second db
  let run : List Act := [(clock, .add first), (clock, .add second)]
  have reachable : Reachable db := Reachable.fresh.carryOut run
  have read : message "t" "a" (carryOut fresh run) = .ok second := by
    have page : (ofRun run).page (fun entry => entry.message.topic = "t" ∧ entry.message.id = "a") =
        [⟨2, second, true⟩, ⟨1, first, true⟩] :=
      page_eq_of_ordered (by decide) (by simp [Entry.Before, first, second, Message.plain])
    rw [carryOut_fresh, Holdings.message_db, page]
    rfl
  obtain ⟨shown, replayed⟩ := @shown_of_ordered "t" (.message "a") false run [⟨2, second, true⟩]
    (by decide) (List.pairwise_singleton _ _)
  exact ⟨reachable, read, shown, by decide, replayed⟩

end MessageStore.Store
