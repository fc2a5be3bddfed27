import MessageStore.Proofs.Store.Effects

/-!
# Pages

What a query for messages returns from a store: the entries that are wanted,
each once, by time and then by position.  A subscriber's marker comes down to
such a query, where the marker of a message stands for the first entry of this
topic and ID.  Lookups and counts follow from the entries in the same way.
-/

namespace MessageStore.Store

open Relational (Row)

/-! ## The order of pages -/

/-- An entry that stands before another on a page: it is to be delivered earlier, or at the same
time and was added earlier. -/
def Entry.Before (first second : Entry) : Prop :=
  first.message.time < second.message.time ∨
    first.message.time = second.message.time ∧ first.position < second.position

/-- Whether an entry may stand before another on a page. -/
def Entry.precedes (first second : Entry) : Bool :=
  first.message.time < second.message.time ∨
    first.message.time = second.message.time ∧ first.position ≤ second.position

/-- Rows of entries are ordered as the entries are. -/
theorem mayPrecede_row (first second : Entry) :
    mayPrecede first.row second.row = first.precedes second := by
  rw [mayPrecede, Entry.precedes, decide_eq_decide]
  simp only [Int64.lt_iff_toInt_lt, ← Int64.toInt_inj]
  exact Iff.rfl

theorem standsAhead_row {first second : Entry} :
    StandsAhead first.row second.row ↔ first.Before second := by
  simp only [StandsAhead, Entry.Before, Int64.lt_iff_toInt_lt, ← Int64.toInt_inj]
  exact Iff.rfl

theorem Entry.precedes_trans (first second third : Entry) (earlier : first.precedes second)
    (later : second.precedes third) : first.precedes third := by
  rw [← mayPrecede_row] at *
  exact mayPrecede_trans _ _ _ earlier later

theorem Entry.precedes_total (first second : Entry) :
    first.precedes second || second.precedes first := by
  rw [← mayPrecede_row, ← mayPrecede_row]
  exact mayPrecede_total _ _

theorem Entry.before_of_precedes {first second : Entry} (may : first.precedes second)
    (apart : first.position ≠ second.position) : first.Before second := by
  rw [← mayPrecede_row] at may
  exact standsAhead_row.mp (standsAhead_of_mayPrecede may apart)

namespace Holdings

variable {holdings : Holdings}

/-- The entries that are wanted, in the order of pages. -/
def page (holdings : Holdings) (wanted : Entry → Bool) : List Entry :=
  (holdings.entries.filter wanted).mergeSort Entry.precedes

theorem mem_page_iff {wanted : Entry → Bool} {entry : Entry} :
    entry ∈ holdings.page wanted ↔ entry ∈ holdings.entries ∧ wanted entry = true := by
  rw [page, List.mem_mergeSort, List.mem_filter]

/-- A page has no two entries with one position. -/
theorem page_apart (wanted : Entry → Bool) :
    (holdings.page wanted).Pairwise fun first second => first.position ≠ second.position :=
  (List.mergeSort_perm _ _).symm.pairwise (holdings.apart.filter _) Ne.symm

/-- Pages are in strict order. -/
theorem page_ordered (wanted : Entry → Bool) :
    (holdings.page wanted).Pairwise Entry.Before := by
  have sorted : (holdings.page wanted).Pairwise fun first second => first.precedes second :=
    List.pairwise_mergeSort Entry.precedes_trans Entry.precedes_total _
  exact sorted.imp₂ (fun first second => Entry.before_of_precedes) (page_apart wanted)

/-- What is wanted, in strict order, is the page. -/
theorem page_eq_of_ordered {wanted : Entry → Bool} {entries : List Entry}
    (all : entries.Perm (holdings.entries.filter wanted)) (ordered : entries.Pairwise Entry.Before) :
    holdings.page wanted = entries := by
  refine List.Perm.eq_of_pairwise ?_ (page_ordered wanted) ordered
    ((List.mergeSort_perm _ _).trans all.symm)
  intro first second _ _ before behind
  simp only [Entry.Before, Int64.lt_iff_toInt_lt, ← Int64.toInt_inj] at before behind
  omega

/-- Leaving entries of a page out leaves the page of the others. -/
theorem filter_page (wanted further : Entry → Bool) :
    (holdings.page wanted).filter further =
      holdings.page fun entry => further entry && wanted entry := by
  refine (page_eq_of_ordered ?_ ((page_ordered wanted).filter _)).symm
  rw [← List.filter_filter]
  exact (List.mergeSort_perm _ _).filter further

/-! ## Rows in the order of pages -/

theorem orderedRows_db :
    orderedRows holdings.db = (holdings.page fun _ => true).map Entry.row := by
  rw [orderedRows, messageRows_db, page, List.filter_true,
    List.map_mergeSort (s := mayPrecede) fun first _ second _ => (mayPrecede_row first second).symm]

/-- The rows that are wanted are those of a page. -/
theorem filter_orderedRows (wanted : Row → Bool) :
    (orderedRows holdings.db).filter wanted =
      (holdings.page fun entry => wanted entry.row).map Entry.row := by
  rw [orderedRows_db, List.filter_map, filter_page]
  simp only [Function.comp_apply, Bool.and_true]

/-- The messages in the rows of entries are those of the entries, as they are read back. -/
theorem mapM_content_rows (entries : List Entry) :
    (entries.map Entry.row).mapM content = .ok (entries.map (·.message.stored)) := by
  have read : ∀ entry : Entry, content entry.row = .ok entry.message.stored := by
    intro entry
    exact content_newRow entry.message entry.position entry.published
  exact List.mapM_map.trans (mapM_of_ok read _)

/-- The messages of entries, as they are read back, are those in the rows of the entries. -/
theorem shows_rows (entries : List Entry) :
    Shows (.ok (entries.map (·.message.stored))) (entries.map Entry.row) :=
  ⟨_, rfl, mapM_content_rows entries⟩

end Holdings

/-! ## Pages for subscribers -/

/-- Whether a replay wants an entry of its topic. -/
def Replay.wants : Replay → Entry → Bool
  | nothing, _ => false
  | fromSecond second scheduled, entry =>
      second ≤ entry.message.time ∧ (scheduled = true ∨ entry.published)
  | behind position true, entry => position < entry.position ∨ !entry.published
  | behind position false, entry => position < entry.position ∧ entry.published

namespace Holdings

/-- The first entry of a topic with an ID. -/
def first? (holdings : Holdings) (topic id : String) : Option Entry :=
  holdings.entries.find? fun entry => entry.message.topic = topic ∧ entry.message.id = id

/-- The first entry of a topic with an ID has the least position. -/
theorem first?_eq_some {holdings : Holdings} {topic id : String} {entry : Entry}
    (found : holdings.first? topic id = some entry) :
    entry ∈ holdings.entries ∧ entry.message.topic = topic ∧ entry.message.id = id ∧
      ∀ other ∈ holdings.entries, other.message.topic = topic → other.message.id = id →
        other = entry ∨ entry.position < other.position := by
  have isOne := List.find?_some found
  obtain ⟨ofTopic, ofId⟩ := of_decide_eq_true isOne
  refine ⟨List.mem_of_find?_eq_some found, ofTopic, ofId, fun other member topic id => ?_⟩
  exact rel_of_find?_eq_some holdings.ordered found member (decide_eq_true ⟨topic, id⟩)

/-- The replay that a marker stands for. -/
def replay (holdings : Holdings) (topic : String) (since : Since) (scheduled : Bool) : Replay :=
  match since with
  | .nothing => .nothing
  | .everything => .fromSecond 0 scheduled
  | .time instant => .fromSecond (Int64.ofInt instant.seconds) scheduled
  | .message id =>
      match holdings.first? topic id with
      | some entry => .behind entry.position scheduled
      | none => .fromSecond 0 scheduled

variable {holdings : Holdings}

/-- The marker of a message that is not there stands for everything. -/
theorem replay_of_none {topic id : String} {scheduled : Bool}
    (found : holdings.first? topic id = none) :
    holdings.replay topic (.message id) scheduled = .fromSecond 0 scheduled := by
  simp only [replay, found]

/-- The marker of a message stands for what is behind its first entry. -/
theorem replay_of_some {topic id : String} {scheduled : Bool} {entry : Entry}
    (found : holdings.first? topic id = some entry) :
    holdings.replay topic (.message id) scheduled = .behind entry.position scheduled := by
  simp only [replay, found]

theorem firstRow?_db (topic id : String) :
    firstRow? holdings.db topic id = (holdings.first? topic id).map Entry.row := by
  rw [firstRow?, messageRows_db, List.find?_map, first?]
  simp only [Function.comp_def, Entry.ofTopic_row, Entry.ofId_row]

/-- What a marker asks for is what its replay wants. -/
theorem wants_replay (topic : String) (since : Since) (scheduled : Bool) (entry : Entry) :
    (holdings.replay topic since scheduled).wants entry =
      decide (AskedFor holdings.db topic since entry.row ∧
        (scheduled = true ∨ IsPublished entry.row)) := by
  have fromSecond (second : Int64) : (Replay.fromSecond second scheduled).wants entry =
      decide (second.toInt ≤ timeOf entry.row ∧ (scheduled = true ∨ IsPublished entry.row)) := by
    rw [Replay.wants, decide_eq_decide, entry.isPublished_row, Int64.le_iff_toInt_le]
    exact Iff.rfl
  have behind (position : Int64) : (Replay.behind position scheduled).wants entry =
      decide ((position < entry.row.position ∨ IsScheduled entry.row) ∧
        (scheduled = true ∨ IsPublished entry.row)) := by
    have later : entry.row.position = entry.position := rfl
    cases scheduled <;>
      rw [Replay.wants, decide_eq_decide, entry.isScheduled_row, entry.isPublished_row, later] <;>
      cases entry.published <;> simp
  cases since with
  | nothing => rfl
  | everything => exact fromSecond 0
  | time instant =>
      refine (fromSecond _).trans ?_
      rw [toInt_second]
      rfl
  | message id =>
      have row : firstRow? holdings.db topic id = _ := firstRow?_db topic id
      cases found : holdings.first? topic id with
      | none =>
          rw [found] at row
          rw [replay_of_none found, fromSecond, decide_eq_decide]
          simp only [AskedFor, row]
          rfl
      | some first =>
          rw [found] at row
          rw [replay_of_some found, behind, decide_eq_decide]
          simp only [AskedFor, row]
          rfl

/-- The entries of a topic that a replay wants, in the order of pages. -/
def replayed (holdings : Holdings) (topic : String) (replay : Replay) : List Entry :=
  holdings.page fun entry => entry.message.topic = topic ∧ replay.wants entry = true

theorem mem_replayed_iff {topic : String} {replay : Replay} {entry : Entry} :
    entry ∈ holdings.replayed topic replay ↔
      entry ∈ holdings.entries ∧ entry.message.topic = topic ∧ replay.wants entry = true := by
  rw [replayed, mem_page_iff, decide_eq_true_eq]

/-- The messages that a subscriber is shown who has a marker. -/
def shown (holdings : Holdings) (topic : String) (since : Since) (scheduled : Bool) :
    List Message :=
  (holdings.replayed topic (holdings.replay topic since scheduled)).map (·.message.stored)

/-- The rows that a subscriber is shown are those of the entries that the replay wants. -/
theorem shownRows_db (topic : String) (since : Since) (scheduled : Bool) :
    shownRows topic since scheduled holdings.db =
      (holdings.replayed topic (holdings.replay topic since scheduled)).map Entry.row := by
  rw [holdings.current.shownRows_eq, filter_orderedRows, replayed]
  simp only [Entry.ofTopic_row, wants_replay, decide_eq_true_eq]

/-- The messages that a marker wants are those of the entries that its replay wants. -/
theorem messages_db (topic : String) (since : Since) (scheduled : Bool) :
    messages topic since scheduled holdings.db =
      .ok (holdings.shown topic since scheduled) := by
  rw [holdings.current.messages_eq, shownRows_db, mapM_content_rows, shown]

/-- A page shows the messages as they stand in its rows. -/
theorem shows_messages (topic : String) (since : Since) (scheduled : Bool) :
    Shows (messages topic since scheduled holdings.db)
      (shownRows topic since scheduled holdings.db) := by
  rw [messages_db, shownRows_db]
  exact shows_rows _

end Holdings

/-! ## Messages that are due -/

/-- Whether an entry is due at a time and not published. -/
def Entry.awaits (now : Instant) (entry : Entry) : Bool :=
  entry.message.time.toInt ≤ now.seconds ∧ !entry.published

namespace Holdings

variable {holdings : Holdings} (now : Instant)

theorem dueRows_db :
    dueRows now holdings.db = (holdings.page (Entry.awaits now)).map Entry.row := by
  rw [holdings.current.dueRows_eq, filter_orderedRows]
  congr 2
  funext entry
  rw [Entry.awaits, decide_eq_decide, entry.isScheduled_row, and_comm, Bool.not_eq_true']
  exact Iff.rfl

/-- The messages that are due are those of the entries that await the time. -/
theorem due_db :
    due now holdings.db = .ok ((holdings.page (Entry.awaits now)).map (·.message.stored)) := by
  rw [holdings.current.due_eq, dueRows_db, mapM_content_rows]

/-- What is due is returned as it stands in its rows. -/
theorem shows_due : Shows (due now holdings.db) (dueRows now holdings.db) := by
  rw [due_db, dueRows_db]
  exact shows_rows _

end Holdings

/-! ## Lookups and counts -/

namespace Holdings

variable {holdings : Holdings}

/-- A lookup returns the first message with the ID by time and position, if there is one. -/
theorem message_db (topic id : String) :
    message topic id holdings.db =
      match ((holdings.page fun entry => entry.message.topic = topic ∧
          entry.message.id = id).map (·.message.stored)).head? with
      | some found => .ok found
      | none => .error (.of (.messageNotFound topic id)) := by
  rw [holdings.current.message_eq, ← List.head?_filter, filter_orderedRows]
  simp only [Entry.ofTopic_row, Entry.ofId_row, List.head?_map]
  cases (holdings.page _).head? with
  | none => rfl
  | some entry => exact content_newRow entry.message entry.position entry.published

/-- A topic has as many messages as entries. -/
theorem count_db (topic : String) :
    count topic holdings.db =
      .ok (holdings.entries.filter fun entry => entry.message.topic = topic).length := by
  rw [holdings.current.count_eq, messageRows_db, List.filter_map, List.length_map]
  simp only [Function.comp_def, Entry.ofTopic_row]

end Holdings

end MessageStore.Store
