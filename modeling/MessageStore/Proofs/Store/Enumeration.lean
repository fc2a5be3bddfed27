import MessageStore.Proofs.Store.Cells
import MessageStore.Proofs.Store.Pruning
import MessageStore.Proofs.Text.Utf8
import MessageStore.Proofs.Topics

/-!
# Topics and their counts

The topics that a store lists are the distinct topics of its rows, in the order of
their names, whatever characters these have: the order of the query is that of
texts, and this is that of their bytes.  A topic is listed exactly if it has a
message, and what is counted of the listed topics is the number of rows, which
grows by one with every message that is added and falls only by what a prune
deletes.
-/

namespace MessageStore.Store

open Relational (Cell Condition Database Query Row Selected Table)
open Schema (layoutColumns messageTable)

/-! ## Topics -/

/-- The topic of a row. -/
def topicOf (row : Row) : Topic :=
  ⟨textOf "topic" row⟩

/-- A query for topics. -/
def topicQuery : Query where
  table := messageTable
  columns := ["topic"]
  orderBy := ["topic"]

/-- A topic as a query for topics returns it. -/
def selectedTopic (topic : Topic) : Selected :=
  [("topic", .text topic.id)]

/-- Results of a query for topics hold the same cells if the topics are the same. -/
theorem sameCells_selectedTopic (first second : Topic) :
    sameCells (selectedTopic first) (selectedTopic second) = (first == second) := by
  change ((Cell.orderText first.id second.id).then .eq == .eq) = _
  rw [Ordering.then_eq, Bool.eq_iff_iff, beq_iff_eq, beq_iff_eq, Cell.orderText_eq_eq_iff]
  exact ⟨congrArg Topic.mk, congrArg Topic.id⟩

section Topics

variable {db : Database} {table : Table}

/-- A query for topics shows the topic of a row. -/
theorem Current.project_topic (current : Current db table) {row : Row} (present : row ∈ table.rows) :
    Query.project table ["topic"] row = selectedTopic (topicOf row) :=
  current.project_text present (by decide)

/-- What a query for topics returns are the topics of the rows, in the order of their names. -/
theorem Current.run_topicQuery (current : Current db table) :
    topicQuery.run db =
      .ok ((Topic.sorted ((messageRows db).map topicOf)).map selectedTopic) := by
  have names : ∀ name ∈ topicQuery.names, ∃ column ∈ layoutColumns 6, column.name = name := by
    decide
  have agree : ∀ first ∈ table.rows, ∀ second ∈ table.rows,
      Query.precedes table ["topic"] first second =
        decide ((topicOf first).id ≤ (topicOf second).id) := by
    intro first member second otherMember
    unfold Query.precedes
    rw [current.project_topic member, current.project_topic otherMember]
    change ((Cell.orderText (topicOf first).id (topicOf second).id).then .eq != .gt) = _
    rw [Ordering.then_eq, Bool.eq_iff_iff, bne_iff_ne, Cell.orderText_ne_gt_iff, decide_eq_true_eq]
  have rows : topicQuery.rows table = table.rows.mergeSort (Query.precedes table ["topic"]) :=
    congrArg (List.mergeSort · (Query.precedes table ["topic"])) (List.filter_true table.rows)
  have ran : topicQuery.run db = _ := current.run_eq rfl names
  rw [ran, rows, Topic.sorted, current.messageRows_eq, ← List.map_mergeSort agree, List.map_map]
  refine congrArg Except.ok (List.map_congr_left fun row member => ?_)
  exact current.project_topic (List.mem_mergeSort.mp member)

/-- The topics that a store lists are the distinct topics of its rows. -/
theorem Current.topics_eq (current : Current db table) :
    topics db = .ok (Topic.distinct ((messageRows db).map topicOf)) := by
  change (ofEngine (topicQuery.run db) >>= fun rows => (withoutRepeats sameCells rows).mapM _) = _
  rw [current.run_topicQuery]
  change (withoutRepeats sameCells (List.map selectedTopic _)).mapM _ = _
  rw [withoutRepeats_map sameCells_selectedTopic, List.mapM_map]
  exact (mapM_of_ok (fun _ => rfl) _).trans (congrArg Except.ok (List.map_id _))

/-- A topic has as many messages as there are rows with it. -/
theorem Current.count_eq_count (current : Current db table) (topic : Topic) :
    count topic.id db = .ok (((messageRows db).map topicOf).count topic) := by
  have same : ∀ row ∈ messageRows db, decide (OfTopic topic.id row) = (topicOf row == topic) := by
    intro row present
    rw [current.messageRows_eq] at present
    have topicText := current.lookup_text present (by decide : Schema.text "topic" ∈ layoutColumns 6)
    rw [Bool.eq_iff_iff, decide_eq_true_eq, beq_iff_eq, OfTopic, topicText]
    simp only [Option.some.injEq, Cell.text.injEq]
    exact ⟨congrArg Topic.mk, congrArg Topic.id⟩
  rw [current.count_eq, List.filter_congr same, List.count_eq_countP, List.countP_map,
    List.countP_eq_length_filter]
  rfl

end Topics

/-! ## The number of rows -/

/-- Whether an operation is to add a message. -/
def Operation.adds : Operation → Bool
  | add _ => true
  | _ => false

/-- The acts of a run that add a message and succeed. -/
def addingActs (db : Database) (run : List Act) : List Act :=
  (successes db run).filter (·.2.adds)

/-- The rows that are gone after an act if it is a prune. -/
def prunedRows (db : Database) (act : Act) : List Row :=
  match act.2 with
  | .prune _ => (messageRows db).filter (· ∉ messageRows (perform act.1 db act.2).db)
  | _ => []

/-- The rows that the prunes of a run remove, in the order of the prunes. -/
def removals (db : Database) : List Act → List Row
  | [] => []
  | act :: rest => prunedRows db act ++ removals (carryOut db [act]) rest

section Numbers

variable {db : Database} {table : Table}

/-- A prune deletes rows that are published and to be delivered before its second. -/
theorem Writable.prunedRows_prune (store : Writable db table) (now cutoff : Instant) :
    prunedRows db (now, .prune cutoff) = (messageRows db).filter (Outdated cutoff) := by
  refine List.filter_congr fun row present => decide_eq_decide.mpr ?_
  rw [store.perform_prune.2, store.messageRows_pruneOf, List.mem_filter, decide_eq_true_eq,
    and_iff_right present, Decidable.not_not]

/-- A message that is added takes one more row. -/
theorem Writable.length_add (store : Writable db table) (now : Instant) (message : Message) :
    (messageRows (perform now db (.add message)).db).length =
      (messageRows db).length + (if Succeeds db (now, .add message) then 1 else 0) := by
  have refused {error : Error} (failed : add now message db = .error error) :
      (messageRows (perform now db (.add message)).db).length =
        (messageRows db).length + (if Succeeds db (now, .add message) then 1 else 0) := by
    have fails : ¬ Succeeds db (now, .add message) := by
      rintro ⟨answer, succeeded⟩
      simp only [perform, failed] at succeeded
      cases succeeded
    simp only [if_neg fails, perform, failed]
    rfl
  by_cases event : message.event = .message
  · have added := @add_eq now _ _ _ event store.writable store.laid
    cases next : table.nextPosition? with
    | none =>
        rw [next] at added
        exact refused added
    | some position =>
        rw [next] at added
        have succeeds : Succeeds db (now, .add message) := by
          refine ⟨.done, ?_⟩
          simp only [perform, added]
          rfl
        have after := store.replace (laid_withRow message (message.isDue now.seconds) store.laid next)
        have rows := after.messageRows_eq.trans
          (Table.withRow_newRow_rows next (newRow message (message.isDue now.seconds)))
        simp only [if_pos succeeds, perform, added]
        change (messageRows (db.replace _)).length = _
        rw [rows, store.messageRows_eq, List.length_append, List.length_singleton]
  · refine @refused (.of (.unexpectedEvent message.event)) ?_
    unfold add requireMessage
    rw [if_neg event]
    rfl

/-- A store whose rows have been assigned cells has as many as before. -/
theorem Writable.length_assigned (store : Writable db table) {cells : List (String × Cell)}
    {condition : Condition} (preferred : Preferred cells)
    (known : ∀ name ∈ condition.names, ∃ column ∈ layoutColumns 6, column.name = name) :
    (messageRows (Outcome.write db
      (ofEngine (db.update messageTable (assigning cells) (some condition)))).db).length =
      (messageRows db).length := by
  have laid := laid_updated store.laid preferred (some condition)
  rw [Store.update_eq store.writable store.laid preferred known]
  change (messageRows (db.replace _)).length = _
  rw [(store.replace laid).messageRows_eq, store.messageRows_eq]
  exact List.length_map _

theorem Writable.length_update (store : Writable db table) (now : Instant) (message : Message) :
    (messageRows (perform now db (.update message)).db).length = (messageRows db).length := by
  change (messageRows (Outcome.write db (update message db)).db).length = _
  by_cases event : message.event = .message
  · rw [update_of_message event]
    exact store.length_assigned (preferred_editedCells message) (ofMessage_known _ _)
  · rw [update_of_other event]
    rfl

/-- A prune and what it leaves are all rows. -/
theorem Writable.length_prune (store : Writable db table) (now cutoff : Instant) :
    (messageRows (perform now db (.prune cutoff)).db).length +
      (prunedRows db (now, .prune cutoff)).length = (messageRows db).length := by
  have all := (messageRows db).length_eq_length_filter_add (fun row => decide (Outdated cutoff row))
  rw [store.prunedRows_prune, store.perform_prune.2, store.messageRows_pruneOf]
  simp only [decide_not]
  omega

theorem length_of_reading (now : Instant) {operation : Operation} (reads : operation.changes = false) :
    (messageRows (perform now db operation).db).length + (prunedRows db (now, operation)).length =
      (messageRows db).length := by
  cases operation with
  | add | update | markPublished | prune => cases reads
  | _ => exact Nat.add_zero _

/-- An act leaves as many rows as there were, but for a row that it adds and those that it
prunes. -/
theorem Writable.length_perform (store : Writable db table) (act : Act) :
    (messageRows (perform act.1 db act.2).db).length + (prunedRows db act).length =
      (messageRows db).length + (addingActs db [act]).length := by
  obtain ⟨now, operation⟩ := act
  have idle (adds : operation.adds = false) : (addingActs db [(now, operation)]).length = 0 := by
    unfold addingActs successes
    split <;> simp [successes, adds]
  cases operation with
  | add message =>
      have one : (addingActs db [(now, .add message)]).length =
          if Succeeds db (now, .add message) then 1 else 0 := by
        unfold addingActs successes
        split <;> rfl
      rw [one]
      exact store.length_add now message
  | update message =>
      rw [idle rfl]
      exact store.length_update now message
  | markPublished message =>
      have assigned := store.length_assigned preferred_published (ofId_known message.id)
      rw [idle rfl]
      exact assigned
  | prune cutoff =>
      rw [idle rfl]
      exact store.length_prune now cutoff
  | _ =>
      rw [idle rfl]
      exact length_of_reading now rfl

/-- A run leaves as many rows as there were, but for those that it adds and prunes. -/
theorem Reachable.length_carryOut {start : Database} (reachable : Reachable start) (run : List Act) :
    (messageRows (Store.carryOut start run)).length + (removals start run).length =
      (messageRows start).length + (addingActs start run).length := by
  induction run generalizing start with
  | nil => rfl
  | cons act rest ih =>
      obtain ⟨table, store⟩ := reachable.exists_writable
      have step := store.length_perform act
      have later := ih (reachable.acted act)
      have split : addingActs start (act :: rest) =
          addingActs start [act] ++ addingActs (Store.carryOut start [act]) rest := by
        change (successes start ([act] ++ rest)).filter _ = _
        rw [successes_append, List.filter_append]
        rfl
      rw [removals, split, List.length_append, List.length_append]
      change (messageRows (Store.carryOut (perform act.1 start act.2).db rest)).length + (_ +
        (removals (perform act.1 start act.2).db rest).length) = _
      change _ = _ + (_ + (addingActs (perform act.1 start act.2).db rest).length)
      omega

end Numbers

/-! ## Listing and counting -/

/-- Topics that a store lists as it counts. -/
structure Enumerates (db : Database) (listed : List Topic) : Prop where
  answered : topics db = .ok listed
  increasing : listed.Pairwise Topic.Before
  /-- The order is that of the bytes of the names as well. -/
  increasingBytes : listed.Pairwise fun first second =>
    Cell.orderBytes (Text.encode first.id) (Text.encode second.id) = .lt
  sorted : Topic.sorted listed = listed
  distinct : Topic.distinct listed = listed
  mem_iff : ∀ topic, ∃ number, count topic.id db = .ok number ∧ (topic ∈ listed ↔ 0 < number)
  total : ∃ numbers, (listed.mapM fun topic => count topic.id db) = .ok numbers ∧
    numbers.sum = (messageRows db).length

theorem Current.enumerates {db : Database} {table : Table} (current : Current db table) :
    Enumerates db (Topic.distinct ((messageRows db).map topicOf)) where
  answered := current.topics_eq
  increasing := Topic.distinct_pairwise _
  increasingBytes := (Topic.distinct_pairwise _).imp fun before => by
    rw [Text.orderBytes_encode]
    exact Cell.orderText_eq_lt_iff.mpr before
  sorted := Topic.sorted_eq_self (Topic.distinct_pairwise _)
  distinct := Topic.distinct_eq_self (Topic.distinct_pairwise _)
  mem_iff topic := by
    refine ⟨_, current.count_eq_count topic, ?_⟩
    rw [Topic.mem_distinct_iff, List.count_pos_iff]
  total := by
    refine ⟨_, mapM_of_ok current.count_eq_count _, ?_⟩
    rw [Topic.sum_count_distinct, List.length_map]

/-- In every store that can be reached, the topics that are listed are in strict order, so that
putting them in order and leaving out repeats changes nothing.  They are the topics that have
messages, and the numbers of their messages add up to the number of rows.  After a run, this is the
number of rows before and of the acts that added a message, less the rows that prunes removed. -/
theorem topics_listed_as_counted {start : Database} (reachable : Reachable start)
    (run : List Act) :
    let db := carryOut start run
    (∃ listed, Enumerates db listed) ∧
      (messageRows db).length + (removals start run).length =
        (messageRows start).length + (addingActs start run).length ∧
      (start = fresh →
        (messageRows db).length + (removals start run).length = (addingActs start run).length) := by
  intro db
  obtain ⟨table, current⟩ := (reachable.carryOut run).exists_current
  have numbers := reachable.length_carryOut run
  refine ⟨⟨_, current.enumerates⟩, numbers, ?_⟩
  rintro rfl
  have none : messageRows fresh = [] := Holdings.messageRows_db .empty
  rw [numbers, none, List.length_nil, Nat.zero_add]

/-- Topics are listed in the order of their code points, the empty one, one with a null character
and one beyond the first plane among them, and a topic that a prune has emptied is not. -/
theorem topics_listed_as_counted_beyond_first_plane :
    let now : Instant := ⟨100, 0, by decide, by decide, by decide⟩
    let cutoff : Instant := ⟨50, 0, by decide, by decide, by decide⟩
    let additions : List Act := ["b", "", "a\x00b", "😀", "a", "ﬁ", "b"].map fun name =>
      (now, .add (.plain name "x" 100 ""))
    let run : List Act := (now, .add (.plain "old" "x" 1 "")) :: additions ++ [(now, .prune cutoff)]
    let db := carryOut fresh run
    Reachable db ∧
      topics db = .ok (["", "a", "a\x00b", "b", "ﬁ", "😀"].map Topic.mk) ∧
      (messageRows db).length = 7 ∧ (addingActs fresh run).length = 8 ∧
      (removals fresh run).length = 1 := by
  intro now cutoff additions run db
  obtain ⟨⟨listed, enumerates⟩, -, numbers⟩ := topics_listed_as_counted Reachable.fresh run
  have reachable : Reachable db := Reachable.fresh.carryOut run
  obtain ⟨table, current⟩ := reachable.exists_current
  let names := ["b", "", "a\x00b", "😀", "a", "ﬁ", "b"].map Topic.mk
  let ordered := ["", "a", "a\x00b", "b", "ﬁ", "😀"].map Topic.mk
  have kept : (messageRows db).map topicOf = names := by
    rw [messageRows_ofRun rfl]
    decide
  have distinct : listed = Topic.distinct names := by
    have answered := current.topics_eq
    rw [kept] at answered
    exact Except.ok.inj (enumerates.answered.symm.trans answered)
  have inOrder : listed = ordered := by
    refine Topic.eq_of_pairwise enumerates.increasing (by decide) fun topic => ?_
    rw [distinct, Topic.mem_distinct_iff]
    exact ⟨fun member => (by decide : names ⊆ ordered) member,
      fun member => (by decide : ordered ⊆ names) member⟩
  have length : (messageRows db).length = 7 := by
    rw [← List.length_map topicOf, kept]
    rfl
  have answered : topics db = .ok ordered := inOrder ▸ enumerates.answered
  have added : (addingActs fresh run).length = 8 := by decide +kernel
  have sum : 7 + (removals fresh run).length = 8 := length ▸ added ▸ numbers rfl
  exact ⟨reachable, answered, length, added, by omega⟩

end MessageStore.Store
