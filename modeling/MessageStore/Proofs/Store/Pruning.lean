import MessageStore.Proofs.Store.Agreement

/-!
# Pruning and replays from an instant

A prune deletes what a replay from its instant leaves out, as far as it has been
published: both count the instant in whole seconds, rounded down, so that it does
not matter whether it lies before 1970.  Nothing is deleted that is to be
delivered at the instant or later, and the later one of two prunes makes the other
one idle, whichever comes first.
-/

namespace MessageStore

/-! ## Instants in order -/

namespace Instant

/-- The nanoseconds from the Unix epoch to an instant. -/
def inNanos (instant : Instant) : Int :=
  instant.seconds * 1000000000 + instant.nanos

/-- The later one of two instants. -/
def later (first second : Instant) : Instant :=
  if first.inNanos ≤ second.inNanos then second else first

theorem eq_of_inNanos_eq {first second : Instant} (same : first.inNanos = second.inNanos) :
    first = second := by
  have firstPart := first.nanos_lt
  have secondPart := second.nanos_lt
  unfold inNanos at same
  have seconds : first.seconds = second.seconds := by omega
  have nanos : first.nanos = second.nanos := by omega
  cases first
  cases second
  subst seconds nanos
  rfl

theorem later_comm (first second : Instant) : first.later second = second.later first := by
  unfold later
  split <;> split
  · exact eq_of_inNanos_eq (by omega)
  · rfl
  · rfl
  · omega

/-- An instant lies in its second. -/
theorem inNanos_bounds (instant : Instant) :
    instant.seconds * 1000000000 ≤ instant.inNanos ∧
      instant.inNanos < (instant.seconds + 1) * 1000000000 := by
  have part := instant.nanos_lt
  unfold inNanos
  omega

/-- The second of the later one of two instants is the later one of their seconds. -/
theorem lt_seconds_later_iff (first second : Instant) (time : Int) :
    time < (first.later second).seconds ↔ time < first.seconds ∨ time < second.seconds := by
  have firstBounds := first.inNanos_bounds
  have secondBounds := second.inNanos_bounds
  unfold later
  split <;> omega

end Instant

namespace Store

open Relational (Condition Database Row Table)
open Schema (layoutColumns)

/-! ## What a prune deletes -/

/-- A row that a prune deletes. -/
def Outdated (cutoff : Instant) (row : Row) : Prop :=
  IsPublished row ∧ timeOf row < cutoff.seconds

instance (cutoff : Instant) (row : Row) : Decidable (Outdated cutoff row) :=
  inferInstanceAs (Decidable (_ ∧ _))

section Prunes

variable {db : Database} {table : Table} {cutoff other now : Instant}

theorem Current.holds_outdated (current : Current db table) {row : Row} (present : row ∈ table.rows) :
    (outdated cutoff).holds table row = decide (Outdated cutoff row) := by
  have early := current.holds_integer present
    (by decide : Schema.integer "time" ∈ layoutColumns 6) .less (Int64.ofInt cutoff.seconds)
  rw [toInt_second] at early
  rw [outdated, secondCell, Condition.holds, early, current.holds_published present, Bool.and_comm]
  exact (Bool.decide_and _ _).symm

/-- A prune deletes the rows that are published and to be delivered before its second. -/
theorem Current.deleted_rows (current : Current db table) :
    (Database.deleted table (outdated cutoff)).rows =
      table.rows.filter fun row => ¬ Outdated cutoff row := by
  refine List.filter_congr fun row present => ?_
  rw [current.holds_outdated present, decide_not]

/-- A store of which a prune has deleted rows of the table. -/
def pruneOf (db : Database) (table : Table) (cutoff : Instant) : Database :=
  db.replace (Database.deleted table (outdated cutoff))

namespace Writable

variable (store : Writable db table)
include store

theorem perform_prune :
    (perform now db (.prune cutoff)).answer = .ok .done ∧
      (perform now db (.prune cutoff)).db = pruneOf db table cutoff := by
  rw [perform, prune_eq store.writable store.laid]
  exact ⟨rfl, rfl⟩

theorem pruneOf : Writable (pruneOf db table cutoff) (Database.deleted table (outdated cutoff)) :=
  store.replace (laid_deleted store.laid _)

theorem messageRows_pruneOf :
    messageRows (Store.pruneOf db table cutoff) =
      (messageRows db).filter fun row => ¬ Outdated cutoff row := by
  rw [store.pruneOf.messageRows_eq, store.deleted_rows, store.messageRows_eq]

/-- What a prune leaves stays in its order. -/
theorem orderedRows_pruneOf :
    orderedRows (Store.pruneOf db table cutoff) =
      (orderedRows db).filter fun row => ¬ Outdated cutoff row := by
  apply store.eq_filter_of_ordered
  · rw [← store.messageRows_pruneOf]
    exact perm_orderedRows _
  · exact store.pruneOf.orderedRows_pairwise

/-- A prune deletes nothing of a replay from its instant on. -/
theorem shownRows_pruneOf (topic : String) (scheduled : Bool) :
    shownRows topic (.time cutoff) scheduled (Store.pruneOf db table cutoff) =
      shownRows topic (.time cutoff) scheduled db := by
  rw [store.pruneOf.shownRows_eq, store.shownRows_eq, store.orderedRows_pruneOf,
    List.filter_filter]
  refine List.filter_congr fun row _ => ?_
  rw [← Bool.decide_and, decide_eq_decide]
  refine and_iff_left_of_imp ?_
  rintro ⟨-, late, -⟩ ⟨-, early⟩
  exact absurd early (Int.not_lt.mpr late)

/-- The published rows that a prune leaves are to be delivered from its second on. -/
theorem shownRows_pruneOf_published (topic : String) :
    shownRows topic (.time cutoff) false (Store.pruneOf db table cutoff) =
      (orderedRows (Store.pruneOf db table cutoff)).filter fun row =>
        OfTopic topic row ∧ IsPublished row := by
  rw [store.pruneOf.shownRows_eq]
  refine List.filter_congr fun row member => ?_
  rw [store.orderedRows_pruneOf, List.mem_filter, decide_eq_true_eq] at member
  rw [decide_eq_decide]
  simp only [Bool.false_eq_true, false_or]
  constructor
  · rintro ⟨ofTopic, -, published⟩
    exact ⟨ofTopic, published⟩
  · rintro ⟨ofTopic, published⟩
    exact ⟨ofTopic, Int.not_lt.mp fun early => member.2 ⟨published, early⟩, published⟩

/-- Two prunes delete what the later one does. -/
theorem pruneOf_pruneOf :
    Store.pruneOf (Store.pruneOf db table cutoff) (Database.deleted table (outdated cutoff)) other =
      Store.pruneOf db table (cutoff.later other) := by
  have rows : (Database.deleted (Database.deleted table (outdated cutoff)) (outdated other)).rows =
      (Database.deleted table (outdated (cutoff.later other))).rows := by
    rw [store.pruneOf.deleted_rows, store.deleted_rows, store.deleted_rows, List.filter_filter]
    refine List.filter_congr fun row _ => ?_
    rw [← Bool.decide_and, decide_eq_decide]
    simp only [Outdated, Instant.lt_seconds_later_iff]
    tauto
  let first := Database.deleted table (outdated cutoff)
  have replaced : (db.replace first).replace (Database.deleted first (outdated other)) =
      db.replace (Database.deleted first (outdated other)) :=
    Database.replace_replace db rfl
  exact replaced.trans (congrArg (fun rows => db.replace { table with rows }) rows)

end Writable

end Prunes

/-! ## Where prunes and replays cut -/

/-- In every store that can be reached, a prune deletes the rows that are published and to be
delivered before the second of its instant.  It changes no replay from the instant on, and leaves
nothing published in the topic but what this replay has.  What is to be delivered at the instant
or later stays and is replayed where scheduled messages are wanted, and what was published to be
delivered a second or more before it is gone.  Two prunes do what the later one does alone. -/
theorem prune_cuts_where_replay_begins (db : Database) (reachable : Reachable db)
    (cutoff now : Instant) :
    let after := (perform now db (.prune cutoff)).db
    (perform now db (.prune cutoff)).answer = .ok .done ∧
      messageRows after = ((messageRows db).filter fun row => ¬ Outdated cutoff row) ∧
      (∀ topic,
        (∀ scheduled,
          messages topic (.time cutoff) scheduled after =
            messages topic (.time cutoff) scheduled db ∧
          messages topic (.time cutoff) scheduled db =
            (shownRows topic (.time cutoff) scheduled db).mapM content) ∧
        ReadFrom after (fun row => OfTopic topic row ∧ IsPublished row)
          (shownRows topic (.time cutoff) false after)
          (messages topic (.time cutoff) false after)) ∧
      (∀ row ∈ messageRows db,
        (cutoff.inNanos ≤ timeOf row * 1000000000 → row ∈ messageRows after ∧
          ∀ topic, OfTopic topic row → row ∈ shownRows topic (.time cutoff) true db) ∧
        (IsPublished row → (timeOf row + 1) * 1000000000 ≤ cutoff.inNanos →
          row ∉ messageRows after)) ∧
      ∀ other later,
        (perform later after (.prune other)).db =
          (perform now db (.prune (cutoff.later other))).db ∧
        (perform now (perform later db (.prune other)).db (.prune cutoff)).db =
          (perform now db (.prune (cutoff.later other))).db := by
  intro after
  obtain ⟨table, store⟩ := reachable.exists_writable
  have left : after = pruneOf db table cutoff := store.perform_prune.2
  have bounds := cutoff.inNanos_bounds
  refine ⟨store.perform_prune.1, ?rows, ?replays, ?members, ?twice⟩
  case rows =>
    rw [left, store.messageRows_pruneOf]
  case replays =>
    rw [left]
    refine fun topic => ⟨fun scheduled => ⟨?_, store.messages_eq topic _ scheduled⟩, ?_⟩
    · rw [store.pruneOf.messages_eq, store.messages_eq, store.shownRows_pruneOf]
    · exact store.pruneOf.readFrom (store.shownRows_pruneOf_published topic)
        (store.pruneOf.messages_eq topic _ false)
  case members =>
    rw [left, store.messageRows_pruneOf]
    intro row present
    rw [List.mem_filter, decide_eq_true_eq]
    constructor
    · intro late
      have kept : cutoff.seconds ≤ timeOf row := by omega
      refine ⟨⟨present, fun old => absurd old.2 (Int.not_lt.mpr kept)⟩, fun topic ofTopic => ?_⟩
      exact ((store.readFrom_messages topic _ true).mem_iff row).mpr
        ⟨present, ofTopic, kept, .inl rfl⟩
    · rintro published early ⟨-, kept⟩
      exact kept ⟨published, by omega⟩
  case twice =>
    intro other later
    rw [left, store.perform_prune.2, store.perform_prune.2]
    refine ⟨?_, ?_⟩
    · rw [store.pruneOf.perform_prune.2, store.pruneOf_pruneOf]
    · rw [store.pruneOf.perform_prune.2, store.pruneOf_pruneOf, Instant.later_comm]

/-- A prune in the middle of a second before 1970 deletes what was published to be delivered before
that second, and neither what was to be delivered in it nor what is scheduled. -/
theorem prune_cuts_where_replay_begins_within_second :
    let early : Instant := ⟨-10, 0, by decide, by decide, by decide⟩
    let late : Instant := ⟨5, 0, by decide, by decide, by decide⟩
    let cutoff : Instant := ⟨-2, 500000000, by decide, by decide, by decide⟩
    let first : Message := .plain "t" "a" (-9) ""
    let second : Message := .plain "t" "b" (-3) ""
    let third : Message := .plain "t" "c" (-2) ""
    let db := carryOut fresh [(early, .add first), (late, .add second), (late, .add third)]
    let after := (perform late db (.prune cutoff)).db
    Reachable db ∧
      messageRows after = [⟨1, newRow first false⟩, ⟨3, newRow third true⟩] ∧
      messages "t" (.time cutoff) false after = .ok [third] ∧
      (perform late after (.prune early)).db = after := by
  intro early late cutoff first second third db after
  let run : List Act := [(early, .add first), (late, .add second), (late, .add third)]
  have reachable : Reachable db := Reachable.fresh.carryOut run
  obtain ⟨-, left, replays, -, twice⟩ := prune_cuts_where_replay_begins db reachable cutoff late
  have rows : messageRows db = [⟨1, newRow first false⟩, ⟨2, newRow second true⟩,
      ⟨3, newRow third true⟩] :=
    @messageRows_ofRun run [⟨1, first, false⟩, ⟨2, second, true⟩, ⟨3, third, true⟩] (by decide)
  have page : messages "t" (.time cutoff) false db = .ok [third] :=
    (@shown_of_ordered "t" (.time cutoff) false run [⟨3, third, true⟩]
      (by decide) (List.pairwise_singleton _ _)).2
  refine ⟨reachable, ?_, ((replays "t").1 false).1.trans page, ?_⟩
  · rw [left, rows]
    decide
  · have later : cutoff.later early = cutoff := by decide
    rw [(twice early late).1, later]

end Store

end MessageStore
