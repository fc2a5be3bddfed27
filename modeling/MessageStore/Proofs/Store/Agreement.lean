import MessageStore.Proofs.Store.Decodable
import MessageStore.Proofs.Store.ReadBack
import MessageStore.Proofs.Store.Shown

/-!
# Reads that agree

Pages, lookups, counts and what is due are read by queries of their own.  They
read the same rows in the same order: a page without scheduled messages is the
one with them less those, a lookup returns what a page shows, and what is due of
a topic is on the page of everything.  Everything is what is to be delivered
from second zero on, so that a page of it has as many messages as are counted
only where no message of the topic has an earlier time.
-/

namespace MessageStore.Store

open Holdings (carryOut_fresh due_db dueRows_db messages_db ofRun page_eq_of_ordered)
open Relational (Cell Database Row Table)

/-- A result that is read from those rows of a store that are wanted: from each of them once, and
in the order of replays. -/
structure ReadFrom (db : Database) (wanted : Row → Prop) (rows : List Row)
    (result : Except Error (List Message)) : Prop where
  result : result = rows.mapM content
  mem_iff : ∀ row, row ∈ rows ↔ row ∈ messageRows db ∧ wanted row
  once : rows.Nodup
  ordered : rows.Pairwise StandsAhead

/-! ## What a row says of its message -/

/-- A message whose ID, topic and time stand in a row. -/
structure StandsIn (message : Message) (row : Row) : Prop where
  id : OfId message.id row
  topic : OfTopic message.topic row
  time : OfTime message.time row

theorem StandsIn.ofTopic_iff {message : Message} {row : Row} (stands : StandsIn message row)
    {topic : String} : OfTopic topic row ↔ message.topic = topic := by
  constructor
  · intro ofTopic
    exact Cell.text.inj (Option.some.inj (stands.topic.symm.trans ofTopic))
  · rintro rfl
    exact stands.topic

theorem StandsIn.id_eq {message : Message} {row : Row} (stands : StandsIn message row)
    {id : String} (ofId : OfId id row) : message.id = id :=
  Cell.text.inj (Option.some.inj (stands.id.symm.trans ofId))

theorem StandsIn.time_eq {message : Message} {row : Row} (stands : StandsIn message row) :
    timeOf row = message.time.toInt := by
  have time : row.cells.lookup "time" = some (.integer message.time) := stands.time
  rw [timeOf, integerOf, time]

/-! ## Reads of current stores -/

namespace Current

variable {db : Database} {table : Table}

/-- The message that a row says has its ID, topic and time there. -/
theorem standsIn (current : Current db table) {row : Row} {message : Message}
    (present : row ∈ messageRows db) (read : content row = .ok message) :
    StandsIn message row := by
  rw [current.messageRows_eq] at present
  rw [current.content_eq present, decode_eq_ok_iff] at read
  obtain ⟨-, rfl⟩ := read
  exact ⟨current.lookup_text present (by decide), current.lookup_text present (by decide),
    current.lookup_integer present (by decide)⟩

/-- What is left of all rows is read in the order of replays. -/
theorem readFrom (current : Current db table) {wanted : Row → Prop} [DecidablePred wanted]
    {rows : List Row} {result : Except Error (List Message)}
    (selected : rows = (orderedRows db).filter (wanted ·)) (read : result = rows.mapM content) :
    ReadFrom db wanted rows result := by
  subst selected
  have ordered := current.orderedRows_pairwise.filter (wanted ·)
  refine ⟨read, fun row => ?_, ordered.imp StandsAhead.ne, ordered⟩
  rw [List.mem_filter, mem_orderedRows, decide_eq_true_eq]

theorem readFrom_messages (current : Current db table) (topic : String) (since : Since)
    (scheduled : Bool) :
    ReadFrom db
      (fun row => OfTopic topic row ∧ AskedFor db topic since row ∧
        (scheduled = true ∨ IsPublished row))
      (shownRows topic since scheduled db) (messages topic since scheduled db) :=
  current.readFrom (current.shownRows_eq topic since scheduled)
    (current.messages_eq topic since scheduled)

theorem readFrom_due (current : Current db table) (now : Instant) :
    ReadFrom db (fun row => IsScheduled row ∧ timeOf row ≤ now.seconds) (dueRows now db)
      (due now db) :=
  current.readFrom (current.dueRows_eq now) (current.due_eq now)

/-- A page without scheduled messages is the one with them, less those. -/
theorem shownRows_false (current : Current db table) (topic : String) (since : Since) :
    shownRows topic since false db = (shownRows topic since true db).filter (IsPublished ·) := by
  rw [current.shownRows_eq, current.shownRows_eq, List.filter_filter]
  refine List.filter_congr fun row _ => ?_
  rw [← Bool.decide_and, decide_eq_decide]
  simp only [Bool.false_eq_true, false_or, true_or, and_true]
  grind

/-- What a lookup returns is read from the first row in the order of replays that has the topic and
the ID. -/
theorem exists_found_of_message (current : Current db table) {topic id : String} {found : Message}
    (read : message topic id db = .ok found) :
    ∃ row, (orderedRows db).find? (fun row => OfTopic topic row ∧ OfId id row) = some row ∧
      content row = .ok found := by
  rw [current.message_eq] at read
  cases first : (orderedRows db).find? fun row => OfTopic topic row ∧ OfId id row with
  | none =>
      rw [first] at read
      cases read
  | some row =>
      rw [first] at read
      exact ⟨row, rfl, read⟩

theorem exists_row_of_message (current : Current db table) {topic id : String} {found : Message}
    (read : message topic id db = .ok found) :
    ∃ row ∈ messageRows db, OfTopic topic row ∧ OfId id row ∧ content row = .ok found := by
  obtain ⟨row, first, said⟩ := current.exists_found_of_message read
  have named := List.find?_some first
  obtain ⟨ofTopic, ofId⟩ := of_decide_eq_true named
  exact ⟨row, mem_orderedRows.mp (List.mem_of_find?_eq_some first), ofTopic, ofId, said⟩

/-- What a page shows is what a lookup returns. -/
theorem message_of_mem (current : Current db table) {topic : String} {since : Since}
    {scheduled : Bool} {page : List Message} {shown : Message}
    (read : messages topic since scheduled db = .ok page) (member : shown ∈ page)
    (sole : Sole db topic shown.id) : message topic shown.id db = .ok shown := by
  have source := current.readFrom_messages topic since scheduled
  obtain ⟨row, rowMember, said⟩ := (mem_of_mapM_eq_ok (source.result.symm.trans read)).mp member
  obtain ⟨present, ofTopic, _⟩ := (source.mem_iff row).mp rowMember
  have ofId := (current.standsIn present said).id
  rw [current.message_of_sole present ofTopic ofId sole, said]

/-- The rows of a topic among those that are due are those of the page of everything that are not
published and have come, where no message is to be delivered before second zero. -/
theorem dueRows_ofTopic (current : Current db table)
    (nonneg : ∀ row ∈ messageRows db, 0 ≤ timeOf row) (topic : String) (now : Instant) :
    (dueRows now db).filter (OfTopic topic ·) =
      (shownRows topic .everything true db).filter fun row =>
        IsScheduled row ∧ timeOf row ≤ now.seconds := by
  rw [current.dueRows_eq, current.shownRows_eq, List.filter_filter, List.filter_filter]
  refine List.filter_congr fun row member => ?_
  have late := nonneg row (mem_orderedRows.mp member)
  rw [← Bool.decide_and, ← Bool.decide_and, decide_eq_decide]
  simp only [AskedFor, late, true_or, and_true]
  exact and_comm

end Current

/-! ## Agreement -/

/-- A row of a store that operations make of a new one is published or scheduled, and a message is
read from it. -/
theorem content_of_mem {run : List Act} {row : Row} (member : row ∈ messageRows (carryOut fresh run)) :
    (IsPublished row ∨ IsScheduled row) ∧ ∃ message, content row = .ok message := by
  obtain ⟨entry, _, rfl⟩ := mem_messageRows_iff.mp member
  refine ⟨?_, entry.message.stored, content_newRow entry.message entry.position entry.published⟩
  rw [entry.isPublished_row, entry.isScheduled_row]
  exact (Bool.eq_false_or_eq_true entry.published)

/-- In every store that can be reached, pages are read from the rows that are asked for, once each
and in the order of replays; a page without scheduled messages is the one with them, less those; a
lookup returns what a page shows under an ID that one row only has; and of a topic those messages
are due that are on the page of everything, not published, and whose time has come, where no time
is negative.  Where the store was new at first, no read fails. -/
theorem reads_agree :
    (∀ run, ∀ row ∈ messageRows (carryOut fresh run),
      (IsPublished row ∨ IsScheduled row) ∧ ∃ message, content row = .ok message) ∧
    ∀ db, Reachable db → ∀ topic,
      (∀ since,
        (∀ scheduled,
          ReadFrom db
            (fun row => OfTopic topic row ∧ AskedFor db topic since row ∧
              (scheduled = true ∨ IsPublished row))
            (shownRows topic since scheduled db) (messages topic since scheduled db)) ∧
        shownRows topic since false db =
          (shownRows topic since true db).filter (IsPublished ·) ∧
        ∀ scheduled page, messages topic since scheduled db = .ok page →
          ∀ shown ∈ page, Sole db topic shown.id → message topic shown.id db = .ok shown) ∧
      ∀ now,
        ReadFrom db (fun row => IsScheduled row ∧ timeOf row ≤ now.seconds) (dueRows now db)
          (due now db) ∧
        ((∀ row ∈ messageRows db, 0 ≤ timeOf row) →
          (dueRows now db).filter (OfTopic topic ·) =
            ((shownRows topic .everything true db).filter fun row =>
              IsScheduled row ∧ timeOf row ≤ now.seconds) ∧
          ∀ awaited, due now db = .ok awaited →
            ((shownRows topic .everything true db).filter fun row =>
              IsScheduled row ∧ timeOf row ≤ now.seconds).mapM content =
                .ok (awaited.filter fun shown => shown.topic = topic)) := by
  refine ⟨fun run row => content_of_mem, fun db reachable topic => ?_⟩
  obtain ⟨table, current⟩ := reachable.exists_current
  refine ⟨fun since => ⟨current.readFrom_messages topic since, current.shownRows_false topic since,
    fun scheduled page read shown => current.message_of_mem read⟩, fun now => ?_⟩
  have source := current.readFrom_due now
  refine ⟨source, fun nonneg => ?_⟩
  have restricted := current.dueRows_ofTopic nonneg topic now
  refine ⟨restricted, fun awaited read => ?_⟩
  rw [← restricted]
  refine filter_of_mapM_eq_ok (fun row member shown said => ?_) (source.result.symm.trans read)
  have stands := current.standsIn ((source.mem_iff row).mp member).1 said
  exact decide_eq_decide.mpr stands.ofTopic_iff

/-- A message that is due and not published is returned with those of other topics, is on the page
of everything where scheduled messages are wanted, and is found under its ID. -/
theorem reads_agree_scheduled :
    let early : Instant := ⟨5, 0, by decide, by decide, by decide⟩
    let late : Instant := ⟨20, 0, by decide, by decide, by decide⟩
    let first : Message := .plain "t" "a" 9 ""
    let second : Message := .plain "t" "b" 3 ""
    let third : Message := .plain "u" "a" 8 ""
    let db := carryOut fresh [(early, .add first), (early, .add second), (early, .add third)]
    Reachable db ∧ messages "t" .everything true db = .ok [second, first] ∧ Sole db "t" "a" ∧
      message "t" "a" db = .ok first ∧ (∀ row ∈ messageRows db, 0 ≤ timeOf row) ∧
      due late db = .ok [third, first] ∧
      ((shownRows "t" .everything true db).filter fun row =>
        IsScheduled row ∧ timeOf row ≤ late.seconds).mapM content = .ok [first] := by
  intro early late first second third db
  let run : List Act := [(early, .add first), (early, .add second), (early, .add third)]
  have reachable : Reachable db := Reachable.fresh.carryOut run
  obtain ⟨asked, awaited⟩ := reads_agree.2 db reachable "t"
  have entries : (ofRun run).entries = [⟨1, first, false⟩, ⟨2, second, true⟩, ⟨3, third, false⟩] := by
    decide
  have rows : messageRows db = [⟨1, newRow first false⟩, ⟨2, newRow second true⟩,
      ⟨3, newRow third false⟩] := by
    have stored : messageRows db = (ofRun run).entries.map Entry.row := by
      change messageRows (carryOut fresh run) = _
      rw [carryOut_fresh, Holdings.messageRows_db]
    rw [stored, entries]
    rfl
  have page : messages "t" .everything true db = .ok [second, first] :=
    (@shown_of_ordered _ _ _ run [⟨2, second, true⟩, ⟨1, first, false⟩]
      (by decide) (by simp [Entry.Before, first, second, Message.plain])).2
  have sole : Sole db "t" "a" := by
    rw [Sole, rows]
    decide
  have nonneg : ∀ row ∈ messageRows db, 0 ≤ timeOf row := by
    rw [rows]
    decide
  have returned : due late db = .ok [third, first] := by
    change due late (carryOut fresh run) = _
    have sorted : [(⟨3, third, false⟩ : Entry), ⟨1, first, false⟩].Pairwise Entry.Before := by
      simp [Entry.Before, first, third, Message.plain]
    rw [carryOut_fresh, due_db, page_eq_of_ordered (by decide) sorted]
    rfl
  exact ⟨reachable, page, sole, (asked .everything).2.2 true _ page first (by decide) sole, nonneg,
    returned, ((awaited late).2 nonneg).2 _ returned⟩

/-! ## Pages of everything -/

/-- A page of everything is read from the rows of the topic that are to be delivered from second
zero on, so that a message that a lookup finds is on it unless its time is negative.  It has no
more messages than are counted, and as many only where no time in the topic is negative.  It does
not fail where the store was new at first. -/
theorem everything_from_second_zero (topic : String) :
    (∀ run, ∃ page, messages topic .everything true (carryOut fresh run) = .ok page) ∧
    ∀ db, Reachable db → ∃ rows number,
      ReadFrom db (fun row => OfTopic topic row ∧ 0 ≤ timeOf row) rows
        (messages topic .everything true db) ∧
      count topic db = .ok number ∧ rows.length ≤ number ∧
      (rows.length = number ↔ ∀ row ∈ messageRows db, OfTopic topic row → 0 ≤ timeOf row) ∧
      ∀ page, messages topic .everything true db = .ok page →
        page.length = rows.length ∧
          ∀ id found, message topic id db = .ok found → 0 ≤ found.time.toInt →
            found.id = id ∧ found ∈ page := by
  constructor
  · intro run
    rw [carryOut_fresh, messages_db]
    exact ⟨_, rfl⟩
  · intro db reachable
    obtain ⟨table, current⟩ := reachable.exists_current
    let stored := (orderedRows db).filter (OfTopic topic ·)
    let rows := stored.filter (0 ≤ timeOf ·)
    have source : ReadFrom db (fun row => OfTopic topic row ∧ 0 ≤ timeOf row) rows
        (messages topic .everything true db) := by
      have selected : rows = (orderedRows db).filter fun row =>
          OfTopic topic row ∧ 0 ≤ timeOf row := by
        simp only [rows, stored, List.filter_filter, Bool.decide_and, Bool.and_comm]
      refine current.readFrom selected ?_
      rw [current.messages_eq, current.shownRows_eq, selected]
      simp [AskedFor]
    have counted : count topic db = .ok stored.length := by
      rw [current.count_eq]
      exact congrArg Except.ok ((perm_orderedRows db).symm.filter _).length_eq
    refine ⟨rows, stored.length, source, counted, List.length_filter_le _ _, ?_, ?_⟩
    · rw [List.length_filter_eq_length_iff]
      simp [stored, List.mem_filter, mem_orderedRows]
    · intro page read
      have parts := source.result.symm.trans read
      refine ⟨(mapM_eq_ok_iff.mp parts).length_eq.symm, fun id found lookup late => ?_⟩
      obtain ⟨row, present, ofTopic, ofId, said⟩ := current.exists_row_of_message lookup
      have stands := current.standsIn present said
      rw [← stands.time_eq] at late
      have shown : row ∈ rows := (source.mem_iff row).mpr ⟨present, ofTopic, late⟩
      exact ⟨stands.id_eq ofId, (mem_of_mapM_eq_ok parts).mpr ⟨row, shown, said⟩⟩

/-- A message that is to be delivered at second zero is on the page of everything, which has fewer
messages than are counted because of one that is to be delivered earlier. -/
theorem everything_from_second_zero_beside_earlier :
    let clock : Instant := ⟨5, 0, by decide, by decide, by decide⟩
    let first : Message := .plain "t" "a" (-1) ""
    let second : Message := .plain "t" "b" 0 ""
    let db := carryOut fresh [(clock, .add first), (clock, .add second)]
    Reachable db ∧ message "t" "b" db = .ok second ∧ 0 ≤ second.time.toInt ∧
      ∃ page number, messages "t" .everything true db = .ok page ∧ second ∈ page ∧
        count "t" db = .ok number ∧ page.length < number := by
  intro clock first second db
  let run : List Act := [(clock, .add first), (clock, .add second)]
  have reachable : Reachable db := Reachable.fresh.carryOut run
  have lookup : message "t" "b" db = .ok second := by
    change message "t" "b" (carryOut fresh run) = _
    have page : (ofRun run).page (fun entry => entry.message.topic = "t" ∧ entry.message.id = "b") =
        [⟨2, second, true⟩] :=
      page_eq_of_ordered (by decide) (List.pairwise_singleton _ _)
    rw [carryOut_fresh, Holdings.message_db, page]
    rfl
  obtain ⟨succeeds, reads⟩ := everything_from_second_zero "t"
  obtain ⟨page, read⟩ := succeeds run
  obtain ⟨rows, number, _, counted, least, full, listed⟩ := reads db reachable
  obtain ⟨length, shown⟩ := listed page read
  refine ⟨reachable, lookup, by decide, page, number, read,
    (shown "b" second lookup (by decide)).2, counted, ?_⟩
  rw [length]
  refine Nat.lt_of_le_of_ne least fun same => ?_
  have early : (⟨1, newRow first true⟩ : Row) ∈ messageRows (carryOut fresh run) :=
    mem_messageRows_iff.mpr ⟨⟨1, first, true⟩, by decide, rfl⟩
  exact absurd (full.mp same _ early rfl) (by decide)

/-- A message that has been added with a negative time is counted and found, but not on the page of
everything. -/
theorem negative_time_left_out :
    let clock : Instant := ⟨5, 0, by decide, by decide, by decide⟩
    let draft : Message.Draft := { topic := "t", id := some "a", time := some (-1) }
    let message := draft.finish clock 0
    let db := carryOut fresh [(clock, .add message)]
    (perform clock fresh (.add message)).answer = .ok .done ∧
      messages "t" .everything true db = .ok [] ∧ count "t" db = .ok 1 ∧
      Store.message "t" "a" db = .ok message := by
  intro clock draft message db
  let run : List Act := [(clock, .add message)]
  have entries : (ofRun run).entries = [⟨1, message, true⟩] := by decide
  refine ⟨by decide, ?_, ?_, ?_⟩
  · exact (@shown_of_ordered _ _ _ run [] (by decide) .nil).2
  · change count "t" (carryOut fresh run) = _
    rw [carryOut_fresh, Holdings.count_db, entries]
    rfl
  · change Store.message "t" "a" (carryOut fresh run) = _
    have page : (ofRun run).page (fun entry => entry.message.topic = "t" ∧ entry.message.id = "a") =
        [⟨1, message, true⟩] :=
      page_eq_of_ordered (by decide) (List.pairwise_singleton _ _)
    rw [carryOut_fresh, Holdings.message_db, page]
    rfl

end MessageStore.Store
