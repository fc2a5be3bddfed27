import MessageStore.Proofs.Store.Delivery

/-!
# Rounds of a publisher

A publisher asks what is due, and then marks each of these messages while other
clients go on with their work.  Whatever they do, what was due is published when
the round is over, and is gone only if it was published first.  What else has
been published since has an ID that was marked.  A publisher that is left alone
publishes what was due, and nothing else.
-/

namespace MessageStore.Store

open Holdings
open Relational (Row)

/-! ## Clients that take turns -/

/-- The acts of two clients, in the order in which they are carried out.  Each client keeps to its
own order. -/
inductive Interleaved : List Act → List Act → List Act → Prop
  | nil : Interleaved [] [] []
  | first {act : Act} {first second all : List Act} (rest : Interleaved first second all) :
      Interleaved (act :: first) second (act :: all)
  | second {act : Act} {first second all : List Act} (rest : Interleaved first second all) :
      Interleaved first (act :: second) (act :: all)

section Interleaved

variable {first second all : List Act}

theorem Interleaved.mem_iff (interleaved : Interleaved first second all) {act : Act} :
    act ∈ all ↔ act ∈ first ∨ act ∈ second := by
  induction interleaved with
  | nil => simp
  | first _ ih => simp [ih, or_assoc]
  | second _ ih => simp [ih, or_left_comm]

/-- Without a second client, the acts are those of the first one. -/
theorem Interleaved.eq_first (interleaved : Interleaved first [] all) : all = first := by
  generalize none : ([] : List Act) = second at interleaved
  induction interleaved with
  | nil => rfl
  | first _ ih => rw [ih none]
  | second _ _ => cases none

/-- A client that comes after the other one. -/
theorem interleaved_append (first second : List Act) :
    Interleaved first second (first ++ second) := by
  induction first with
  | cons act rest ih => exact ih.first
  | nil =>
      induction second with
      | nil => exact .nil
      | cons act rest ih => exact ih.second

theorem Interleaved.marked_iff (interleaved : Interleaved first second all) {id : String} :
    Marked all id ↔ Marked first id ∨ Marked second id := by
  simp only [Marked, interleaved.mem_iff, or_and_right, exists_or]

end Interleaved

/-- The acts of a publisher that marks messages in their order, each at any time. -/
def Publishes (messages : List Message) (acts : List Act) : Prop :=
  acts.map Prod.snd = messages.map .markPublished

theorem Publishes.marked_iff {messages : List Message} {acts : List Act}
    (publishes : Publishes messages acts) {id : String} :
    Marked acts id ↔ ∃ message ∈ messages, message.id = id := by
  constructor
  · rintro ⟨act, member, marks⟩
    have named : act.2 ∈ messages.map Operation.markPublished :=
      publishes ▸ List.mem_map_of_mem member
    obtain ⟨message, messageMember, same⟩ := List.mem_map.mp named
    rw [← same] at marks
    exact ⟨message, messageMember, (of_decide_eq_true marks).symm⟩
  · rintro ⟨message, member, rfl⟩
    have named : Operation.markPublished message ∈ acts.map Prod.snd :=
      publishes ▸ List.mem_map_of_mem member
    obtain ⟨act, actMember, same⟩ := List.mem_map.mp named
    exact ⟨act, actMember, by simp [same, Operation.marks]⟩

/-! ## Rows that are published -/

/-- A run leaves a published row at a position. -/
def PublishedAt (run : List Act) (position : Int64) : Prop :=
  ∃ row ∈ messageRows (carryOut fresh run), row.position = position ∧ IsPublished row

/-- Some act after a run is a prune that takes a published row from a position. -/
def PrunedWhilePublished (run acts : List Act) (position : Int64) : Prop :=
  ∃ before now cutoff later, acts = before ++ (now, .prune cutoff) :: later ∧
    PublishedAt (run ++ before) position ∧
      position ∉ positions (carryOut fresh (run ++ before ++ [(now, .prune cutoff)]))

section Rows

variable {run acts : List Act} {entry : Entry}

theorem publishedAt_iff {position : Int64} :
    PublishedAt run position ↔
      ∃ entry ∈ (ofRun run).entries, entry.position = position ∧ entry.published = true := by
  constructor
  · rintro ⟨row, member, rfl, published⟩
    obtain ⟨entry, entryMember, rfl⟩ := mem_messageRows_iff.mp member
    exact ⟨entry, entryMember, rfl, entry.isPublished_row.mp published⟩
  · rintro ⟨entry, member, rfl, published⟩
    exact ⟨entry.row, mem_messageRows_iff.mpr ⟨entry, member, rfl⟩, rfl,
      entry.isPublished_row.mpr published⟩

theorem Entry.awaits_iff {now : Instant} :
    entry.awaits now = true ↔
      entry.message.time.toInt ≤ now.seconds ∧ entry.published = false := by
  simp [awaits]

/-- The row of an entry is due if the entry awaits the time. -/
theorem row_mem_dueRows_iff {now : Instant} (member : entry ∈ (ofRun run).entries) :
    entry.row ∈ dueRows now (carryOut fresh run) ↔ entry.awaits now = true := by
  rw [carryOut_fresh, dueRows_db, List.mem_map]
  constructor
  · rintro ⟨other, otherMember, same⟩
    obtain ⟨present, awaits⟩ := mem_page_iff.mp otherMember
    cases eq_of_position present member (congrArg Row.position same)
    exact awaits
  · intro awaits
    exact ⟨entry, mem_page_iff.mpr ⟨member, awaits⟩, rfl⟩

/-- What is due is what is not published and has a time that has come. -/
theorem mem_dueRows_iff {now : Instant} {row : Row} :
    row ∈ dueRows now (carryOut fresh run) ↔
      row ∈ messageRows (carryOut fresh run) ∧ IsScheduled row ∧
        ∃ time, OfTime time row ∧ time.toInt ≤ now.seconds := by
  constructor
  · intro due
    rw [carryOut_fresh, dueRows_db, List.mem_map] at due
    obtain ⟨entry, member, rfl⟩ := due
    obtain ⟨present, awaits⟩ := mem_page_iff.mp member
    obtain ⟨come, scheduled⟩ := Entry.awaits_iff.mp awaits
    exact ⟨mem_messageRows_iff.mpr ⟨entry, present, rfl⟩, entry.isScheduled_row.mpr scheduled, _,
      entry.ofTime_row.mpr rfl, come⟩
  · rintro ⟨member, scheduled, time, ofTime, come⟩
    obtain ⟨entry, present, rfl⟩ := mem_messageRows_iff.mp member
    rw [row_mem_dueRows_iff present, Entry.awaits_iff, entry.ofTime_row.mp ofTime]
    exact ⟨come, entry.isScheduled_row.mp scheduled⟩

/-- What is pruned leaves its position free. -/
theorem absent_of_prunes {act : Act} (member : entry ∈ (ofRun run).entries)
    (pruned : act.2.prunes entry = true) :
    entry.position ∉ positions (carryOut fresh (run ++ [act])) := by
  rw [mem_positions_iff, ofRun_append]
  rintro ⟨other, otherMember, same⟩
  rcases mem_entriesAfter_iff.mp otherMember with ⟨old, oldMember, next⟩ | added
  · obtain ⟨spared, rfl⟩ := Entry.next_eq_some_iff.mp next
    rw [eq_of_position oldMember member same, pruned] at spared
    cases spared
  · obtain ⟨now, rfl, _⟩ := exists_add added
    cases pruned

/-- An entry that a run does not leave has been published when it was pruned. -/
theorem pruned_of_gone (member : entry ∈ (ofRun run).entries) (gone : entry.after acts = none) :
    PrunedWhilePublished run acts entry.position := by
  obtain ⟨before, ⟨now, operation⟩, later, last, rfl, stays, pruned⟩ := Entry.exists_prune gone
  obtain ⟨cutoff, rfl, _, published⟩ := prunes_eq_true_iff.mp pruned
  have lastMember := mem_of_after member stays
  have position := Entry.position_after stays
  refine ⟨before, now, cutoff, later, rfl,
    publishedAt_iff.mpr ⟨last, lastMember, position, published⟩, ?_⟩
  rw [← position]
  exact absent_of_prunes lastMember pruned

/-- An entry whose ID is marked by a run is published after it, or has been published when it was
pruned. -/
theorem publishedAt_or_pruned (member : entry ∈ (ofRun run).entries)
    (marked : Marked acts entry.message.id) :
    PublishedAt (run ++ acts) entry.position ∨ PrunedWhilePublished run acts entry.position := by
  cases left : entry.after acts with
  | some last =>
      obtain ⟨position, _, published⟩ := Entry.after_eq_some empty left
      exact .inl (publishedAt_iff.mpr
        ⟨last, mem_of_after member left, position, published.mpr (.inr marked)⟩)
  | none => exact .inr (pruned_of_gone member left)

/-- An entry that was not published, and is after a run, has an ID that the run has marked. -/
theorem marked_of_publishedAt (member : entry ∈ (ofRun run).entries)
    (scheduled : entry.published = false)
    (publishedAt : PublishedAt (run ++ acts) entry.position) :
    Marked acts entry.message.id := by
  obtain ⟨other, otherMember, same, published⟩ := publishedAt_iff.mp publishedAt
  have stays := after_of_position member otherMember same
  have cause := (Entry.after_eq_some empty stays).2.2.mp published
  rw [scheduled] at cause
  exact cause.resolve_left Bool.false_ne_true

end Rows

/-! ## A publisher that is left alone -/

section Alone

variable {holdings : Holdings} {messages : List Message} {acts : List Act}

/-- An entry as a publisher leaves it that marks messages. -/
def Entry.publishedBy (messages : List Message) (entry : Entry) : Entry :=
  { entry with
    published := entry.published || messages.any fun message => entry.message.id = message.id }

/-- A publisher publishes the entries whose ID it marks, and changes nothing else. -/
theorem Publishes.entries_after (publishes : Publishes messages acts) :
    (holdings.after acts).entries = holdings.entries.map (Entry.publishedBy messages) := by
  induction acts generalizing holdings messages with
  | nil =>
      obtain rfl : messages = [] := List.map_eq_nil_iff.mp publishes.symm
      have same : Entry.publishedBy [] = id := by
        funext entry
        simp [Entry.publishedBy]
      rw [same, List.map_id]
      rfl
  | cons act rest ih =>
      obtain ⟨now, operation⟩ := act
      cases messages with
      | nil => cases publishes
      | cons message others =>
          obtain ⟨rfl, publishesRest⟩ := List.cons.inj publishes
          have marked : (holdings.next (now, .markPublished message)).entries =
              holdings.entries.map fun entry =>
                { entry with published := entry.published || entry.message.id = message.id } := by
            change holdings.entriesAfter _ = _
            unfold entriesAfter
            rw [← List.filterMap_eq_map]
            exact List.append_nil _
          change ((holdings.next (now, .markPublished message)).after rest).entries = _
          rw [ih publishesRest, marked, List.map_map]
          apply List.map_congr_left
          intro entry _
          simp [Entry.publishedBy, Bool.or_assoc]

end Alone

/-- A row that is published. -/
def publishedRow (row : Row) : Row :=
  row.put "published" (.integer 1)

theorem publishedRow_row (entry : Entry) :
    publishedRow entry.row = (⟨entry.position, entry.message, true⟩ : Entry).row := by
  rfl

/-- The rows that are not published have distinct IDs. -/
def ScheduledApart (run : List Act) : Prop :=
  (messageRows (carryOut fresh run)).Pairwise fun first second =>
    IsScheduled first → IsScheduled second → ∀ id, OfId id first → ¬ OfId id second

section Alone

variable {run acts : List Act} {now : Instant} {entry other : Entry}

/-- An entry that is not published is told apart by its ID. -/
theorem ScheduledApart.eq (apart : ScheduledApart run) (member : entry ∈ (ofRun run).entries)
    (otherMember : other ∈ (ofRun run).entries) (scheduled : entry.published = false)
    (otherScheduled : other.published = false) (same : entry.message.id = other.message.id) :
    entry = other := by
  rw [ScheduledApart, carryOut_fresh, messageRows_db, List.pairwise_map] at apart
  have distinct : ((ofRun run).entries.filter (!·.published)).Pairwise fun entry other =>
      entry.message.id ≠ other.message.id := by
    refine List.pairwise_filter.mpr (apart.imp ?_)
    intro entry other apart scheduled otherScheduled same
    rw [Bool.not_eq_true'] at scheduled otherScheduled
    exact apart (entry.isScheduled_row.mpr scheduled) (other.isScheduled_row.mpr otherScheduled) _
      (entry.ofId_row.mpr same) (other.ofId_row.mpr rfl)
  refine eq_of_key distinct (List.mem_filter.mpr ⟨member, ?_⟩)
    (List.mem_filter.mpr ⟨otherMember, ?_⟩) same
  · rw [scheduled, Bool.not_false]
  · rw [otherScheduled, Bool.not_false]

/-- The messages that are due. -/
def duePage (now : Instant) (run : List Act) : List Message :=
  ((ofRun run).page (Entry.awaits now)).map (·.message.stored)

/-- A message that is due has the ID of an entry that awaits the time. -/
theorem exists_duePage_iff {id : String} :
    (∃ message ∈ duePage now run, message.id = id) ↔
      ∃ entry ∈ (ofRun run).entries, entry.awaits now = true ∧ entry.message.id = id := by
  simp only [duePage, List.mem_map, mem_page_iff]
  constructor
  · rintro ⟨_, ⟨entry, ⟨member, awaits⟩, rfl⟩, same⟩
    exact ⟨entry, member, awaits, same⟩
  · rintro ⟨entry, member, awaits, same⟩
    exact ⟨_, ⟨entry, ⟨member, awaits⟩, rfl⟩, same⟩

/-- Of entries that are told apart by their IDs, a publisher that marks what is due publishes those
that await the time. -/
theorem ScheduledApart.published_iff (apart : ScheduledApart run)
    (member : entry ∈ (ofRun run).entries) :
    (entry.publishedBy (duePage now run)).published = true ↔
      entry.published = true ∨ entry.awaits now = true := by
  have found : ((duePage now run).any fun message => entry.message.id = message.id) = true ↔
      ∃ message ∈ duePage now run, message.id = entry.message.id := by
    rw [List.any_eq_true]
    exact exists_congr fun message => and_congr_right fun _ => by rw [decide_eq_true_eq, eq_comm]
  rw [Entry.publishedBy, Bool.or_eq_true, found, exists_duePage_iff]
  constructor
  · rintro (published | ⟨other, otherMember, awaits, same⟩)
    · exact .inl published
    · cases scheduled : entry.published with
      | true => exact .inl rfl
      | false =>
          have otherScheduled := (Entry.awaits_iff.mp awaits).2
          rw [apart.eq member otherMember scheduled otherScheduled same.symm]
          exact .inr awaits
  · rintro (published | awaits)
    · exact .inl published
    · exact .inr ⟨entry, member, awaits, rfl⟩

/-- A publisher that is left alone publishes the rows that are due and changes nothing else. -/
theorem ScheduledApart.rows_after (apart : ScheduledApart run)
    (publishes : Publishes (duePage now run) acts) :
    messageRows (carryOut fresh (run ++ acts)) =
      (messageRows (carryOut fresh run)).map fun row =>
        if row ∈ dueRows now (carryOut fresh run) then publishedRow row else row := by
  rw [carryOut_fresh, carryOut_fresh, ofRun_append, messageRows_db, messageRows_db,
    publishes.entries_after, List.map_map, List.map_map]
  apply List.map_congr_left
  intro entry member
  have published : (entry.publishedBy (duePage now run)).published = true ↔
      entry.published = true ∨ entry.awaits now = true := apart.published_iff member
  have after : entry.publishedBy (duePage now run) =
      ⟨entry.position, entry.message, (entry.publishedBy (duePage now run)).published⟩ := rfl
  have isDue : entry.row ∈ dueRows now (carryOut fresh run) ↔ entry.awaits now = true :=
    row_mem_dueRows_iff member
  rw [carryOut_fresh] at isDue
  rw [Function.comp_apply, Function.comp_apply]
  by_cases awaits : entry.awaits now = true
  · rw [if_pos (isDue.mpr awaits), publishedRow_row, after, published.mpr (.inr awaits)]
  · rw [if_neg (mt isDue.mp awaits), after]
    congr 2
    rw [Bool.eq_iff_iff, published, or_iff_left awaits]

/-- What is due at a time that is not later has been published by then. -/
theorem ScheduledApart.none_due (apart : ScheduledApart run)
    (publishes : Publishes (duePage now run) acts) {clock : Instant}
    (earlier : clock.seconds ≤ now.seconds) :
    (perform clock (carryOut fresh (run ++ acts)) .due).answer = .ok (.messages []) := by
  have none : (ofRun (run ++ acts)).page (Entry.awaits clock) = [] := by
    refine List.eq_nil_iff_forall_not_mem.mpr fun last lastMember => ?_
    obtain ⟨present, awaits⟩ := mem_page_iff.mp lastMember
    rw [ofRun_append, publishes.entries_after] at present
    obtain ⟨entry, member, rfl⟩ := List.mem_map.mp present
    obtain ⟨come, scheduled⟩ := Entry.awaits_iff.mp awaits
    have unpublished : ¬ (entry.published = true ∨ entry.awaits now = true) := by
      rw [← apart.published_iff member, scheduled]
      exact Bool.false_ne_true
    rw [not_or, Bool.not_eq_true, Entry.awaits_iff] at unpublished
    exact unpublished.2 ⟨Int.le_trans come earlier, unpublished.1⟩
  have answered : due clock (ofRun (run ++ acts)).db = .ok [] := by
    rw [due_db, none]
    rfl
  rw [carryOut_fresh]
  exact congrArg (Except.map Answer.messages) answered

end Alone

/-! ## Rounds -/

/-- A publisher asks what is due and marks each of these messages.  Whatever other clients do
meanwhile, each row that was due is published when the round is over, or was published when it was
pruned; and a row that has come to be published has the ID of a message that was due, or one that
another client has marked.  If there is no other client, and rows that are not published have
distinct IDs, the rows that were due are published, nothing else is changed, and nothing is due any
more. -/
theorem round_publishes_due (now : Instant) (run : List Act) :
    ∃ page, (perform now (carryOut fresh run) .due).answer = .ok (.messages page) ∧
      (dueRows now (carryOut fresh run)).mapM content = .ok page ∧
      (∀ row, row ∈ dueRows now (carryOut fresh run) ↔
        row ∈ messageRows (carryOut fresh run) ∧ IsScheduled row ∧
          ∃ time, OfTime time row ∧ time.toInt ≤ now.seconds) ∧
      ∀ marks others acts, Publishes page marks → Interleaved marks others acts →
        (∀ row ∈ dueRows now (carryOut fresh run),
          PublishedAt (run ++ acts) row.position ∨
            PrunedWhilePublished run acts row.position) ∧
        (∀ row ∈ messageRows (carryOut fresh run), IsScheduled row →
          PublishedAt (run ++ acts) row.position →
            ∃ id, OfId id row ∧ ((∃ message ∈ page, message.id = id) ∨ Marked others id)) ∧
        (others = [] → ScheduledApart run →
          messageRows (carryOut fresh (run ++ acts)) =
            (messageRows (carryOut fresh run)).map (fun row =>
              if row ∈ dueRows now (carryOut fresh run) then publishedRow row else row) ∧
          ∀ clock : Instant, clock.seconds ≤ now.seconds →
            (perform clock (carryOut fresh (run ++ acts)) .due).answer =
              .ok (.messages [])) := by
  have due : Store.due now (carryOut fresh run) = .ok (duePage now run) := by
    rw [carryOut_fresh]
    exact due_db now
  have rows : (dueRows now (carryOut fresh run)).mapM content = .ok (duePage now run) := by
    obtain ⟨page, shown, found⟩ :
        Shows (Store.due now (ofRun run).db) (dueRows now (ofRun run).db) := shows_due now
    rw [← carryOut_fresh, due] at shown
    cases shown
    rw [carryOut_fresh]
    exact found
  refine ⟨duePage now run, congrArg (Except.map Answer.messages) due, rows,
    fun row => mem_dueRows_iff, ?_⟩
  intro marks others acts publishes interleaved
  refine ⟨?published, ?caused, ?alone⟩
  case published =>
    intro row isDue
    obtain ⟨entry, member, rfl⟩ := mem_messageRows_iff.mp (mem_dueRows_iff.mp isDue).1
    have awaits := (row_mem_dueRows_iff member).mp isDue
    refine publishedAt_or_pruned member (interleaved.marked_iff.mpr (.inl ?_))
    exact publishes.marked_iff.mpr (exists_duePage_iff.mpr ⟨entry, member, awaits, rfl⟩)
  case caused =>
    intro row member scheduled publishedAt
    obtain ⟨entry, entryMember, rfl⟩ := mem_messageRows_iff.mp member
    have marked := marked_of_publishedAt entryMember (entry.isScheduled_row.mp scheduled)
      publishedAt
    exact ⟨entry.message.id, entry.ofId_row.mpr rfl,
      (interleaved.marked_iff.mp marked).imp_left publishes.marked_iff.mp⟩
  case alone =>
    rintro rfl apart
    cases interleaved.eq_first
    exact ⟨apart.rows_after publishes, fun clock => apart.none_due publishes⟩

/-- Of two scheduled messages, a publisher publishes the one that is due.  Another client may prune
it then. -/
theorem round_publishes_due_pruned :
    let early : Instant := ⟨5, 0, by decide, by decide, by decide⟩
    let late : Instant := ⟨20, 0, by decide, by decide, by decide⟩
    let first : Message := .plain "t" "a" 9 ""
    let second : Message := .plain "t" "b" 30 ""
    let run : List Act := [(early, .add first), (early, .add second)]
    let prune : Act := (late, .prune late)
    ∃ page marks, (perform late (carryOut fresh run) .due).answer = .ok (.messages page) ∧
      Publishes page marks ∧ Interleaved marks [prune] (marks ++ [prune]) ∧
      ⟨1, newRow first false⟩ ∈ dueRows late (carryOut fresh run) ∧
      (PublishedAt (run ++ (marks ++ [prune])) 1 ∨
        PrunedWhilePublished run (marks ++ [prune]) 1) ∧
      PublishedAt (run ++ marks) 1 ∧
      (∃ id, OfId id ⟨1, newRow first false⟩ ∧ ((∃ message ∈ page, message.id = id) ∨
        Marked [] id)) ∧
      ScheduledApart run ∧
      messageRows (carryOut fresh (run ++ marks)) =
        [⟨1, newRow first true⟩, ⟨2, newRow second false⟩] ∧
      (perform early (carryOut fresh (run ++ marks)) .due).answer = .ok (.messages []) := by
  intro early late first second run prune
  obtain ⟨page, answered, _, _, safe⟩ := round_publishes_due late run
  let marks : List Act := page.map fun message => (late, .markPublished message)
  have publishes : Publishes page marks := List.map_map
  have entries : (ofRun run).entries = [⟨1, first, false⟩, ⟨2, second, false⟩] := by decide
  have rows : messageRows (carryOut fresh run) =
      [⟨1, newRow first false⟩, ⟨2, newRow second false⟩] := by
    rw [carryOut_fresh, messageRows_db, entries]
    rfl
  have firstHeld : ⟨1, first, false⟩ ∈ (ofRun run).entries := by simp [entries]
  have secondHeld : ⟨2, second, false⟩ ∈ (ofRun run).entries := by simp [entries]
  have isDue : ⟨1, newRow first false⟩ ∈ dueRows late (carryOut fresh run) :=
    (row_mem_dueRows_iff firstHeld).mpr (by decide)
  have notDue : ⟨2, newRow second false⟩ ∉ dueRows late (carryOut fresh run) :=
    mt (row_mem_dueRows_iff secondHeld).mp (by decide)
  have apart : ScheduledApart run := by
    rw [ScheduledApart, rows]
    refine .cons ?_ (List.pairwise_singleton _ _)
    intro row member _ _ id ofFirst ofSecond
    rw [List.mem_singleton.mp member] at ofSecond
    have firstId : first.id = id := (Entry.ofId_row ⟨1, first, false⟩).mp ofFirst
    have secondId : second.id = id := (Entry.ofId_row ⟨2, second, false⟩).mp ofSecond
    exact absurd (firstId.trans secondId.symm) (by decide)
  have alone := interleaved_append marks []
  rw [List.append_nil] at alone
  obtain ⟨_, caused, left⟩ := safe marks [] marks publishes alone
  obtain ⟨after, noneDue⟩ := left rfl apart
  rw [rows, List.map_cons, List.map_singleton, if_pos isDue, if_neg notDue] at after
  have published : PublishedAt (run ++ marks) 1 :=
    ⟨⟨1, newRow first true⟩, after ▸ List.mem_cons_self, rfl,
      (Entry.isPublished_row ⟨1, first, true⟩).mpr rfl⟩
  have interleaved := interleaved_append marks [prune]
  exact ⟨page, marks, answered, publishes, interleaved, isDue,
    (safe marks [prune] _ publishes interleaved).1 _ isDue, published,
    caused ⟨1, newRow first false⟩ (mem_dueRows_iff.mp isDue).1 (mem_dueRows_iff.mp isDue).2.1
      published,
    apart, after, noneDue early (by decide)⟩

end MessageStore.Store
