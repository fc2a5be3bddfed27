import MessageStore.Proofs.Store.History

/-!
# The marker of a message in the light of history

A subscriber that names a message has seen all that was added before it.  If no
row of the topic has its ID any more, the marker stands for everything.
Otherwise what is wanted was added after the earliest such row, and, where
scheduled messages are wanted, what is not published yet.
-/

namespace MessageStore.Store

open Holdings
open Relational (Row)

/-- A row that stands before another on a page: it is to be delivered earlier, or at the same second
and was added earlier in the run. -/
def StandsBefore (run : List Act) (first second : Row) : Prop :=
  ∃ early late, OfTime early first ∧ OfTime late second ∧
    (early < late ∨ early = late ∧ AddedBefore run first.position second.position)

/-- A row that a subscriber wants who names a message: it was added after the row of this message,
and is published; where scheduled rows are wanted, rows that are not published count as well. -/
def WantedAfter (run : List Act) (seen : Row) (scheduled : Bool) (row : Row) : Prop :=
  match scheduled with
  | true => AddedBefore run seen.position row.position ∨ IsScheduled row
  | false => AddedBefore run seen.position row.position ∧ IsPublished row

variable {run : List Act}

/-- Of two entries that a run leaves, the first was added before the second if its position is
less. -/
theorem addedBefore_entry_iff {first second : Entry} (member : first ∈ (ofRun run).entries)
    (secondMember : second ∈ (ofRun run).entries) :
    AddedBefore run first.row.position second.row.position ↔ first.position < second.position :=
  addedBefore_iff (mem_positions_iff.mpr ⟨first, member, rfl⟩)
    (mem_positions_iff.mpr ⟨second, secondMember, rfl⟩)

theorem standsBefore_row {first second : Entry} (member : first ∈ (ofRun run).entries)
    (secondMember : second ∈ (ofRun run).entries) (before : first.Before second) :
    StandsBefore run first.row second.row := by
  refine ⟨_, _, first.ofTime_row.mpr rfl, second.ofTime_row.mpr rfl, ?_⟩
  rw [addedBefore_entry_iff member secondMember]
  exact before

/-- The replay behind an entry wants what a subscriber wants who has seen it. -/
theorem wants_behind_iff {seen entry : Entry} (member : seen ∈ (ofRun run).entries)
    (entryMember : entry ∈ (ofRun run).entries) (scheduled : Bool) :
    (Replay.behind seen.position scheduled).wants entry = true ↔
      WantedAfter run seen.row scheduled entry.row := by
  cases scheduled with
  | true =>
      rw [WantedAfter, addedBefore_entry_iff member entryMember, Entry.isScheduled_row]
      simp [Replay.wants]
  | false =>
      rw [WantedAfter, addedBefore_entry_iff member entryMember, Entry.isPublished_row]
      simp [Replay.wants]

/-- The rows that a replay behind an entry wants: each once, in order. -/
theorem rows_behind {seen : Entry} (member : seen ∈ (ofRun run).entries) (topic : String)
    (scheduled : Bool) :
    let rows := ((ofRun run).replayed topic (.behind seen.position scheduled)).map Entry.row
    rows.Nodup ∧ rows.Pairwise (StandsBefore run) ∧
      ∀ row, row ∈ rows ↔ row ∈ messageRows (carryOut fresh run) ∧ OfTopic topic row ∧
        WantedAfter run seen.row scheduled row := by
  refine ⟨?apart, ?ordered, fun row => ?wanted⟩
  case apart =>
    refine List.pairwise_map.mpr ((page_apart _).imp fun apart same => ?_)
    exact apart (congrArg Row.position same)
  case ordered =>
    refine List.pairwise_map.mpr ((page_ordered _).imp_of_mem ?_)
    intro first second firstMember secondMember before
    exact standsBefore_row (mem_replayed_iff.mp firstMember).1
      (mem_replayed_iff.mp secondMember).1 before
  case wanted =>
    rw [mem_messageRows_iff, List.mem_map]
    constructor
    · rintro ⟨entry, entryMember, rfl⟩
      obtain ⟨present, ofTopic, wants⟩ := mem_replayed_iff.mp entryMember
      exact ⟨⟨entry, present, rfl⟩, entry.ofTopic_row.mpr ofTopic,
        (wants_behind_iff member present scheduled).mp wants⟩
    · rintro ⟨⟨entry, present, rfl⟩, ofTopic, wants⟩
      exact ⟨entry, mem_replayed_iff.mpr ⟨present, entry.ofTopic_row.mp ofTopic,
        (wants_behind_iff member present scheduled).mpr wants⟩, rfl⟩

/-- After every run, the marker of a message that is not there stands for everything.  If it is
there, what is returned are the rows of the topic that were added after the earliest of its rows and
are published, or, where scheduled messages are wanted, those added after it or not published: each
row once, by time and then by the order of addition. -/
theorem messages_after_id (run : List Act) (topic id : String) (scheduled : Bool) :
    ((∀ row ∈ messageRows (carryOut fresh run), OfTopic topic row → ¬ OfId id row) ∧
      ∃ page, messages topic (.message id) scheduled (carryOut fresh run) = .ok page ∧
        messages topic .everything scheduled (carryOut fresh run) = .ok page) ∨
    ∃ seen ∈ messageRows (carryOut fresh run), OfTopic topic seen ∧ OfId id seen ∧
      (∀ row ∈ messageRows (carryOut fresh run), OfTopic topic row → OfId id row →
        row = seen ∨ AddedBefore run seen.position row.position) ∧
      ∃ rows, Shows (messages topic (.message id) scheduled (carryOut fresh run)) rows ∧
        rows.Nodup ∧ rows.Pairwise (StandsBefore run) ∧
        ∀ row, row ∈ rows ↔ row ∈ messageRows (carryOut fresh run) ∧ OfTopic topic row ∧
          WantedAfter run seen scheduled row := by
  cases found : (ofRun run).first? topic id with
  | none =>
      left
      constructor
      · intro row member ofTopic ofId
        obtain ⟨entry, entryMember, rfl⟩ := mem_messageRows_iff.mp member
        have other := List.find?_eq_none.mp found entry entryMember
        simp [entry.ofTopic_row.mp ofTopic, entry.ofId_row.mp ofId] at other
      · rw [carryOut_fresh, messages_db, messages_db, shown, shown, replay_of_none found]
        exact ⟨_, rfl, rfl⟩
  | some seen =>
      right
      obtain ⟨member, ofTopic, ofId, least⟩ := first?_eq_some found
      refine ⟨seen.row, mem_messageRows_iff.mpr ⟨seen, member, rfl⟩,
        seen.ofTopic_row.mpr ofTopic, seen.ofId_row.mpr ofId, ?_, _, ?_,
        rows_behind member topic scheduled⟩
      · intro row rowMember rowTopic rowId
        obtain ⟨entry, entryMember, rfl⟩ := mem_messageRows_iff.mp rowMember
        rw [addedBefore_entry_iff member entryMember]
        exact (least entry entryMember (entry.ofTopic_row.mp rowTopic)
          (entry.ofId_row.mp rowId)).imp_left (congrArg Entry.row)
      · rw [carryOut_fresh, messages_db, shown, replay_of_some found]
        exact shows_rows _

end MessageStore.Store
