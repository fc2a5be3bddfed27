import MessageStore.Proofs.Store.History

/-!
# No message is lost, and none is delivered twice

A row that is not published stays where it is until its ID is marked, and all
that time it is due once its second has come.  A row that is published is never
due again.  Only rows that are published can be pruned, and what is gone does
not come back: positions are not used again.
-/

namespace MessageStore.Store

open Holdings
open Relational (Database Row)

/-! ## What one act can take out -/

/-- What takes out an entry is a prune behind its time, and the entry is published. -/
theorem prunes_eq_true_iff {operation : Operation} {entry : Entry} :
    operation.prunes entry = true ↔ ∃ cutoff, operation = .prune cutoff ∧
      entry.message.time.toInt < cutoff.seconds ∧ entry.published = true := by
  cases operation <;> simp [Operation.prunes]

/-- An entry whose position is free after one more act has been pruned by it. -/
theorem prunes_of_absent {run : List Act} {act : Act} {entry : Entry}
    (member : entry ∈ (ofRun run).entries)
    (absent : entry.position ∉ positions (carryOut fresh (run ++ [act]))) :
    act.2.prunes entry = true := by
  cases pruned : act.2.prunes entry with
  | true => rfl
  | false =>
      have left := mem_entriesAfter_iff.mpr
        (.inl ⟨entry, member, Entry.next_eq_some_iff.mpr ⟨pruned, rfl⟩⟩)
      rw [mem_positions_iff, ofRun_append] at absent
      exact absurd ⟨_, left, rfl⟩ absent

/-! ## What a run can do to an entry -/

/-- An entry that a run does not leave has been pruned at some time. -/
theorem Entry.exists_prune {acts : List Act} {entry : Entry} (gone : entry.after acts = none) :
    ∃ before act later last, acts = before ++ act :: later ∧ entry.after before = some last ∧
      act.2.prunes last = true := by
  induction acts generalizing entry with
  | nil => cases gone
  | cons act rest ih =>
      rw [Entry.after] at gone
      cases next : entry.next act.2 with
      | none =>
          have pruned : act.2.prunes entry = true := by
            unfold Entry.next at next
            split at next
            · assumption
            · cases next
          exact ⟨[], act, rest, entry, rfl, rfl, pruned⟩
      | some middle =>
          rw [next] at gone
          obtain ⟨before, other, later, last, rfl, stays, pruned⟩ := ih gone
          refine ⟨act :: before, other, later, last, rfl, ?_, pruned⟩
          rw [Entry.after, next]
          exact stays

/-- An entry that is not published stays, and stays so, until its ID is marked. -/
theorem Entry.after_of_unmarked {run : List Act} {entry : Entry}
    (scheduled : entry.published = false) (unmarked : ¬ Marked run entry.message.id) :
    ∃ later, entry.after run = some later ∧ later.published = false := by
  cases stays : entry.after run with
  | some later =>
      obtain ⟨_, _, published⟩ := Entry.after_eq_some empty stays
      refine ⟨later, rfl, ?_⟩
      rw [← Bool.not_eq_true, published, scheduled, not_or]
      exact ⟨Bool.false_ne_true, unmarked⟩
  | none =>
      obtain ⟨before, act, later, last, rfl, left, pruned⟩ := Entry.exists_prune stays
      obtain ⟨_, _, _, published⟩ := prunes_eq_true_iff.mp pruned
      have cause := (Entry.after_eq_some empty left).2.2.mp published
      rw [scheduled] at cause
      obtain ⟨mark, member, marks⟩ := cause.resolve_left Bool.false_ne_true
      exact absurd ⟨mark, List.mem_append_left _ member, marks⟩ unmarked

/-- What has the position of a published entry is published in all that follows. -/
theorem published_of_published {run later : List Act} {entry other : Entry}
    (member : entry ∈ (ofRun run).entries) (published : entry.published = true)
    (otherMember : other ∈ (ofRun (run ++ later)).entries)
    (same : other.position = entry.position) : other.published = true := by
  have stays := after_of_position member otherMember same
  exact (Entry.after_eq_some empty stays).2.2.mpr (.inl published)

/-! ## What is due -/

/-- The positions of the rows that are due at a time and not published. -/
def duePositions (clock : Instant) (db : Database) : List Int64 :=
  (dueRows clock db).map (·.position)

theorem mem_duePositions_iff {clock : Instant} {run : List Act} {position : Int64} :
    position ∈ duePositions clock (carryOut fresh run) ↔
      ∃ entry ∈ (ofRun run).entries, entry.position = position ∧
        entry.message.time.toInt ≤ clock.seconds ∧ entry.published = false := by
  rw [duePositions, carryOut_fresh, dueRows_db, List.map_map, List.mem_map]
  simp only [mem_page_iff, Entry.awaits, decide_eq_true_eq, Bool.not_eq_true', and_assoc]
  constructor
  · rintro ⟨entry, member, time, scheduled, same⟩
    exact ⟨entry, member, same, time, scheduled⟩
  · rintro ⟨entry, member, same, time, scheduled⟩
    exact ⟨entry, member, time, scheduled, same⟩

/-- In every run: what is due is returned as it stands in its rows; a row only goes when it is
published and pruned behind its time; a row that is not published, as it may be from the act on that
added it, is due from its second on until its ID is marked; a row that is published is not due any
more; and a position that is free again is not used again, since later rows come behind all that
there have been. -/
theorem scheduled_until_marked (run : List Act) :
    (∀ clock, Shows (due clock (carryOut fresh run)) (dueRows clock (carryOut fresh run))) ∧
    (∀ act, ∀ row ∈ messageRows (carryOut fresh run),
      row.position ∉ positions (carryOut fresh (run ++ [act])) →
        ∃ cutoff time, act.2 = .prune cutoff ∧ IsPublished row ∧ OfTime time row ∧
          time.toInt < cutoff.seconds) ∧
    (∀ later, ∀ row ∈ messageRows (carryOut fresh run), ¬ IsPublished row →
      ∃ id time, OfId id row ∧ OfTime time row ∧ (¬ Marked later id →
        ∀ clock : Instant, time.toInt ≤ clock.seconds →
          row.position ∈ duePositions clock (carryOut fresh (run ++ later)))) ∧
    (∀ later, ∀ row ∈ messageRows (carryOut fresh run), IsPublished row →
      ∀ clock, row.position ∉ duePositions clock (carryOut fresh (run ++ later))) ∧
    ∀ later, ∀ position ∈ positions (carryOut fresh run),
      (position ∉ positions (carryOut fresh (run ++ later)) →
        ∀ rest, position ∉ positions (carryOut fresh (run ++ later ++ rest))) ∧
      ∀ act added, Adds (run ++ later) act added → position < added := by
  refine ⟨?shown, ?pruned, ?awaited, ?settled, ?gone⟩
  case shown =>
    intro clock
    rw [carryOut_fresh]
    exact shows_due clock
  case pruned =>
    intro act row member absent
    obtain ⟨entry, entryMember, rfl⟩ := mem_messageRows_iff.mp member
    obtain ⟨cutoff, pruned, behind, published⟩ :=
      prunes_eq_true_iff.mp (prunes_of_absent entryMember absent)
    exact ⟨cutoff, entry.message.time, pruned, entry.isPublished_row.mpr published,
      entry.ofTime_row.mpr rfl, behind⟩
  case awaited =>
    intro later row member unpublished
    obtain ⟨entry, entryMember, rfl⟩ := mem_messageRows_iff.mp member
    rw [Entry.isPublished_row, Bool.not_eq_true] at unpublished
    refine ⟨_, _, entry.ofId_row.mpr rfl, entry.ofTime_row.mpr rfl, fun unmarked clock due => ?_⟩
    obtain ⟨last, stays, scheduled⟩ := Entry.after_of_unmarked unpublished unmarked
    obtain ⟨position, message, _⟩ := Entry.after_eq_some empty stays
    refine mem_duePositions_iff.mpr ⟨last, ?_, position, ?_, scheduled⟩
    · rw [ofRun_append]
      exact mem_after_iff.mpr (.inl ⟨entry, entryMember, stays⟩)
    · rw [message]
      exact due
  case settled =>
    intro later row member published clock awaited
    obtain ⟨entry, entryMember, rfl⟩ := mem_messageRows_iff.mp member
    obtain ⟨other, otherMember, same, _, scheduled⟩ := mem_duePositions_iff.mp awaited
    rw [published_of_published entryMember (entry.isPublished_row.mp published) otherMember same]
      at scheduled
    cases scheduled
  case gone =>
    intro later position present
    have bound := toInt_le_largest present
    have grown : (ofRun run).largest ≤ (ofRun (run ++ later)).largest := largest_le_append
    constructor
    · intro absent rest returned
      obtain ⟨entry, member, rfl⟩ := mem_positions_iff.mp returned
      rw [ofRun_append] at member
      rcases old_or_behind member with ⟨old, oldMember, stays⟩ | behind
      · exact absent (mem_positions_iff.mpr
          ⟨old, oldMember, (Entry.position_after stays).symm⟩)
      · omega
    · intro act added adds
      obtain ⟨entry, found, rfl⟩ := adds_iff.mp adds
      rw [Int64.lt_iff_toInt_lt, position_added found]
      omega

/-- Of a scheduled message and one that is due, a prune takes out the second only. -/
theorem scheduled_until_marked_pruned :
    let early : Instant := ⟨5, 0, by decide, by decide, by decide⟩
    let late : Instant := ⟨20, 0, by decide, by decide, by decide⟩
    let first : Message := .plain "t" "a" 9 ""
    let second : Message := .plain "t" "b" 3 ""
    let run : List Act := [(early, .add first), (early, .add second)]
    let prune : Act := (late, .prune late)
    let scheduled : Row := ⟨1, newRow first false⟩
    let published : Row := ⟨2, newRow second true⟩
    (published ∈ messageRows (carryOut fresh run) ∧
      published.position ∉ positions (carryOut fresh (run ++ [prune])) ∧
      ∃ cutoff time, prune.2 = .prune cutoff ∧ IsPublished published ∧ OfTime time published ∧
        time.toInt < cutoff.seconds) ∧
    (scheduled ∈ messageRows (carryOut fresh run) ∧ ¬ IsPublished scheduled ∧
      ¬ Marked [prune] first.id ∧
      scheduled.position ∈ duePositions late (carryOut fresh (run ++ [prune]))) ∧
    (∀ clock, published.position ∉ duePositions clock (carryOut fresh (run ++ [prune]))) ∧
    (∀ rest, published.position ∉ positions (carryOut fresh (run ++ [prune] ++ rest))) ∧
    Adds (run ++ [prune]) (early, .add second) 3 ∧ published.position < 3 := by
  intro early late first second run prune scheduled published
  obtain ⟨_, pruned, awaited, settled, gone⟩ := scheduled_until_marked run
  have entries : (ofRun run).entries = [⟨1, first, false⟩, ⟨2, second, true⟩] := by decide
  have left : (ofRun (run ++ [prune])).entries = [⟨1, first, false⟩] := by decide
  have rows : messageRows (carryOut fresh run) = [scheduled, published] := by
    rw [carryOut_fresh, messageRows_db, entries]
    rfl
  have present : published ∈ messageRows (carryOut fresh run) := by simp [rows]
  have awaits : scheduled ∈ messageRows (carryOut fresh run) := by simp [rows]
  have isPublished : IsPublished published :=
    (Entry.isPublished_row ⟨2, second, true⟩).mpr rfl
  have isScheduled : ¬ IsPublished scheduled :=
    mt (Entry.isPublished_row ⟨1, first, false⟩).mp Bool.false_ne_true
  have absent : published.position ∉ positions (carryOut fresh (run ++ [prune])) := by
    rw [mem_positions_iff, left]
    decide
  have unmarked : ¬ Marked [prune] first.id := by
    simp [Marked, prune, Operation.marks]
  have isDue : scheduled.position ∈ duePositions late (carryOut fresh (run ++ [prune])) := by
    obtain ⟨id, time, ofId, ofTime, due⟩ := awaited [prune] scheduled awaits isScheduled
    cases (Entry.ofId_row ⟨1, first, false⟩).mp ofId
    cases (Entry.ofTime_row ⟨1, first, false⟩).mp ofTime
    exact due unmarked late (by decide)
  have adds : Adds (run ++ [prune]) (early, .add second) 3 :=
    adds_iff.mpr ⟨⟨3, second, true⟩, by decide, rfl⟩
  have used : published.position ∈ positions (carryOut fresh run) :=
    List.mem_map.mpr ⟨published, present, rfl⟩
  exact ⟨⟨present, absent, pruned prune published present absent⟩,
    ⟨awaits, isScheduled, unmarked, isDue⟩,
    settled [prune] published present isPublished,
    (gone [prune] 2 used).1 absent,
    adds, (gone [prune] 2 used).2 _ 3 adds⟩

end MessageStore.Store
