import MessageStore.Proofs.Store.History

/-!
# Where rows come from

Every row that a run leaves stems from one act that has added its message.  The
row says what this message says, with the editable part of the last update that
has succeeded since.  It is published if the message was due when it was added,
or if its ID has been marked since.
-/

namespace MessageStore.Store

open Holdings
open Relational (Row)

/-- A row stems from the act of a run that has added its message: the act succeeded, its row is the
one with this position, and no other act of the run has added a row with it. -/
structure StemsFrom (run : List Act) (row : Row) (before : List Act) (now : Instant)
    (message : Message) (later : List Act) : Prop where
  split : run = before ++ (now, .add message) :: later
  succeeds : Succeeds (carryOut fresh before) (now, .add message)
  adds : Adds before (now, .add message) row.position
  unique : ∀ other act rest, run = other ++ act :: rest → Adds other act row.position →
    other = before

/-- A message that is added gets one row, behind all others, whose position no row has had before.
A row stems from an act that has added its message; it has the editable part of the last update
that has succeeded since, and is published if the message was due or has been marked since. -/
theorem rows_stem_from_additions (run : List Act) :
    (∀ now message, Succeeds (carryOut fresh run) (now, .add message) →
      ∃ position, (∀ before, before <+: run → position ∉ positions (carryOut fresh before)) ∧
        messageRows (carryOut fresh (run ++ [(now, .add message)])) =
          messageRows (carryOut fresh run) ++
            [⟨position, newRow message (message.isDue now.seconds)⟩]) ∧
      ∀ row ∈ messageRows (carryOut fresh run), ∃ before now message later,
        StemsFrom run row before now message later ∧
          ∃ published, (published = true ↔
              message.time.toInt ≤ now.seconds ∨ Marked later message.id) ∧
            row.cells = newRow (message.edited (lastEdit (successes
              (carryOut fresh (before ++ [(now, .add message)])) later) message)) published := by
  constructor
  · intro now message succeeds
    rw [carryOut_fresh] at succeeds
    obtain ⟨added, found⟩ := succeeds_add_iff.mp succeeds
    obtain ⟨_, same, published⟩ := exists_add found
    cases same
    refine ⟨added.position, ?_, ?_⟩
    · rintro before ⟨rest, rfl⟩ present
      have bound := toInt_le_largest present
      have grown : (ofRun before).largest ≤ (ofRun (before ++ rest)).largest := largest_le_append
      rw [position_added found] at bound
      omega
    · have after : ofRun (run ++ [(now, .add added.message)]) = (ofRun run).next _ := ofRun_append
      rw [carryOut_fresh, carryOut_fresh, messageRows_db, messageRows_db, after,
        entries_next_add _ _ found, List.map_append, ← published]
      rfl
  · intro row member
    obtain ⟨entry, entryMember, rfl⟩ := mem_messageRows_iff.mp member
    obtain ⟨before, act, later, added, split, found, stays⟩ := exists_origin entryMember
    obtain ⟨now, rfl, due⟩ := exists_add found
    obtain ⟨position, edited, published⟩ :=
      Entry.after_eq_some (ofRun (before ++ [(now, .add added.message)])) stays
    have adds : Adds before (now, .add added.message) entry.position :=
      adds_iff.mpr ⟨added, found, position.symm⟩
    refine ⟨before, now, added.message, later, ⟨split, ?_, adds, ?_⟩, entry.published, ?_, ?_⟩
    · rw [carryOut_fresh]
      exact succeeds_add_iff.mpr ⟨added, found⟩
    · intro other act rest otherSplit otherAdds
      exact (adds_unique (split.symm.trans otherSplit) adds otherAdds).1.symm
    · rw [published, due, Message.isDue, decide_eq_true_eq]
    · rw [carryOut_fresh, ← edited]
      rfl

/-- A message that was scheduled, edited and marked under the same ID in another topic; one more is
added behind it. -/
theorem rows_stem_from_additions_marked :
    let clock : Instant := ⟨5, 0, by decide, by decide, by decide⟩
    let first : Message := .plain "t" "a" 9 "first"
    let edit : Message := .plain "t" "a" 3 "second"
    let run : List Act :=
      [(clock, .add first), (clock, .update edit), (clock, .markPublished (.plain "u" "a" 0 ""))]
    (Succeeds (carryOut fresh run) (clock, .add first) ∧
      ∃ position, (∀ before, before <+: run → position ∉ positions (carryOut fresh before)) ∧
        messageRows (carryOut fresh (run ++ [(clock, .add first)])) =
          messageRows (carryOut fresh run) ++ [⟨position, newRow first false⟩]) ∧
      ⟨1, newRow (first.edited edit) true⟩ ∈ messageRows (carryOut fresh run) ∧
        ∃ before now message later,
          StemsFrom run ⟨1, newRow (first.edited edit) true⟩ before now message later ∧
            ∃ published, (published = true ↔
                message.time.toInt ≤ now.seconds ∨ Marked later message.id) ∧
              newRow (first.edited edit) true = newRow (message.edited (lastEdit (successes
                (carryOut fresh (before ++ [(now, .add message)])) later) message)) published := by
  intro clock first edit run
  obtain ⟨added, stems⟩ := rows_stem_from_additions run
  have succeeds : Succeeds (carryOut fresh run) (clock, .add first) := by
    have found : (ofRun run).added? (clock, .add first) = some ⟨2, first, false⟩ := by decide
    rw [carryOut_fresh]
    exact succeeds_add_iff.mpr ⟨_, found⟩
  have present : ⟨1, newRow (first.edited edit) true⟩ ∈ messageRows (carryOut fresh run) := by
    have entries : (ofRun run).entries = [⟨1, first.edited edit, true⟩] := rfl
    rw [carryOut_fresh, messageRows_db, entries]
    exact List.mem_singleton_self _
  exact ⟨⟨succeeds, added clock first succeeds⟩, present, stems _ present⟩

end MessageStore.Store
