import MessageStore.Proofs.Store.Shown

/-!
# Messages that are never shown

A subscriber that wants published messages only does not see what is still
scheduled when it asks.  If it then names a message that was added later, it
will not see it after it has been published either: the marker goes by the order
of addition.  Nothing else that is published is missed.
-/

namespace MessageStore.Store

open Holdings
open Relational (Row)

section Missing

variable {topic id : String} {since : Since} {run later : List Act} {seen : Row}
variable {known entry old : Entry}

/-- What was scheduled is on no page without scheduled messages. -/
theorem not_shown_of_scheduled (member : old ∈ (ofRun run).entries)
    (scheduled : old.published = false) :
    old.position ∉ (shownRows topic since false (carryOut fresh run)).map (·.position) := by
  intro shown
  obtain ⟨row, rowShown, same⟩ := List.mem_map.mp shown
  obtain ⟨other, stands⟩ := exists_standsFor rowShown
  have published := stands.published
  rw [eq_of_position stands.member member (stands.position.trans same), scheduled] at published
  cases published

/-- What was published is shown to whoever asks for everything. -/
theorem shown_of_published (regular : Regular topic run) (member : old ∈ (ofRun run).entries)
    (ofTopic : old.message.topic = topic) (published : old.published = true) :
    old.row ∈ shownRows topic .everything false (carryOut fresh run) := by
  have wants := regular.wants_everything member ofTopic
  have wanted : (Replay.fromSecond 0 false).wants old = true := by
    simpa [Replay.wants, published] using wants
  exact mem_shownRows_iff.mpr ⟨old, member, rfl, ofTopic, wanted⟩

/-- What is there in the end, was not shown at first and does not lie behind the row that is named,
was scheduled at first. -/
theorem StandsFor.exists_scheduled (stands : StandsFor topic run seen known)
    (regular : Regular topic run) (member : entry ∈ (ofRun (run ++ later)).entries)
    (ofTopic : entry.message.topic = topic) (notBehind : ¬ seen.position < entry.position)
    (notShown : entry.position ∉
      (shownRows topic .everything false (carryOut fresh run)).map (·.position)) :
    ∃ old ∈ (ofRun run).entries, old.position = entry.position ∧ old.published = false ∧
      old.position < seen.position := by
  rw [ofRun_append] at member
  rcases old_or_behind member with ⟨old, oldMember, stays⟩ | behind
  · obtain ⟨position, edited, _⟩ := Entry.after_eq_some empty stays
    rw [edited] at ofTopic
    have scheduled : old.published = false := by
      rw [← Bool.not_eq_true]
      intro published
      exact notShown (List.mem_map.mpr
        ⟨old.row, shown_of_published regular oldMember ofTopic published, position.symm⟩)
    have apart : old.position ≠ seen.position := by
      intro same
      have published := stands.published
      rw [← eq_of_position oldMember stands.member (same.trans stands.position.symm),
        scheduled] at published
      cases published
    refine ⟨old, oldMember, position.symm, scheduled, ?_⟩
    rw [position, Int64.lt_iff_toInt_lt] at notBehind
    rw [ne_eq, ← Int64.toInt_inj] at apart
    rw [Int64.lt_iff_toInt_lt]
    omega
  · have bound : known.position.toInt ≤ (ofRun run).largest := (ofRun run).bound known stands.member
    rw [stands.position] at bound
    rw [Int64.lt_iff_toInt_lt] at notBehind
    omega

end Missing

/-- A subscriber first asks for everything, and in the end for what comes after a message that it
was shown; nothing is pruned in between.  A row that is published in the end is on neither page
exactly if it was scheduled when the subscriber first asked and was added before the row of the
message that it names. -/
theorem missed_iff_scheduled_before {topic id : String} {before later : List Act} {seen : Row}
    (regular : Regular topic before) (unpruned : Unpruned later)
    (shown : seen ∈ shownRows topic .everything false (carryOut fresh before))
    (ofId : OfId id seen) :
    let first := shownRows topic .everything false (carryOut fresh before)
    let second := shownRows topic (.message id) false (carryOut fresh (before ++ later))
    Shows (messages topic .everything false (carryOut fresh before)) first ∧
      Shows (messages topic (.message id) false (carryOut fresh (before ++ later))) second ∧
      ∀ row ∈ messageRows (carryOut fresh (before ++ later)), OfTopic topic row →
        IsPublished row →
          (row.position ∉ first.map (·.position) ∧ row ∉ second ↔
            ∃ old ∈ messageRows (carryOut fresh before), old.position = row.position ∧
              IsScheduled old ∧ AddedBefore before old.position seen.position) := by
  intro first second
  refine ⟨?_, ?_, fun row member ofTopic isPublished => ?_⟩
  · simp only [first, carryOut_fresh]
    exact shows_messages _ _ _
  · simp only [second, carryOut_fresh]
    exact shows_messages _ _ _
  obtain ⟨known, stands⟩ := exists_standsFor shown
  obtain ⟨entry, entryMember, rfl⟩ := mem_messageRows_iff.mp member
  rw [Entry.ofTopic_row] at ofTopic
  rw [Entry.isPublished_row] at isPublished
  constructor
  · rintro ⟨notFirst, notSecond⟩
    have notBehind : ¬ seen.position < entry.position := fun behind =>
      notSecond ((stands.mem_shownRows_iff regular unpruned ofId).mpr
        ⟨entry, entryMember, rfl, ofTopic, behind, isPublished⟩)
    obtain ⟨old, oldMember, same, scheduled, ahead⟩ :=
      stands.exists_scheduled regular entryMember ofTopic notBehind notFirst
    exact ⟨old.row, mem_messageRows_iff.mpr ⟨old, oldMember, rfl⟩, same,
      old.isScheduled_row.mpr scheduled,
      (addedBefore_iff (mem_positions_iff.mpr ⟨old, oldMember, rfl⟩) stands.present).mpr ahead⟩
  · rintro ⟨oldRow, oldMember, same, isScheduled, added⟩
    obtain ⟨old, present, rfl⟩ := mem_messageRows_iff.mp oldMember
    have position : old.position = entry.position := same
    constructor
    · change entry.position ∉ _
      rw [← position]
      exact not_shown_of_scheduled present (old.isScheduled_row.mp isScheduled)
    · intro onSecond
      obtain ⟨other, _, otherSame, _, behind, _⟩ :=
        (stands.mem_shownRows_iff regular unpruned ofId).mp onSecond
      have ahead : old.position < seen.position :=
        (addedBefore_iff (mem_positions_iff.mpr ⟨old, present, rfl⟩) stands.present).mp added
      have otherPosition : other.position = entry.position := congrArg Row.position otherSame
      rw [position, ← otherPosition] at ahead
      exact Int64.lt_asymm ahead behind

/-- Of what a subscriber was not shown at first, it misses what was scheduled then, and not what has
been added since. -/
theorem missed_iff_scheduled_before_marked :
    let early : Instant := ⟨5, 0, by decide, by decide, by decide⟩
    let late : Instant := ⟨20, 0, by decide, by decide, by decide⟩
    let first : Message := .plain "t" "a" 9 ""
    let second : Message := .plain "t" "b" 3 ""
    let third : Message := .plain "t" "c" 4 ""
    let before : List Act := [(early, .add first), (early, .add second)]
    let later : List Act := [(late, .markPublished first), (late, .add third)]
    let seen : Row := ⟨2, newRow second true⟩
    let missed : Row := ⟨1, newRow first true⟩
    let added : Row := ⟨3, newRow third true⟩
    let firstPage := shownRows "t" .everything false (carryOut fresh before)
    let secondPage := shownRows "t" (.message "b") false (carryOut fresh (before ++ later))
    Regular "t" before ∧ Unpruned later ∧ seen ∈ firstPage ∧ OfId "b" seen ∧
      (missed ∈ messageRows (carryOut fresh (before ++ later)) ∧
        missed.position ∉ firstPage.map (·.position) ∧ missed ∉ secondPage) ∧
      added ∈ messageRows (carryOut fresh (before ++ later)) ∧
        ¬ (added.position ∉ firstPage.map (·.position) ∧ added ∉ secondPage) := by
  intro early late first second third before later seen missed added firstPage secondPage
  have regular : Regular "t" before := .of_all (by decide) (by decide)
  have unpruned : Unpruned later := by simp [Unpruned, later]
  have shown : seen ∈ firstPage :=
    mem_shownRows_iff.mpr ⟨⟨2, second, true⟩, by decide, rfl, rfl, by decide⟩
  have ofId : OfId "b" seen := rfl
  obtain ⟨_, _, missedIff⟩ := missed_iff_scheduled_before regular unpruned shown ofId
  have rows : messageRows (carryOut fresh before) = [⟨1, newRow first false⟩, seen] := by
    have entries : (ofRun before).entries = [⟨1, first, false⟩, ⟨2, second, true⟩] := by decide
    rw [carryOut_fresh, messageRows_db, entries]
    rfl
  have ahead : AddedBefore before 1 2 := by
    refine (addedBefore_iff ?_ ?_).mpr (by decide) <;> simp [positions, rows, seen]
  have missedPresent : missed ∈ messageRows (carryOut fresh (before ++ later)) :=
    mem_messageRows_iff.mpr ⟨⟨1, first, true⟩, by decide, rfl⟩
  have addedPresent : added ∈ messageRows (carryOut fresh (before ++ later)) :=
    mem_messageRows_iff.mpr ⟨⟨3, third, true⟩, by decide, rfl⟩
  refine ⟨regular, unpruned, shown, ofId, ⟨missedPresent, ?_⟩, addedPresent, ?_⟩
  · exact (missedIff missed missedPresent rfl rfl).mpr
      ⟨⟨1, newRow first false⟩, by simp [rows], rfl, rfl, ahead⟩
  · refine mt (missedIff added addedPresent rfl rfl).mp ?_
    rintro ⟨old, member, same, _⟩
    rw [rows] at member
    rcases List.mem_cons.mp member with rfl | member
    · cases same
    · rw [List.mem_singleton.mp member] at same
      cases same

/-- A message that was scheduled when the subscriber first asked is on neither page, although it was
published in between: the subscriber names one that was added later. -/
theorem missed_scheduled_before :
    let early : Instant := ⟨5, 0, by decide, by decide, by decide⟩
    let late : Instant := ⟨20, 0, by decide, by decide, by decide⟩
    let first : Message := .plain "t" "a" 9 ""
    let second : Message := .plain "t" "b" 3 ""
    let before : List Act := [(early, .add first), (early, .add second)]
    let later : List Act := [(late, .markPublished first)]
    let missed : Row := ⟨1, newRow first true⟩
    Regular "t" (before ++ later) ∧ Unpruned later ∧
      messages "t" .everything false (carryOut fresh before) = .ok [second] ∧
      messages "t" (.message "b") false (carryOut fresh (before ++ later)) = .ok [] ∧
      missed ∈ messageRows (carryOut fresh (before ++ later)) ∧ OfTopic "t" missed ∧
      OfId "a" missed ∧ IsPublished missed := by
  intro early late first second before later missed
  obtain ⟨_, firstPage⟩ : _ ∧ messages "t" .everything false (carryOut fresh before) = .ok [second] :=
    @shown_of_ordered _ _ _ _ [⟨2, second, true⟩] (by decide) (List.pairwise_singleton _ _)
  obtain ⟨_, secondPage⟩ : _ ∧
      messages "t" (.message "b") false (carryOut fresh (before ++ later)) = .ok [] :=
    @shown_of_ordered _ _ _ _ [] (by decide) .nil
  exact ⟨.of_all (by decide) (by decide), by simp [Unpruned, later], firstPage, secondPage,
    mem_messageRows_iff.mpr ⟨⟨1, first, true⟩, by decide, rfl⟩, rfl, rfl, rfl⟩

end MessageStore.Store
