import MessageStore.Proofs.Store.Shown

/-!
# Going on from the last message

A subscriber that wants published messages only goes on from the last message
that it was shown.  Pages are ordered by time, but the marker goes by the order
of addition.  So what stands before the last message of a page, but was added
after it, is shown once more; where times are in the order of addition, nothing
is shown twice.
-/

namespace MessageStore.Store

open Holdings
open Relational (Row)

/-- The marker of a subscriber that goes on from the last row that it was shown; as long as it was
shown none, it asks for everything. -/
def GoesOn (shown : List Row) : Since → Prop
  | .everything => shown = []
  | .message id => ∃ last, shown.getLast? = some last ∧ OfId id last
  | _ => False

/-- A run, and the pages that a subscriber of a topic is shown in it who always goes on from the last
row that it was shown.  The run ends with the last time it has asked. -/
inductive Follows (topic : String) : List Act → List (List Row) → Prop
  | begins : Follows topic [] []
  | asks {run between : List Act} {pages : List (List Row)} {clock : Instant} {since : Since}
      (follows : Follows topic run pages) (goesOn : GoesOn pages.flatten since) :
      Follows topic (run ++ between ++ [(clock, .messages topic since false)])
        (pages ++ [shownRows topic since false (carryOut fresh (run ++ between))])

/-- What a subscriber was shown is still there, and what was added after the last row of it is to be
delivered earlier than that one. -/
structure Following (topic : String) (run : List Act) (shown : List Row) : Prop where
  stands : ∀ row ∈ shown, ∃ entry, StandsFor topic run row entry
  earlier : ∀ last, shown.getLast? = some last →
    ∀ row ∈ shown, last.position < row.position → EarlierThan row last

section Following

variable {topic id : String} {since : Since} {run more between : List Act} {shown : List Row}
variable {pages : List (List Row)} {seen old : Row} {known entry : Entry}

/-- What was shown is shown again to whoever names a message that was added before. -/
theorem StandsFor.shown_again_iff (stands : StandsFor topic run seen known)
    (oldStands : StandsFor topic run old entry) (regular : Regular topic run)
    (unpruned : Unpruned more) (ofId : OfId id seen) :
    old.position ∈
        (shownRows topic (.message id) false (carryOut fresh (run ++ more))).map (·.position) ↔
      seen.position < old.position := by
  rw [List.mem_map]
  constructor
  · rintro ⟨row, rowShown, same⟩
    obtain ⟨other, _, rfl, _, behind, _⟩ :=
      (stands.mem_shownRows_iff regular unpruned ofId).mp rowShown
    rw [← same]
    exact behind
  · intro behind
    obtain ⟨later, laterStands⟩ := oldStands.later unpruned
    have laterBehind : seen.position < later.position := by
      rw [laterStands.position]
      exact behind
    exact ⟨later.row, (stands.mem_shownRows_iff regular unpruned ofId).mpr ⟨later,
      laterStands.member, rfl, laterStands.topic, laterBehind, laterStands.published⟩,
      laterStands.position⟩

/-- Rows at one position are to be delivered at the same time. -/
theorem EarlierThan.of_position {row last : Row} (earlier : EarlierThan row last)
    (stands : StandsFor topic run row known) (oldStands : StandsFor topic run old entry)
    (same : row.position = old.position) : EarlierThan old last := by
  obtain ⟨early, late, ofTime, lastTime, less⟩ := earlier
  have sameEntry := eq_of_position stands.member oldStands.member
    (stands.position.trans (same.trans oldStands.position.symm))
  refine ⟨early, late, ?_, lastTime, less⟩
  rw [← stands.time_eq ofTime, sameEntry]
  exact oldStands.time

/-- A subscriber that was shown rows names one of them. -/
theorem Following.exists_named (following : Following topic run shown)
    (goesOn : GoesOn shown since) (member : old ∈ shown) :
    ∃ id seen known, since = .message id ∧ shown.getLast? = some seen ∧ OfId id seen ∧
      StandsFor topic run seen known := by
  cases since with
  | message id =>
      obtain ⟨seen, isLast, ofId⟩ := goesOn
      obtain ⟨known, stands⟩ := following.stands seen (List.mem_of_getLast? isLast)
      exact ⟨id, seen, known, rfl, isLast, ofId, stands⟩
  | everything => exact absurd member (goesOn ▸ List.not_mem_nil)
  | _ => cases goesOn

/-- What a subscriber was shown and is shown again was added after the row that it names, and is to be
delivered earlier. -/
theorem Following.earlier_of_shown_again (following : Following topic run shown)
    (regular : Regular topic run) (unpruned : Unpruned more) (goesOn : GoesOn shown since)
    (member : old ∈ shown)
    (again : old.position ∈
      (shownRows topic since false (carryOut fresh (run ++ more))).map (·.position)) :
    ∃ seen ∈ shown, seen.position < old.position ∧ EarlierThan old seen := by
  obtain ⟨id, seen, known, rfl, isLast, ofId, stands⟩ := following.exists_named goesOn member
  obtain ⟨entry, oldStands⟩ := following.stands old member
  have behind := (stands.shown_again_iff oldStands regular unpruned ofId).mp again
  exact ⟨seen, List.mem_of_getLast? isLast, behind, following.earlier seen isLast old member behind⟩

/-- What was shown, and was added after the last row of the next page, is to be delivered earlier than
that one: the next page shows it again, and there it stands before the last row. -/
theorem Following.earlier_of_page {last : Row} (following : Following topic run shown)
    (regular : Regular topic run) (unpruned : Unpruned more) (goesOn : GoesOn shown since)
    (page : (shownRows topic since false (carryOut fresh (run ++ more))).getLast? = some last)
    (member : old ∈ shown) (behind : last.position < old.position) : EarlierThan old last := by
  obtain ⟨id, seen, known, rfl, _, ofId, stands⟩ := following.exists_named goesOn member
  obtain ⟨entry, oldStands⟩ := following.stands old member
  have ahead : seen.position < last.position := by
    obtain ⟨_, _, rfl, _, ahead, _⟩ :=
      (stands.mem_shownRows_iff regular unpruned ofId).mp (List.mem_of_getLast? page)
    exact ahead
  obtain ⟨again, shownAgain, same⟩ := List.mem_map.mp
    ((stands.shown_again_iff oldStands regular unpruned ofId).mpr (Int64.lt_trans ahead behind))
  obtain ⟨_, againStands⟩ := exists_standsFor shownAgain
  obtain ⟨_, laterStands⟩ := oldStands.later unpruned
  exact (earlierThan_last page shownAgain (same ▸ behind)).of_position againStands laterStands same

/-- A subscriber that asks once more still follows. -/
theorem Following.asks (following : Following topic run shown) (regular : Regular topic run)
    {act : Act} (unpruned : Unpruned (between ++ [act])) (goesOn : GoesOn shown since) :
    Following topic (run ++ between ++ [act])
      (shown ++ shownRows topic since false (carryOut fresh (run ++ between))) := by
  obtain ⟨unprunedBetween, unprunedAct⟩ := unpruned_append.mp unpruned
  constructor
  case stands =>
    intro row member
    rcases List.mem_append.mp member with before | new
    · obtain ⟨entry, stands⟩ := following.stands row before
      rw [List.append_assoc]
      exact stands.later unpruned
    · obtain ⟨entry, stands⟩ := exists_standsFor new
      exact stands.later unprunedAct
  case earlier =>
    intro last isLast row member behind
    rw [List.getLast?_append] at isLast
    cases page : (shownRows topic since false (carryOut fresh (run ++ between))).getLast? with
    | none =>
        rw [page, Option.none_or] at isLast
        rw [List.getLast?_eq_none_iff.mp page, List.append_nil] at member
        exact following.earlier last isLast row member behind
    | some final =>
        rw [page, Option.some_or, Option.some.injEq] at isLast
        subst isLast
        rcases List.mem_append.mp member with before | new
        · exact following.earlier_of_page regular unprunedBetween goesOn page before behind
        · exact earlierThan_last page new behind

/-- However often it asks, a subscriber follows. -/
theorem Follows.following (follows : Follows topic run pages) (regular : Regular topic run)
    (unpruned : Unpruned run) : Following topic run pages.flatten := by
  induction follows with
  | begins => exact ⟨nofun, nofun⟩
  | asks _ goesOn ih =>
      rw [List.append_assoc] at unpruned
      obtain ⟨unprunedRun, unprunedRest⟩ := unpruned_append.mp unpruned
      have earlier := regular.of_append.of_append
      rw [List.flatten_append, List.flatten_singleton]
      exact (ih earlier unprunedRun).asks earlier unprunedRest goesOn

/-- Where what is added later is to be delivered no earlier, no page shows a row of another page. -/
theorem Follows.apart (follows : Follows topic run pages) (regular : Regular topic run)
    (unpruned : Unpruned run)
    (ordered : (additions topic (successes fresh run)).Pairwise (·.time ≤ ·.time)) :
    pages.Pairwise fun earlier later => ∀ old ∈ earlier, old.position ∉ later.map (·.position) := by
  induction follows with
  | begins => exact .nil
  | asks follows goesOn ih =>
      rw [List.append_assoc] at unpruned
      obtain ⟨unprunedRun, unprunedRest⟩ := unpruned_append.mp unpruned
      have regularRun := regular.of_append.of_append
      rw [List.append_assoc, additions_append] at ordered
      have orderedRun := (List.pairwise_append.mp ordered).1
      refine List.pairwise_append.mpr
        ⟨ih regularRun unprunedRun orderedRun, List.pairwise_singleton _ _, ?_⟩
      intro earlier earlierMember later laterMember old oldMember again
      rw [List.mem_singleton.mp laterMember] at again
      have following := follows.following regularRun unprunedRun
      have member := List.mem_flatten.mpr ⟨earlier, earlierMember, oldMember⟩
      obtain ⟨seen, seenMember, behind, early, late, ofTime, seenTime, less⟩ :=
        following.earlier_of_shown_again regularRun (unpruned_append.mp unprunedRest).1 goesOn
          member again
      obtain ⟨known, stands⟩ := following.stands seen seenMember
      obtain ⟨entry, oldStands⟩ := following.stands old member
      rw [← stands.position, ← oldStands.position] at behind
      have inOrder := time_le_of_position_lt orderedRun
        (mem_under_iff.mpr ⟨stands.member, stands.topic⟩)
        (mem_under_iff.mpr ⟨oldStands.member, oldStands.topic⟩) behind
      rw [stands.time_eq seenTime, oldStands.time_eq ofTime] at inOrder
      exact absurd less (Int64.not_lt.mpr inOrder)

end Following

/-- A subscriber goes on from the last row that it was shown, and nothing is pruned.  A row that it
was shown is shown again exactly if it was added after the row from which the subscriber goes on, and
then it is to be delivered earlier than that one.  So if what is added to the topic later is never to
be delivered earlier, no row is shown twice. -/
theorem shown_again_iff_added_after {topic : String} {run : List Act} {pages : List (List Row)}
    (follows : Follows topic run pages) (regular : Regular topic run) (unpruned : Unpruned run) :
    (∀ between seen id, Unpruned between → pages.flatten.getLast? = some seen → OfId id seen →
      let page := shownRows topic (.message id) false (carryOut fresh (run ++ between))
      Shows (messages topic (.message id) false (carryOut fresh (run ++ between))) page ∧
        ∀ old ∈ pages.flatten,
          (old.position ∈ page.map (·.position) ↔ AddedBefore run seen.position old.position) ∧
            (AddedBefore run seen.position old.position → EarlierThan old seen)) ∧
      ((additions topic (successes fresh run)).Pairwise (·.time ≤ ·.time) →
        pages.Pairwise fun earlier later =>
          ∀ old ∈ earlier, old.position ∉ later.map (·.position)) := by
  refine ⟨fun between seen id unprunedBetween isLast ofId => ⟨?_, fun old member => ?_⟩,
    follows.apart regular unpruned⟩
  · rw [carryOut_fresh]
    exact shows_messages _ _ _
  · have following := follows.following regular unpruned
    obtain ⟨known, stands⟩ := following.stands seen (List.mem_of_getLast? isLast)
    obtain ⟨entry, oldStands⟩ := following.stands old member
    rw [addedBefore_iff stands.present oldStands.present]
    exact ⟨stands.shown_again_iff oldStands regular unprunedBetween ofId,
      following.earlier seen isLast old member⟩

/-- What has an earlier time than the last row is shown again if it was added later.  Where times are
in order, nothing is. -/
theorem shown_again_iff_added_after_instances :
    let clock : Instant := ⟨5, 0, by decide, by decide, by decide⟩
    let first : Message := .plain "t" "a" 4 ""
    let second : Message := .plain "t" "b" 3 ""
    let ask : Act := (clock, .messages "t" .everything false)
    let mixed : List Act := [(clock, .add first), (clock, .add second), ask]
    let early : Row := ⟨2, newRow second true⟩
    let late : Row := ⟨1, newRow first true⟩
    let inOrder : List Act := [(clock, .add second), ask, (clock, .add first),
      (clock, .messages "t" (.message "b") false)]
    (Follows "t" mixed [[early, late]] ∧ Regular "t" mixed ∧ Unpruned mixed ∧
      early.position ∈
        (shownRows "t" (.message "a") false (carryOut fresh mixed)).map (·.position) ∧
      EarlierThan early late) ∧
    ∃ pages, Follows "t" inOrder pages ∧ Regular "t" inOrder ∧ Unpruned inOrder ∧
      (additions "t" (successes fresh inOrder)).Pairwise (·.time ≤ ·.time) ∧
      pages.Pairwise fun earlier later =>
        ∀ old ∈ earlier, old.position ∉ later.map (·.position) := by
  intro clock first second ask mixed early late inOrder
  constructor
  · let added : List Act := [(clock, .add first), (clock, .add second)]
    obtain ⟨page, _⟩ : shownRows "t" .everything false (carryOut fresh added) = [early, late] ∧ _ :=
      @shown_of_ordered _ _ _ _ [⟨2, second, true⟩, ⟨1, first, true⟩] (by decide)
        (by simp [Entry.Before, first, second, Message.plain])
    have follows : Follows "t" mixed [[early, late]] :=
      page ▸ @Follows.asks "t" [] added [] clock .everything .begins rfl
    have regular : Regular "t" mixed := .of_all (by decide) (by decide)
    have unpruned : Unpruned mixed := by simp [Unpruned, mixed, ask]
    obtain ⟨again, _⟩ := shown_again_iff_added_after follows regular unpruned
    obtain ⟨_, shown⟩ := again [] late "a" (by simp [Unpruned]) rfl rfl
    obtain ⟨shownIff, earlier⟩ := shown early (List.mem_cons_self ..)
    have behind : AddedBefore mixed late.position early.position :=
      (addedBefore_iff (mem_positions_iff.mpr ⟨⟨1, first, true⟩, by decide, rfl⟩)
        (mem_positions_iff.mpr ⟨⟨2, second, true⟩, by decide, rfl⟩)).mpr (by decide)
    exact ⟨follows, regular, unpruned, shownIff.mpr behind, earlier behind⟩
  · let added : List Act := [(clock, .add second)]
    obtain ⟨page, _⟩ : shownRows "t" .everything false (carryOut fresh added) =
        [⟨1, newRow second true⟩] ∧ _ :=
      @shown_of_ordered _ _ _ _ [⟨1, second, true⟩] (by decide) (List.pairwise_singleton _ _)
    have follows : Follows "t" (added ++ [ask]) [[⟨1, newRow second true⟩]] :=
      page ▸ @Follows.asks "t" [] added [] clock .everything .begins rfl
    have followsOn := @Follows.asks "t" (added ++ [ask]) [(clock, .add first)] _ clock
      (.message "b") follows ⟨_, rfl, rfl⟩
    have regular : Regular "t" inOrder := .of_all (by decide) (by decide)
    have unpruned : Unpruned inOrder := by simp [Unpruned, inOrder, ask]
    have times : (additions "t" inOrder).Pairwise (·.time ≤ ·.time) := by decide
    have ordered := times.sublist (additions_sublist "t" inOrder)
    exact ⟨_, followsOn, regular, unpruned, ordered,
      (shown_again_iff_added_after followsOn regular unpruned).2 ordered⟩

/-- Of two messages that are due when they are added, the second has the earlier time.  It stands
before the first one on the first page, and is shown again after it. -/
theorem shown_again_of_earlier_time :
    let clock : Instant := ⟨5, 0, by decide, by decide, by decide⟩
    let first : Message := .plain "t" "a" 4 ""
    let second : Message := .plain "t" "b" 3 ""
    let added : List Act := [(clock, .add first), (clock, .add second)]
    let asked : List Act := added ++ [(clock, .messages "t" .everything false)]
    let run : List Act := asked ++ [(clock, .messages "t" (.message "a") false)]
    let early : Row := ⟨2, newRow second true⟩
    let late : Row := ⟨1, newRow first true⟩
    Follows "t" run [[early, late], [early]] ∧ Regular "t" run ∧ Unpruned run ∧
      (∀ act ∈ run, ∀ message, act.2 = .add message → message.isDue act.1.seconds = true) ∧
      ¬ [[early, late], [early]].Pairwise (fun earlier later =>
        ∀ old ∈ earlier, old.position ∉ later.map (·.position)) ∧
      messages "t" .everything false (carryOut fresh added) = .ok [second, first] ∧
      messages "t" (.message "a") false (carryOut fresh asked) = .ok [second] := by
  intro clock first second added asked run early late
  obtain ⟨firstRows, firstPage⟩ :
      shownRows "t" .everything false (carryOut fresh added) = [early, late] ∧
        messages "t" .everything false (carryOut fresh added) = .ok [second, first] :=
    @shown_of_ordered _ _ _ _ [⟨2, second, true⟩, ⟨1, first, true⟩] (by decide)
      (by simp [Entry.Before, first, second, Message.plain])
  obtain ⟨secondRows, secondPage⟩ :
      shownRows "t" (.message "a") false (carryOut fresh asked) = [early] ∧
        messages "t" (.message "a") false (carryOut fresh asked) = .ok [second] :=
    @shown_of_ordered _ _ _ _ [⟨2, second, true⟩] (by decide) (List.pairwise_singleton _ _)
  have follows : Follows "t" asked [[early, late]] :=
    firstRows ▸ @Follows.asks "t" [] added [] clock .everything .begins rfl
  have followsOn : Follows "t" run [[early, late], [early]] :=
    secondRows ▸ @Follows.asks "t" asked [] _ clock (.message "a") follows ⟨late, rfl, rfl⟩
  have due : ∀ act ∈ run, ∀ message, act.2 = .add message →
      message.isDue act.1.seconds = true := by
    simp [run, asked, added]
    decide
  exact ⟨followsOn, .of_all (by decide) (by decide), by simp [Unpruned, run, asked, added], due,
    by simp, firstPage, secondPage⟩

end MessageStore.Store
