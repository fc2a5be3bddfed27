import MessageStore.Proofs.Store.CatchUp
import MessageStore.Proofs.Store.Delivery

/-!
# What a subscriber is shown

As long as nothing is pruned, a row that was shown stays, and the marker of its
message means this row, whatever is added later.  Who does not want scheduled
messages and names it is shown what was added after it and is published by now.
The rows of a topic are in the order in which their messages were added, and so
are their times, where later messages are not to be delivered earlier.
-/

namespace MessageStore

/-- What no update changes of a message that stays in its topic. -/
def Message.stamp (message : Message) : String × Int64 :=
  (message.id, message.time)

namespace Store

open Holdings
open Relational (Row)

/-! ## Acts without prunes -/

/-- No act is a prune. -/
def Unpruned (acts : List Act) : Prop :=
  ∀ act ∈ acts, ∀ cutoff, act.2 ≠ .prune cutoff

/-- An entry is what has become of a row of a topic that was shown. -/
structure StandsFor (topic : String) (run : List Act) (row : Row) (entry : Entry) : Prop where
  member : entry ∈ (ofRun run).entries
  position : entry.position = row.position
  topic : entry.message.topic = topic
  id : OfId entry.message.id row
  time : OfTime entry.message.time row
  published : entry.published = true

section Unpruned

variable {topic : String} {run acts more : List Act} {row : Row} {entry : Entry}

theorem unpruned_append : Unpruned (acts ++ more) ↔ Unpruned acts ∧ Unpruned more :=
  List.forall_mem_append

theorem Entry.after_of_unpruned (unpruned : Unpruned acts) (entry : Entry) :
    ∃ later, entry.after acts = some later := by
  cases stays : entry.after acts with
  | some later => exact ⟨later, rfl⟩
  | none =>
      obtain ⟨before, act, later, last, rfl, _, pruned⟩ := Entry.exists_prune stays
      obtain ⟨cutoff, prune, _⟩ := prunes_eq_true_iff.mp pruned
      have member := List.mem_append_right before (List.mem_cons_self (a := act) (l := later))
      exact absurd prune (unpruned act member cutoff)

/-- Without prunes, a row that was shown stays, edited perhaps. -/
theorem StandsFor.later (stands : StandsFor topic run row entry) (unpruned : Unpruned more) :
    ∃ later, StandsFor topic (run ++ more) row later := by
  obtain ⟨later, stays⟩ := Entry.after_of_unpruned unpruned entry
  obtain ⟨position, edited, published⟩ := Entry.after_eq_some empty stays
  refine ⟨later, mem_of_after stands.member stays, position.trans stands.position, ?_, ?_, ?_,
    published.mpr (.inl stands.published)⟩ <;> rw [edited]
  · exact stands.topic
  · exact stands.id
  · exact stands.time

end Unpruned

/-! ## The order of addition -/

namespace Holdings

variable {topic : String} {holdings : Holdings} {run : List Act}

/-- What is left of entries after an operation keeps its order. -/
theorem stamps_left (operation : Operation) (entries : List Entry) :
    ((entries.filterMap (Entry.next operation)).map (·.message.stamp)).Sublist
      (entries.map (·.message.stamp)) := by
  induction entries with
  | nil => exact .slnil
  | cons entry rest ih =>
      rw [List.filterMap_cons]
      cases next : entry.next operation with
      | none => exact ih.cons _
      | some later =>
          obtain ⟨_, rfl⟩ := Entry.next_eq_some_iff.mp next
          have same : (operation.edit entry.message).stamp = entry.message.stamp := by
            rcases operation.edit_cases entry.message with same | ⟨_, same⟩ <;> rw [same]
            rfl
          rw [List.map_cons, List.map_cons, same]
          exact ih.cons_cons _

/-- One act keeps the entries of a topic in the order in which their messages were added. -/
theorem stamps_next (act : Act) :
    (((holdings.next act).under topic).map (·.message.stamp)).Sublist
      ((holdings.under topic).map (·.message.stamp) ++
        (additions topic (if Succeeds holdings.db act then [act] else [])).map (·.stamp)) := by
  rw [under_next, List.map_append]
  refine (stamps_left act.2 (holdings.under topic)).append ?_
  cases found : holdings.added? act with
  | none => exact List.nil_sublist _
  | some added =>
      obtain ⟨now, rfl, _⟩ := exists_add found
      rw [if_pos (succeeds_add_iff.mpr ⟨added, found⟩)]
      by_cases ofTopic : added.message.topic = topic <;>
        simp [additions, Operation.addition?, ofTopic]

/-- The entries of a topic are in the order in which their messages were added. -/
theorem stamps_after :
    (((holdings.after run).under topic).map (·.message.stamp)).Sublist
      ((holdings.under topic).map (·.message.stamp) ++
        (additions topic (successes holdings.db run)).map (·.stamp)) := by
  induction run generalizing holdings with
  | nil => exact List.sublist_append_left _ _
  | cons act rest ih =>
      have succeeded : successes holdings.db (act :: rest) =
          (if Succeeds holdings.db act then [act] else []) ++
            successes (holdings.next act).db rest := by
        rw [successes, ← holdings.perform_db]
        rfl
      rw [succeeded, additions, List.filterMap_append, List.map_append, ← List.append_assoc]
      exact (@ih (holdings.next act)).trans ((stamps_next act).append (.refl _))

end Holdings

section Order

variable {topic : String} {run : List Act} {entry other : Entry}

theorem stamps_ofRun :
    (((ofRun run).under topic).map (·.message.stamp)).Sublist
      ((additions topic (successes fresh run)).map (·.stamp)) := by
  exact stamps_after

theorem mem_under_iff :
    entry ∈ (ofRun run).under topic ↔
      entry ∈ (ofRun run).entries ∧ entry.message.topic = topic := by
  rw [under, List.mem_filter, decide_eq_true_eq]

/-- Where IDs are distinct, they tell entries of the topic apart. -/
theorem Regular.eq_of_id (regular : Regular topic run) (member : entry ∈ (ofRun run).under topic)
    (otherMember : other ∈ (ofRun run).under topic)
    (same : entry.message.id = other.message.id) : entry = other := by
  have distinct := regular.distinct
  have ids : (((ofRun run).under topic).map (·.message.id)).Sublist
      ((additions topic (successes fresh run)).map (·.id)) := by
    have stamps : (((ofRun run).under topic).map (·.message.stamp)).Sublist
        ((additions topic (successes fresh run)).map (·.stamp)) := stamps_ofRun
    have firsts := stamps.map Prod.fst
    rwa [List.map_map, List.map_map] at firsts
  exact eq_of_key (List.pairwise_map.mp (distinct.sublist ids)) member otherMember same

/-- Where what is added later is to be delivered no earlier, positions are in the order of times. -/
theorem time_le_of_position_lt
    (ordered : (additions topic (successes fresh run)).Pairwise (·.time ≤ ·.time))
    (member : entry ∈ (ofRun run).under topic) (otherMember : other ∈ (ofRun run).under topic)
    (before : entry.position < other.position) : entry.message.time ≤ other.message.time := by
  have stamps : ((additions topic (successes fresh run)).map (·.stamp)).Pairwise (·.2 ≤ ·.2) :=
    List.pairwise_map.mpr ordered
  have times := List.pairwise_map.mp (stamps.sublist stamps_ofRun)
  have positions : ((ofRun run).under topic).Pairwise fun first second =>
      first.position < second.position := (ofRun run).ordered.filter _
  refine List.Pairwise.forall_of_forall_of_flip
    (R := fun first second : Entry => first.position < second.position →
      first.message.time ≤ second.message.time) ?same ?before ?behind member otherMember before
  case same => exact fun _ _ before => absurd before Int64.lt_irrefl
  case before =>
    refine times.imp ?_
    exact fun inOrder _ => inOrder
  case behind =>
    refine positions.imp ?_
    exact fun before behind => absurd before (Int64.lt_asymm behind)

end Order

/-! ## What is shown -/

/-- A row that is to be delivered at an earlier second than another. -/
def EarlierThan (first second : Row) : Prop :=
  ∃ early late, OfTime early first ∧ OfTime late second ∧ early < late

section Shown

variable {topic id : String} {since : Since} {scheduled : Bool} {run more : List Act}
variable {row last seen : Row} {entry : Entry}

theorem mem_shownRows_iff :
    row ∈ shownRows topic since scheduled (carryOut fresh run) ↔
      ∃ entry ∈ (ofRun run).entries, entry.row = row ∧ entry.message.topic = topic ∧
        ((ofRun run).replay topic since scheduled).wants entry = true := by
  rw [carryOut_fresh, shownRows_db, List.mem_map]
  constructor
  · rintro ⟨entry, shown, same⟩
    obtain ⟨member, ofTopic, wants⟩ := mem_replayed_iff.mp shown
    exact ⟨entry, member, same, ofTopic, wants⟩
  · rintro ⟨entry, member, same, ofTopic, wants⟩
    exact ⟨entry, mem_replayed_iff.mpr ⟨member, ofTopic, wants⟩, same⟩

/-- The entries that are wanted, in strict order, are what is shown. -/
theorem shown_of_ordered {entries : List Entry}
    (all : entries.Perm ((ofRun run).entries.filter fun entry => entry.message.topic = topic ∧
      ((ofRun run).replay topic since scheduled).wants entry = true))
    (ordered : entries.Pairwise Entry.Before) :
    shownRows topic since scheduled (carryOut fresh run) = entries.map Entry.row ∧
      messages topic since scheduled (carryOut fresh run) =
        .ok (entries.map (·.message.stored)) := by
  rw [carryOut_fresh, shownRows_db, messages_db, shown, replayed, page_eq_of_ordered all ordered]
  exact ⟨rfl, rfl⟩

/-- A subscriber that does not want scheduled messages is shown published ones. -/
theorem published_of_wants {holdings : Holdings}
    (wants : (holdings.replay topic since false).wants entry = true) : entry.published = true := by
  cases since with
  | nothing => cases wants
  | everything | time => simpa using (of_decide_eq_true wants).2
  | message id =>
      cases found : holdings.first? topic id with
      | none =>
          rw [replay_of_none found] at wants
          simpa using (of_decide_eq_true wants).2
      | some first =>
          rw [replay_of_some found] at wants
          exact (of_decide_eq_true wants).2

theorem exists_standsFor (shown : row ∈ shownRows topic since false (carryOut fresh run)) :
    ∃ entry, StandsFor topic run row entry := by
  obtain ⟨entry, member, rfl, ofTopic, wants⟩ := mem_shownRows_iff.mp shown
  exact ⟨entry, member, rfl, ofTopic, entry.ofId_row.mpr rfl, entry.ofTime_row.mpr rfl,
    published_of_wants wants⟩

/-- What was added after the last row of a page, and is on the page, is to be delivered earlier. -/
theorem earlierThan_last (page : (shownRows topic since scheduled (carryOut fresh run)).getLast? =
      some last)
    (shown : row ∈ shownRows topic since scheduled (carryOut fresh run))
    (behind : last.position < row.position) : EarlierThan row last := by
  rw [carryOut_fresh, shownRows_db] at page shown
  rw [List.getLast?_map, Option.map_eq_some_iff] at page
  obtain ⟨final, isLast, rfl⟩ := page
  obtain ⟨entry, member, rfl⟩ := List.mem_map.mp shown
  obtain ⟨others, split⟩ := List.getLast?_eq_some_iff.mp isLast
  have ordered : ((ofRun run).replayed topic ((ofRun run).replay topic since scheduled)).Pairwise
      Entry.Before := page_ordered _
  rw [split] at member ordered
  rcases List.mem_append.mp member with other | same
  · have before := (List.pairwise_append.mp ordered).2.2 entry other final
      (List.mem_singleton_self _)
    rcases before with earlier | ⟨_, ahead⟩
    · exact ⟨_, _, entry.ofTime_row.mpr rfl, final.ofTime_row.mpr rfl, earlier⟩
    · exact absurd behind (Int64.lt_asymm ahead)
  · rw [List.mem_singleton.mp same] at behind
    exact absurd behind Int64.lt_irrefl

theorem StandsFor.id_eq (stands : StandsFor topic run row entry) (ofId : OfId id row) :
    entry.message.id = id :=
  Relational.Cell.text.inj (Option.some.inj (stands.id.symm.trans ofId))

theorem StandsFor.time_eq {time : Int64} (stands : StandsFor topic run row entry)
    (ofTime : OfTime time row) : entry.message.time = time :=
  Relational.Cell.integer.inj (Option.some.inj (stands.time.symm.trans ofTime))

/-- As long as nothing is pruned, the marker of a message that was shown means its row, even if
later messages have the same ID. -/
theorem StandsFor.exists_first (stands : StandsFor topic run row entry)
    (regular : Regular topic run) (unpruned : Unpruned more) (ofId : OfId id row) :
    ∃ first, (ofRun (run ++ more)).first? topic id = some first ∧
      first.position = row.position := by
  obtain ⟨later, laterStands⟩ := stands.later unpruned
  cases found : (ofRun (run ++ more)).first? topic id with
  | none =>
      have other := List.find?_eq_none.mp found later laterStands.member
      simp [laterStands.topic, laterStands.id_eq ofId] at other
  | some first =>
      obtain ⟨member, firstTopic, firstId, least⟩ := first?_eq_some found
      refine ⟨first, rfl, ?_⟩
      have bound : entry.position.toInt ≤ (ofRun run).largest :=
        (ofRun run).bound entry stands.member
      rcases least later laterStands.member laterStands.topic (laterStands.id_eq ofId) with
        same | before
      · rw [← same, laterStands.position]
      · rw [ofRun_append] at member
        rcases old_or_behind member with ⟨old, oldMember, stays⟩ | behind
        · obtain ⟨position, edited, _⟩ := Entry.after_eq_some empty stays
          rw [edited] at firstTopic firstId
          have same := regular.eq_of_id (mem_under_iff.mpr ⟨oldMember, firstTopic⟩)
            (mem_under_iff.mpr ⟨stands.member, stands.topic⟩)
            (firstId.trans (stands.id_eq ofId).symm)
          rw [position, same, stands.position]
        · rw [Int64.lt_iff_toInt_lt, laterStands.position, ← stands.position] at before
          omega

/-- Who names a message that was shown is shown what is published and was added after it. -/
theorem StandsFor.mem_shownRows_iff (stands : StandsFor topic run seen entry)
    (regular : Regular topic run) (unpruned : Unpruned more) (ofId : OfId id seen) :
    row ∈ shownRows topic (.message id) false (carryOut fresh (run ++ more)) ↔
      ∃ entry ∈ (ofRun (run ++ more)).entries, entry.row = row ∧ entry.message.topic = topic ∧
        seen.position < entry.position ∧ entry.published = true := by
  obtain ⟨first, found, position⟩ := stands.exists_first regular unpruned ofId
  rw [Store.mem_shownRows_iff, replay_of_some found, position]
  simp only [Replay.wants, decide_eq_true_eq]

theorem StandsFor.present (stands : StandsFor topic run row entry) :
    row.position ∈ positions (carryOut fresh run) :=
  mem_positions_iff.mpr ⟨entry, stands.member, stands.position⟩

end Shown

end Store

end MessageStore
