import MessageStore.Proofs.Store.History

/-!
# Catching up

A subscriber first asks for everything, and from then on names a message that it
has received on any page.  As long as the IDs of the topic are distinct, no row
escapes it: what was there when it received the message it has received by then,
and what has come since lies behind this message.
-/

namespace MessageStore.Store

open Holdings

/-! ## Subscribers -/

/-- The message that an operation adds to a topic. -/
def Operation.addition? (topic : String) : Operation → Option Message
  | .add added => if added.topic = topic then some added else none
  | _ => none

/-- The messages that acts add to a topic. -/
def additions (topic : String) (acts : List Act) : List Message :=
  acts.filterMap fun act => act.2.addition? topic

/-- The messages that a run adds to a topic have distinct IDs, and none is to be delivered before
second zero. -/
structure Regular (topic : String) (run : List Act) : Prop where
  distinct : ((additions topic (successes fresh run)).map (·.id)).Nodup
  nonneg : ∀ message ∈ additions topic (successes fresh run), 0 ≤ message.time

/-- A run, and the pages that a subscriber of a topic has received in it.  It has asked for
everything first, and later for what comes after some message of an earlier page; the run ends with
the last time it has asked. -/
inductive Polled (topic : String) : List Act → List (List Message) → Prop
  | first {before : List Act} {clock : Instant} {page : List Message}
      (answered : (perform clock (carryOut fresh before)
        (.messages topic .everything true)).answer = .ok (.messages page)) :
      Polled topic (before ++ [(clock, .messages topic .everything true)]) [page]
  | next {run between : List Act} {pages : List (List Message)} {clock : Instant}
      {cursor : Message} {earlier page : List Message} (polled : Polled topic run pages)
      (received : earlier ∈ pages) (named : cursor ∈ earlier)
      (answered : (perform clock (carryOut fresh (run ++ between))
        (.messages topic (.message cursor.id) true)).answer = .ok (.messages page)) :
      Polled topic (run ++ between ++ [(clock, .messages topic (.message cursor.id) true)])
        (pages ++ [page])

/-! ## What has been added -/

theorem additions_append (topic : String) (first second : List Act) :
    additions topic (successes fresh (first ++ second)) =
      additions topic (successes fresh first) ++
        additions topic (successes (carryOut fresh first) second) := by
  rw [successes_append, additions, List.filterMap_append]
  rfl

theorem Regular.of_append {topic : String} {first second : List Act}
    (regular : Regular topic (first ++ second)) : Regular topic first := by
  obtain ⟨distinct, nonneg⟩ := regular
  rw [additions_append] at distinct nonneg
  rw [List.map_append] at distinct
  exact ⟨(List.nodup_append.mp distinct).1, fun message member =>
    nonneg message (List.mem_append_left _ member)⟩

theorem additions_sublist (topic : String) (run : List Act) :
    (additions topic (successes fresh run)).Sublist (additions topic run) :=
  (successes_sublist fresh run).filterMap _

/-- It is enough to look at all acts of the run, whether they succeed or not. -/
theorem Regular.of_all {topic : String} {run : List Act}
    (distinct : ((additions topic run).map (·.id)).Nodup)
    (nonneg : ∀ message ∈ additions topic run, 0 ≤ message.time) : Regular topic run :=
  ⟨distinct.sublist ((additions_sublist topic run).map _), fun message member =>
    nonneg message ((additions_sublist topic run).subset member)⟩

/-- An entry that is left was there before, or its message was added to its topic. -/
theorem old_or_addition {holdings : Holdings} {run : List Act} {entry : Entry}
    (member : entry ∈ (holdings.after run).entries) :
    (∃ old ∈ holdings.entries, old.after run = some entry) ∨
      ∃ message ∈ additions entry.message.topic (successes holdings.db run),
        message.id = entry.message.id ∧ message.time = entry.message.time := by
  refine (mem_after_iff.mp member).imp_right ?_
  rintro ⟨before, act, later, added, rfl, found, stays⟩
  obtain ⟨_, edited, _⟩ := Entry.after_eq_some empty stays
  obtain ⟨now, rfl, _⟩ := exists_add found
  have succeeds : Succeeds (carryOut holdings.db before) (now, .add added.message) := by
    rw [carryOut_db]
    exact succeeds_add_iff.mpr ⟨added, found⟩
  refine ⟨added.message, ?_, by rw [edited]; rfl, by rw [edited]; rfl⟩
  rw [successes_append, successes, if_pos succeeds, edited]
  refine List.mem_filterMap.mpr ⟨(now, .add added.message), ?_, if_pos rfl⟩
  exact List.mem_append_right _ (List.mem_append_left _ (List.mem_singleton_self _))

section Regular

variable {topic : String} {run past more : List Act} {entry : Entry}

/-- All entries of the topic are to be delivered from second zero on. -/
theorem Regular.wants_everything (regular : Regular topic run)
    (member : entry ∈ (ofRun run).entries) (ofTopic : entry.message.topic = topic) :
    (Replay.fromSecond 0 true).wants entry = true := by
  rcases old_or_addition member with ⟨_, ⟨⟩, _⟩ | ⟨message, added, _, time⟩
  rw [ofTopic, empty_db] at added
  have nonneg := regular.nonneg message added
  rw [time] at nonneg
  simp [Replay.wants, nonneg]

/-- What has the ID of an entry that was there at some time was there by that time. -/
theorem Regular.position_le {first : Entry} (regular : Regular topic (past ++ more))
    (member : entry ∈ (ofRun past).entries) (ofTopic : entry.message.topic = topic)
    (firstMember : first ∈ (ofRun (past ++ more)).entries)
    (firstTopic : first.message.topic = topic) (same : first.message.id = entry.message.id) :
    first.position.toInt ≤ (ofRun past).largest := by
  rw [ofRun_append] at firstMember
  rcases old_or_addition firstMember with ⟨old, oldMember, stays⟩ | ⟨message, added, id, _⟩
  · rw [Entry.position_after stays]
    exact (ofRun past).bound old oldMember
  · rcases old_or_addition member with ⟨_, ⟨⟩, _⟩ | ⟨other, otherAdded, otherId, _⟩
    rw [firstTopic, ← carryOut_fresh] at added
    rw [ofTopic, empty_db] at otherAdded
    have distinct := regular.distinct
    rw [additions_append, List.map_append] at distinct
    have apart := (List.nodup_append.mp distinct).2.2 _ (List.mem_map_of_mem otherAdded) _
      (List.mem_map_of_mem added)
    exact absurd (otherId.trans (same.symm.trans id.symm)) apart

end Regular

/-! ## What a subscriber has received -/

/-- A message on one of the pages has the topic, the ID and the time of an entry. -/
def Received (pages : List (List Message)) (entry : Entry) : Prop :=
  ∃ page ∈ pages, ∃ message ∈ page, message.topic = entry.message.topic ∧
    message.id = entry.message.id ∧ message.time = entry.message.time

/-- All entries of a topic that a run leaves have been received. -/
def Complete (topic : String) (run : List Act) (pages : List (List Message)) : Prop :=
  ∀ entry ∈ (ofRun run).entries, entry.message.topic = topic → Received pages entry

/-- A message was there at some time of a run, and what was there at this time has been received. -/
def SeenIn (topic : String) (run : List Act) (pages : List (List Message)) (message : Message) :
    Prop :=
  ∃ past more, run = past ++ more ∧
    (∃ entry ∈ (ofRun past).entries, entry.message.topic = topic ∧
      entry.message.id = message.id) ∧ Complete topic past pages

section Receiving

variable {topic : String} {run more : List Act} {pages : List (List Message)}
variable {page : List Message} {entry : Entry}

theorem Received.append (received : Received pages entry) (page : List Message) :
    Received (pages ++ [page]) entry := by
  obtain ⟨earlier, member, found⟩ := received
  exact ⟨earlier, List.mem_append_left _ member, found⟩

/-- What has been received counts as received after it has been edited. -/
theorem Received.after {old : Entry} (received : Received pages old)
    (stays : old.after run = some entry) : Received pages entry := by
  obtain ⟨_, edited, _⟩ := Entry.after_eq_some empty stays
  unfold Received
  rw [edited]
  exact received

/-- What a replay wants is received with its page. -/
theorem received_of_wanted {holdings : Holdings} {replay : Replay}
    (member : entry ∈ holdings.replayed topic replay) :
    Received (pages ++ [(holdings.replayed topic replay).map (·.message.stored)]) entry :=
  ⟨_, List.mem_append_right _ (List.mem_singleton_self _), entry.message.stored,
    List.mem_map.mpr ⟨entry, member, rfl⟩, rfl, rfl, rfl⟩

theorem SeenIn.append {message : Message} (seen : SeenIn topic run pages message)
    (more : List Act) (page : List Message) :
    SeenIn topic (run ++ more) (pages ++ [page]) message := by
  obtain ⟨past, between, rfl, entry, complete⟩ := seen
  exact ⟨past, between ++ more, List.append_assoc _ _ _, entry, fun entry member ofTopic =>
    (complete entry member ofTopic).append page⟩

/-- Asking for what comes after a message that was seen completes what has been received. -/
theorem SeenIn.complete {message : Message} (seen : SeenIn topic run pages message)
    (regular : Regular topic (run ++ more)) :
    Complete topic (run ++ more)
      (pages ++ [(ofRun (run ++ more)).shown topic (.message message.id) true]) := by
  obtain ⟨past, between, rfl, ⟨known, knownMember, knownTopic, knownId⟩, complete⟩ := seen
  intro entry member ofTopic
  unfold shown
  cases found : (ofRun (past ++ between ++ more)).first? topic message.id with
  | none =>
      rw [replay_of_none found]
      exact received_of_wanted (mem_replayed_iff.mpr
        ⟨member, ofTopic, regular.wants_everything member ofTopic⟩)
  | some first =>
      rw [replay_of_some found]
      obtain ⟨firstMember, firstTopic, firstId, _⟩ := first?_eq_some found
      rw [List.append_assoc] at regular member firstMember
      have seen := regular.position_le knownMember knownTopic firstMember firstTopic
        (firstId.trans knownId.symm)
      rw [ofRun_append] at member
      rcases old_or_behind member with ⟨old, oldMember, stays⟩ | behind
      · have oldTopic : old.message.topic = topic := by
          rw [← ofTopic, (Entry.after_eq_some empty stays).2.1]
          rfl
        exact ((complete old oldMember oldTopic).after stays).append _
      · have wants : (Replay.behind first.position true).wants entry = true := by
          simp [Replay.wants, Int64.lt_iff_toInt_lt, Int.lt_of_le_of_lt seen behind]
        refine received_of_wanted (mem_replayed_iff.mpr ⟨?_, ofTopic, wants⟩)
        rw [List.append_assoc, ofRun_append]
        exact member

end Receiving

/-! ## Asking again and again -/

/-- A subscriber has received all entries of its topic, and what it has received it may name. -/
structure CaughtUp (topic : String) (run : List Act) (pages : List (List Message)) : Prop where
  complete : Complete topic run pages
  seen : ∀ page ∈ pages, ∀ message ∈ page, SeenIn topic run pages message

/-- Asking for messages is always answered. -/
theorem answer_messages (holdings : Holdings) (clock : Instant) (topic : String) (since : Since)
    (scheduled : Bool) :
    (perform clock holdings.db (.messages topic since scheduled)).answer =
      .ok (.messages (holdings.shown topic since scheduled)) := by
  simp only [perform, Outcome.read, messages_db]
  rfl

theorem page_eq {run : List Act} {clock : Instant} {topic : String} {since : Since}
    {page : List Message}
    (answered : (perform clock (carryOut fresh run) (.messages topic since true)).answer =
      .ok (.messages page)) :
    page = (ofRun run).shown topic since true := by
  rw [carryOut_fresh, answer_messages] at answered
  cases answered
  rfl

section Asking

variable {topic : String} {run : List Act} {pages : List (List Message)}

/-- A subscriber who asks has caught up if the new page completes what it has received. -/
theorem caughtUp_of_complete (pages : List (List Message)) {act : Act} {since : Since}
    {page : List Message} (reads : act.2.changes = false)
    (answered : page = (ofRun run).shown topic since true)
    (complete : Complete topic run (pages ++ [page]))
    (seen : ∀ earlier ∈ pages, ∀ message ∈ earlier,
      SeenIn topic (run ++ [act]) (pages ++ [page]) message) :
    CaughtUp topic (run ++ [act]) (pages ++ [page]) := by
  have kept : (ofRun (run ++ [act])).entries = (ofRun run).entries := by
    rw [ofRun_append]
    exact entries_next_of_reading _ reads
  have completed : Complete topic (run ++ [act]) (pages ++ [page]) := by
    unfold Complete
    rw [kept]
    exact complete
  refine ⟨completed, fun other otherMember message named => ?_⟩
  rcases List.mem_append.mp otherMember with earlier | new
  · exact seen other earlier message named
  · rw [List.mem_singleton.mp new, answered] at named
    obtain ⟨entry, member, rfl⟩ := List.mem_map.mp named
    obtain ⟨present, ofTopic, _⟩ := mem_replayed_iff.mp member
    exact ⟨run ++ [act], [], (List.append_nil _).symm,
      ⟨entry, kept ▸ present, ofTopic, rfl⟩, completed⟩

/-- However often it asks, a subscriber has caught up. -/
theorem Polled.caughtUp (polled : Polled topic run pages) (regular : Regular topic run) :
    CaughtUp topic run pages := by
  induction polled with
  | first answered =>
      have asked := page_eq answered
      refine caughtUp_of_complete [] rfl asked ?_ nofun
      intro entry member ofTopic
      rw [asked]
      exact received_of_wanted (mem_replayed_iff.mpr
        ⟨member, ofTopic, regular.of_append.wants_everything member ofTopic⟩)
  | next _ received named answered ih =>
      have asked := page_eq answered
      have seen := (ih regular.of_append.of_append).seen
      refine caughtUp_of_complete _ rfl asked ?_ ?_
      · rw [asked]
        exact (seen _ received _ named).complete regular.of_append
      · intro earlier member message named
        rw [List.append_assoc]
        exact (seen earlier member message named).append _ _

end Asking

/-- A subscriber that first asks for everything, and then for what comes after any message that it
has received, has received every row of the topic that is there when it has asked, as long as the
IDs of the topic are distinct and no time lies before second zero.  It is answered whenever it
asks. -/
theorem received_whenever_asked {topic : String} {run : List Act} {pages : List (List Message)}
    (polled : Polled topic run pages) (regular : Regular topic run) :
    (∀ row ∈ messageRows (carryOut fresh run), OfTopic topic row →
      ∃ page ∈ pages, ∃ message ∈ page, OfTopic message.topic row ∧ OfId message.id row ∧
        OfTime message.time row) ∧
      ∀ other clock since, ∃ page,
        (perform clock (carryOut fresh other) (.messages topic since true)).answer =
          .ok (.messages page) := by
  constructor
  · intro row member ofTopic
    obtain ⟨entry, entryMember, rfl⟩ := mem_messageRows_iff.mp member
    obtain ⟨page, pageMember, message, named, sameTopic, sameId, sameTime⟩ :=
      (polled.caughtUp regular).complete entry entryMember (entry.ofTopic_row.mp ofTopic)
    exact ⟨page, pageMember, message, named, entry.ofTopic_row.mpr sameTopic.symm,
      entry.ofId_row.mpr sameId.symm, entry.ofTime_row.mpr sameTime.symm⟩
  · intro other clock since
    rw [carryOut_fresh]
    exact ⟨_, answer_messages _ clock topic since true⟩

/-- A message is received that was added when the one that the subscriber names had been pruned. -/
theorem received_whenever_asked_pruned :
    let early : Instant := ⟨5, 0, by decide, by decide, by decide⟩
    let late : Instant := ⟨20, 0, by decide, by decide, by decide⟩
    let before : List Act := [(early, .add (.plain "t" "a" 3 ""))]
    let between : List Act := [(late, .prune late), (late, .add (.plain "t" "b" 7 ""))]
    let run : List Act := before ++ [(early, .messages "t" .everything true)] ++ between ++
      [(late, .messages "t" (.message "a") true)]
    ∃ pages, Polled "t" run pages ∧ Regular "t" run ∧
      ⟨2, newRow (.plain "t" "b" 7 "") true⟩ ∈ messageRows (carryOut fresh run) ∧
      (∀ row ∈ messageRows (carryOut fresh run), OfTopic "t" row →
        ∃ page ∈ pages, ∃ message ∈ page, OfTopic message.topic row ∧ OfId message.id row ∧
          OfTime message.time row) ∧
      ∀ other clock since, ∃ page,
        (perform clock (carryOut fresh other) (.messages "t" since true)).answer =
          .ok (.messages page) := by
  intro early late before between run
  let asked : List Act := before ++ [(early, .messages "t" .everything true)]
  let first : Message := .plain "t" "a" 3 ""
  have answered := answer_messages (ofRun before) early "t" .everything true
  have answeredNext := answer_messages (ofRun (asked ++ between)) late "t" (.message "a") true
  rw [← carryOut_fresh] at answered answeredNext
  have wanted : ⟨1, first, true⟩ ∈ (ofRun before).replayed "t" (.fromSecond 0 true) :=
    mem_replayed_iff.mpr (by decide)
  have named := List.mem_map_of_mem (f := fun entry : Entry => entry.message.stored) wanted
  have polled := (Polled.first answered).next (List.mem_singleton_self _) named answeredNext
  have regular : Regular "t" run := .of_all (by decide) (by decide)
  have present : ⟨2, newRow (.plain "t" "b" 7 "") true⟩ ∈ messageRows (carryOut fresh run) :=
    mem_messageRows_iff.mpr ⟨⟨2, .plain "t" "b" 7 "", true⟩, by decide, rfl⟩
  exact ⟨_, polled, regular, present, received_whenever_asked polled regular⟩

end MessageStore.Store
