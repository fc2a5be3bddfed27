import MessageStore.Proofs.Store.History

/-!
# Topics are isolated

What is added to other topics, or updated there, is not seen in a topic.  A run
that goes without it gives the messages of the topic other positions, but these
stand in the same order, and a subscriber sees nothing else of a position.
Marks and prunes reach all topics and are part of both runs.
-/

namespace MessageStore.Store

open Relational (Database)

/-! ## Runs for one topic -/

/-- Whether an operation can concern a topic: additions and updates concern the topic of their
message only. -/
def Operation.concerns (topic : String) : Operation → Bool
  | .add added => added.topic = topic
  | .update edit => edit.topic = topic
  | _ => true

/-- A run without the additions to other topics and the updates in them. -/
def restricted (topic : String) (run : List Act) : List Act :=
  run.filter fun act => act.2.concerns topic

/-- No addition of a run is refused because the last position has been used. -/
def HasRoom (db : Database) (run : List Act) : Prop :=
  ∀ before now message later, run = before ++ (now, .add message) :: later →
    (perform now (carryOut db before) (.add message)).answer ≠ .error (.of (.engine .full))

/-- Databases that no question about a topic tells apart.  Of what is due, only the messages of the
topic count. -/
structure AgreeOn (topic : String) (first second : Database) : Prop where
  messages : ∀ now since scheduled,
    (perform now first (.messages topic since scheduled)).answer =
      (perform now second (.messages topic since scheduled)).answer
  message : ∀ now id,
    (perform now first (.message topic id)).answer =
      (perform now second (.message topic id)).answer
  count : ∀ now,
    (perform now first (.count topic)).answer = (perform now second (.count topic)).answer
  due : ∀ now, ∃ page otherPage,
    (perform now first .due).answer = .ok (.messages page) ∧
      (perform now second .due).answer = .ok (.messages otherPage) ∧
      page.filter (·.topic = topic) = otherPage.filter (·.topic = topic)

theorem HasRoom.of_prefix {db : Database} {before run : List Act} (room : HasRoom db run)
    (isPrefix : before <+: run) : HasRoom db before := by
  obtain ⟨rest, rfl⟩ := isPrefix
  rintro earlier now message later rfl
  exact room earlier now message (later ++ rest) (List.append_assoc _ _ _)

/-! ## What a store holds of a topic -/

/-- What can be seen of an entry: everything but its position. -/
def Entry.content (entry : Entry) : Message × Bool :=
  (entry.message, entry.published)

section Content

variable {first second : Entry} {operation : Operation}

/-- What becomes of an entry does not depend on its position. -/
theorem Entry.content_next (same : first.content = second.content) :
    (first.next operation).map Entry.content = (second.next operation).map Entry.content := by
  obtain ⟨position, message, published⟩ := first
  obtain ⟨otherPosition, otherMessage, otherPublished⟩ := second
  cases same
  have pruned : operation.prunes ⟨position, message, published⟩ =
      operation.prunes ⟨otherPosition, message, published⟩ := by
    cases operation <;> rfl
  unfold Entry.next
  rw [pruned]
  split <;> rfl

/-- An operation that does not concern the topic of an entry leaves it as it is. -/
theorem Entry.next_of_other {entry : Entry}
    (other : operation.concerns entry.message.topic = false) :
    entry.next operation = some entry := by
  cases operation with
  | add message => exact Entry.next_add entry message
  | update edit =>
      have apart : edit.topic ≠ entry.message.topic := by simpa [Operation.concerns] using other
      simp [Entry.next, Operation.prunes, Operation.edit, Operation.marks, apart.symm]
  | _ => cases other

end Content

namespace Holdings

/-- There is a position for what an act adds. -/
def RoomFor (holdings : Holdings) (act : Act) : Prop :=
  ∀ message, act.2 = .add message → message.event = .message →
    holdings.largest < Int64.maxValue.toInt

section Acting

variable {topic : String} {holdings left right : Holdings} {act : Act}

/-- The first act of a run that has room finds a position for what it adds, and the rest of the run
has room. -/
theorem roomFor_of_hasRoom {run : List Act} (room : HasRoom holdings.db (act :: run)) :
    holdings.RoomFor act ∧ HasRoom (holdings.next act).db run := by
  constructor
  · obtain ⟨now, operation⟩ := act
    rintro message rfl event
    have answered := room [] now message run rfl
    by_cases fits : holdings.largest < Int64.maxValue.toInt
    · exact fits
    · have full : holdings.added? (now, .add message) = none := if_neg fun both => fits both.2
      change (perform now holdings.db (.add message)).answer ≠ _ at answered
      simp [perform_add, full, event] at answered
  · rintro before now message later rfl
    rw [← perform_db]
    exact room (act :: before) now message later rfl

/-- Stores that have a position for it add the same message. -/
theorem content_added (leftRoom : left.RoomFor act) (rightRoom : right.RoomFor act) :
    (left.added? act).map Entry.content = (right.added? act).map Entry.content := by
  obtain ⟨now, operation⟩ := act
  cases operation with
  | add message =>
      by_cases event : message.event = .message
      · simp [added?, event, leftRoom message rfl event, rightRoom message rfl event,
          Entry.content]
      · simp [added?, event]
  | _ => rfl

theorem largest_next_of_none (added : holdings.added? act = none) :
    (holdings.next act).largest = holdings.largest := by
  simp [largest, Holdings.next, usedAfter, added]

end Acting

/-! ## Stores that hold the same of a topic -/

/-- Two stores hold the same of a topic, and the first one has used as many positions at least. -/
structure SameUnder (topic : String) (left right : Holdings) : Prop where
  contents : (left.under topic).map Entry.content = (right.under topic).map Entry.content
  largest : right.largest ≤ left.largest

section Running

variable {topic : String} {left right : Holdings} {act : Act} {run : List Act}

/-- Acts that concern the topic keep stores the same. -/
theorem SameUnder.next (same : SameUnder topic left right) (room : left.RoomFor act) :
    SameUnder topic (left.next act) (right.next act) := by
  have rightRoom : right.RoomFor act := fun message adds event =>
    Int.lt_of_le_of_lt same.largest (room message adds event)
  have added := content_added room rightRoom
  constructor
  · have addedSame : (left.added? act).toList.map Entry.content =
        (right.added? act).toList.map Entry.content := by
      rw [← Option.toList_map, ← Option.toList_map, added]
    rw [under_next, under_next, List.map_append, List.map_append,
      Relational.filterMap_of_same_view same.contents fun _ _ => Entry.content_next,
      Relational.filter_of_same_view addedSame]
    rintro ⟨_, _, _⟩ ⟨_, _, _⟩ ⟨⟩
    rfl
  · cases found : left.added? act with
    | none =>
        rw [found, Option.map_none, eq_comm, Option.map_eq_none_iff] at added
        rw [largest_next_of_none found, largest_next_of_none added]
        exact same.largest
    | some entry =>
        rw [found, Option.map_some, eq_comm, Option.map_eq_some_iff] at added
        obtain ⟨other, otherFound, _⟩ := added
        rw [largest_next found, largest_next otherFound, position_added found,
          position_added otherFound]
        exact Int.add_le_add_right same.largest 1

/-- Acts that do not concern the topic leave the store as it was, as far as the topic sees. -/
theorem SameUnder.next_of_other (same : SameUnder topic left right)
    (other : act.2.concerns topic = false) : SameUnder topic (left.next act) right := by
  have kept : (left.under topic).filterMap (Entry.next act.2) = left.under topic := by
    rw [under, List.filterMap_filter, ← List.filterMap_eq_filter]
    congr 1
    funext entry
    by_cases ofTopic : entry.message.topic = topic
    · simp [Option.guard, ofTopic, Entry.next_of_other (ofTopic ▸ other)]
    · simp [Option.guard, ofTopic]
  have none : ((left.added? act).toList.filter fun entry => entry.message.topic = topic) = [] := by
    refine List.filter_eq_nil_iff.mpr fun entry member => ?_
    obtain ⟨now, rfl, _⟩ := exists_add (Option.mem_toList.mp member)
    exact Bool.eq_false_iff.mp other
  refine ⟨?_, Int.le_trans same.largest largest_le_usedAfter⟩
  rw [under_next, kept, none, List.append_nil]
  exact same.contents

/-- A run and its part for the topic keep stores the same. -/
theorem SameUnder.after (same : SameUnder topic left right) (room : HasRoom left.db run) :
    SameUnder topic (left.after run) (right.after (restricted topic run)) := by
  induction run generalizing left right with
  | nil => exact same
  | cons act rest ih =>
      obtain ⟨roomFor, restRoom⟩ := roomFor_of_hasRoom room
      by_cases concerned : act.2.concerns topic = true
      · rw [restricted, List.filter_cons, if_pos concerned]
        exact ih (same.next roomFor) restRoom
      · rw [restricted, List.filter_cons, if_neg concerned]
        exact ih (same.next_of_other (Bool.not_eq_true _ ▸ concerned)) restRoom

end Running

/-! ## Entries side by side -/

/-- The entries of a topic in two stores, side by side. -/
structure Matched (topic : String) (left right : Holdings) (pairs : List (Entry × Entry)) :
    Prop where
  left : pairs.map Prod.fst = left.under topic
  right : pairs.map Prod.snd = right.under topic
  same : ∀ pair ∈ pairs, pair.1.content = pair.2.content

section Matching

variable {topic : String} {left right : Holdings} {pairs : List (Entry × Entry)}
variable {first second : Entry × Entry}

theorem SameUnder.exists_matched (same : SameUnder topic left right) :
    ∃ pairs, Matched topic left right pairs := by
  obtain ⟨pairs, lefts, rights, contents⟩ := Relational.exists_pairs_of_same_view same.contents
  exact ⟨pairs, lefts, rights, contents⟩

theorem Matched.message (matched : Matched topic left right pairs) (member : first ∈ pairs) :
    first.1.message = first.2.message :=
  congrArg Prod.fst (matched.same first member)

theorem Matched.published (matched : Matched topic left right pairs) (member : first ∈ pairs) :
    first.1.published = first.2.published :=
  congrArg Prod.snd (matched.same first member)

/-- The positions of the entries are in the same order on both sides. -/
theorem Matched.position_lt_iff (matched : Matched topic left right pairs)
    (member : first ∈ pairs) (otherMember : second ∈ pairs) :
    first.1.position < second.1.position ↔ first.2.position < second.2.position := by
  have lefts := left.ordered.filter fun entry => entry.message.topic = topic
  have rights := right.ordered.filter fun entry => entry.message.topic = topic
  change (left.under topic).Pairwise _ at lefts
  change (right.under topic).Pairwise _ at rights
  rw [← matched.left, List.pairwise_map] at lefts
  rw [← matched.right, List.pairwise_map] at rights
  have ordered := lefts.and rights
  refine List.Pairwise.forall_of_forall_of_flip
    (R := fun first second : Entry × Entry =>
      first.1.position < second.1.position ↔ first.2.position < second.2.position)
    (fun _ _ => ?_) (ordered.imp ?_) (ordered.imp ?_) member otherMember
  · simp only [Int64.lt_irrefl]
  · rintro _ _ ⟨before, otherBefore⟩
    exact iff_of_true before otherBefore
  · rintro _ _ ⟨before, otherBefore⟩
    exact iff_of_false (Int64.lt_asymm before) (Int64.lt_asymm otherBefore)

/-- The entries are in the same order of pages on both sides. -/
theorem Matched.precedes (matched : Matched topic left right pairs) (member : first ∈ pairs)
    (otherMember : second ∈ pairs) : first.1.precedes second.1 = first.2.precedes second.2 := by
  have positions : first.1.position ≤ second.1.position ↔
      first.2.position ≤ second.2.position := by
    rw [← Int64.not_lt, ← Int64.not_lt, matched.position_lt_iff otherMember member]
  simp only [Entry.precedes, matched.message member, matched.message otherMember, positions]

/-- Pages show the same on both sides, if the same entries of the topic are wanted, and no others. -/
theorem Matched.page (matched : Matched topic left right pairs) {wanted otherWanted : Entry → Bool}
    (agree : ∀ pair ∈ pairs, wanted pair.1 = otherWanted pair.2)
    (own : ∀ entry, wanted entry = true → entry.message.topic = topic)
    (otherOwn : ∀ entry, otherWanted entry = true → entry.message.topic = topic) :
    (left.page wanted).map (·.message.stored) =
      (right.page otherWanted).map (·.message.stored) := by
  have filtered {holdings : Holdings} {wanted : Entry → Bool}
      (own : ∀ entry, wanted entry = true → entry.message.topic = topic) :
      holdings.entries.filter wanted = (holdings.under topic).filter wanted := by
    rw [under, List.filter_filter]
    refine List.filter_congr fun entry _ => ?_
    cases wants : wanted entry with
    | true => simp [own entry wants]
    | false => rfl
  let chosen := pairs.filter fun pair => wanted pair.1
  have lefts : (left.under topic).filter wanted = chosen.map Prod.fst := by
    rw [← matched.left, List.filter_map]
    rfl
  have rights : (right.under topic).filter otherWanted = chosen.map Prod.snd := by
    rw [← matched.right, List.filter_map]
    exact congrArg _ (List.filter_congr fun pair member => (agree pair member).symm)
  have present : ∀ pair ∈ chosen, pair ∈ pairs := fun pair member => (List.mem_filter.mp member).1
  have ordered : ∀ pair ∈ chosen, ∀ next ∈ chosen,
      pair.1.precedes next.1 = pair.2.precedes next.2 := fun pair member next nextMember =>
    matched.precedes (present pair member) (present next nextMember)
  obtain ⟨sorted, otherSorted⟩ := Relational.mergeSort_of_pairs ordered
  rw [Holdings.page, Holdings.page, filtered own, filtered otherOwn, lefts, rights, ← sorted,
    ← otherSorted, List.map_map, List.map_map]
  apply List.map_congr_left
  intro pair member
  exact congrArg Message.stored (matched.message (present pair (List.mem_mergeSort.mp member)))

/-- The first entries with an ID are side by side. -/
theorem Matched.exists_first (matched : Matched topic left right pairs) (id : String) :
    ∃ found : Option (Entry × Entry), (∀ pair ∈ found, pair ∈ pairs) ∧
      left.first? topic id = found.map Prod.fst ∧ right.first? topic id = found.map Prod.snd := by
  have first (holdings : Holdings) : holdings.first? topic id =
      (holdings.under topic).find? fun entry => entry.message.id = id := by
    unfold first? under
    rw [List.find?_filter]
    simp
  let chosen := pairs.filter fun pair => pair.1.message.id = id
  refine ⟨chosen.head?, ?_, ?_, ?_⟩
  · intro pair member
    exact (List.mem_filter.mp (List.mem_of_mem_head? member)).1
  · rw [first, ← matched.left, ← List.head?_filter, List.filter_map, List.head?_map]
    rfl
  · rw [first, ← matched.right, ← List.head?_filter, List.filter_map, List.head?_map]
    congr 2
    refine List.filter_congr fun pair member => ?_
    rw [Function.comp_apply, ← matched.message member]

/-- A marker wants the same entries on both sides. -/
theorem Matched.wants (matched : Matched topic left right pairs) (since : Since) (scheduled : Bool)
    (member : first ∈ pairs) :
    (left.replay topic since scheduled).wants first.1 =
      (right.replay topic since scheduled).wants first.2 := by
  have fromSecond (second : Int64) : (Replay.fromSecond second scheduled).wants first.1 =
      (Replay.fromSecond second scheduled).wants first.2 := by
    simp only [Replay.wants, matched.message member, matched.published member]
  cases since with
  | nothing => rfl
  | everything | time => exact fromSecond _
  | message id =>
      obtain ⟨found, present, leftFirst, rightFirst⟩ := matched.exists_first id
      cases found with
      | none =>
          rw [replay_of_none leftFirst, replay_of_none rightFirst]
          exact fromSecond _
      | some seen =>
          rw [replay_of_some leftFirst, replay_of_some rightFirst]
          have behind := matched.position_lt_iff (present seen rfl) member
          cases scheduled <;> simp only [Replay.wants, behind, matched.published member]

end Matching

/-! ## Questions about a topic -/

section Asking

variable {topic : String} {left right : Holdings}

/-- Stores that hold the same of a topic give the same answers about it. -/
theorem SameUnder.agreeOn (same : SameUnder topic left right) :
    AgreeOn topic left.db right.db := by
  obtain ⟨pairs, matched⟩ := same.exists_matched
  constructor
  case messages =>
    intro now since scheduled
    have shown : left.shown topic since scheduled = right.shown topic since scheduled := by
      refine matched.page (fun pair member => ?_) (by simp +contextual) (by simp +contextual)
      rw [matched.wants since scheduled member, matched.message member]
    change (messages topic since scheduled left.db).map _ =
      (messages topic since scheduled right.db).map _
    rw [messages_db, messages_db, shown]
  case message =>
    intro now id
    let sought : Entry → Bool := fun entry => entry.message.topic = topic ∧ entry.message.id = id
    have own : ∀ entry, sought entry = true → entry.message.topic = topic := by
      simp +contextual [sought]
    have agree : ∀ pair ∈ pairs, sought pair.1 = sought pair.2 := fun pair member => by
      simp only [sought, matched.message member]
    have pages := matched.page agree own own
    change (Store.message topic id left.db).map _ = (Store.message topic id right.db).map _
    rw [message_db, message_db, pages]
  case count =>
    intro now
    have lengths := congrArg List.length same.contents
    rw [List.length_map, List.length_map] at lengths
    change (Store.count topic left.db).map _ = (Store.count topic right.db).map _
    rw [count_db, count_db]
    exact congrArg (fun number => Except.ok (Answer.count number)) lengths
  case due =>
    intro now
    let sought : Entry → Bool := fun entry => entry.message.topic = topic && entry.awaits now
    have own : ∀ entry, sought entry = true → entry.message.topic = topic := by
      simp +contextual [sought]
    have agree : ∀ pair ∈ pairs, sought pair.1 = sought pair.2 := fun pair member => by
      simp only [sought, Entry.awaits, matched.message member, matched.published member]
    have pages := matched.page agree own own
    refine ⟨_, _, congrArg (Except.map Answer.messages) (due_db now),
      congrArg (Except.map Answer.messages) (due_db now), ?_⟩
    rw [List.filter_map, List.filter_map, filter_page, filter_page]
    exact pages

end Asking

/-! ## Runs that do not use up the positions -/

theorem largest_after_le (holdings : Holdings) (run : List Act) :
    (holdings.after run).largest ≤ holdings.largest + run.length := by
  induction run generalizing holdings with
  | nil => simp [after]
  | cons act rest ih =>
      have rest : (holdings.after (act :: rest)).largest ≤ _ := ih (holdings.next act)
      have step : (holdings.next act).largest ≤ holdings.largest + 1 := by
        cases added : holdings.added? act with
        | none =>
            rw [largest_next_of_none added]
            omega
        | some entry =>
            exact Int.le_of_eq ((largest_next added).trans (position_added added))
      simp only [List.length_cons]
      omega

/-- A run that is not longer than there are positions has room. -/
theorem hasRoom_of_length {run : List Act}
    (short : (run.length : Int) ≤ Int64.maxValue.toInt) : HasRoom fresh run := by
  rintro before now message later rfl
  have used : (ofRun before).largest ≤ 0 + before.length := largest_after_le empty before
  simp only [List.length_append, List.length_cons] at short
  have room : (ofRun before).largest < Int64.maxValue.toInt := by omega
  rw [carryOut_fresh, perform_add]
  by_cases event : message.event = .message
  · simp [added?, event, room]
  · simp [added?, event, Error.of]

end Holdings

open Holdings

/-- A run without the additions to other topics and the updates in them gives the same answers about
a topic at every time, as long as there are positions for what is added. -/
theorem agreeOn_restricted (topic : String) {run : List Act} (room : HasRoom fresh run) :
    ∀ before, before <+: run →
      AgreeOn topic (carryOut fresh before) (carryOut fresh (restricted topic before)) := by
  intro before isPrefix
  rw [carryOut_fresh, carryOut_fresh]
  have start : SameUnder topic empty empty := ⟨rfl, Int.le_refl _⟩
  exact (start.after (room.of_prefix isPrefix)).agreeOn

/-- A message has another position if no message of another topic stands before it.  A mark under
the other topic publishes it in both runs. -/
theorem agreeOn_restricted_marked :
    let clock : Instant := ⟨5, 0, by decide, by decide, by decide⟩
    let run : List Act :=
      [(clock, .add (.plain "u" "a" 3 "")), (clock, .add (.plain "t" "a" 9 "")),
        (clock, .update (.plain "u" "a" 3 "b")), (clock, .markPublished (.plain "u" "a" 3 ""))]
    HasRoom fresh run ∧
      (∀ before, before <+: run →
        AgreeOn "t" (carryOut fresh before) (carryOut fresh (restricted "t" before))) ∧
      messageRows (carryOut fresh (restricted "t" run)) =
        [⟨1, newRow (.plain "t" "a" 9 "") true⟩] ∧
      ⟨2, newRow (.plain "t" "a" 9 "") true⟩ ∈ messageRows (carryOut fresh run) := by
  intro clock run
  have room : HasRoom fresh run := hasRoom_of_length (by decide)
  have alone : (ofRun (restricted "t" run)).entries = [⟨1, .plain "t" "a" 9 "", true⟩] := by
    decide
  refine ⟨room, agreeOn_restricted "t" room, ?_, ?_⟩
  · rw [carryOut_fresh, messageRows_db, alone]
    rfl
  · exact mem_messageRows_iff.mpr ⟨⟨2, .plain "t" "a" 9 "", true⟩, by decide, rfl⟩

end MessageStore.Store
