import MessageStore.Proofs.Store.Pages

/-!
# Histories of a store

A run carries out one act after another, starting with a new store.  Every entry
that a run leaves has been added by one act of the run, and the acts that came
after that one have edited and published it.  Positions tell when: an act that
adds an entry gives it a position behind all that earlier acts have given.
-/

namespace MessageStore.Store

open Relational (Database Row)
open Schema (setup)

/-! ## Runs -/

/-- A new store. -/
def fresh : Database :=
  (setup .empty).db

/-- The database that a run leaves. -/
def carryOut (db : Database) (run : List Act) : Database :=
  run.foldl (fun db act => (perform act.1 db act.2).db) db

instance (db : Database) (act : Act) : Decidable (Succeeds db act) :=
  match found : (perform act.1 db act.2).answer with
  | .ok answer => isTrue ⟨answer, found⟩
  | .error _ => isFalse fun ⟨answer, other⟩ => by
      rw [found] at other
      cases other

/-- The acts of a run that succeed. -/
def successes (db : Database) : List Act → List Act
  | [] => []
  | act :: rest =>
      (if Succeeds db act then [act] else []) ++ successes (carryOut db [act]) rest

theorem successes_append (db : Database) (first second : List Act) :
    successes db (first ++ second) =
      successes db first ++ successes (carryOut db first) second := by
  induction first generalizing db with
  | nil => rfl
  | cons act rest ih =>
      rw [List.cons_append, successes, ih, successes, List.append_assoc]
      rfl

theorem successes_sublist (db : Database) (run : List Act) : (successes db run).Sublist run := by
  induction run generalizing db with
  | nil => exact .slnil
  | cons act rest ih =>
      unfold successes
      split
      · exact (ih _).cons_cons act
      · exact (ih _).cons act

/-- An act that adds a row with a position to what the acts before it leave. -/
def Adds (before : List Act) (act : Act) (position : Int64) : Prop :=
  position ∉ positions (carryOut fresh before) ∧
    position ∈ positions (carryOut fresh (before ++ [act]))

/-- Of two positions, the first is that of a row that an act of a run adds, and the second is that
of a row that a later act adds. -/
def AddedBefore (run : List Act) (first second : Int64) : Prop :=
  ∃ before act between next later, run = before ++ act :: (between ++ next :: later) ∧
    Adds before act first ∧ Adds (before ++ act :: between) next second

/-! ## What a run makes of an entry -/

/-- The message that an operation puts in the place of those of a topic with an ID. -/
def Operation.replacement? (topic id : String) : Operation → Option Message
  | .update edit => if topic = edit.topic ∧ id = edit.id then some edit else none
  | _ => none

/-- The last update of a topic with an ID among some acts. -/
def lastUpdate? (topic id : String) (acts : List Act) : Option Message :=
  (acts.filterMap fun act => act.2.replacement? topic id).getLast?

/-- The last update of a message among some acts, or else the message itself. -/
def lastEdit (acts : List Act) (message : Message) : Message :=
  (lastUpdate? message.topic message.id acts).getD message

/-- Some act marks an ID as published. -/
def Marked (acts : List Act) (id : String) : Prop :=
  ∃ act ∈ acts, act.2.marks id = true

/-- An operation edits a message if it replaces it and succeeds. -/
theorem edit_eq (holdings : Holdings) (act : Act) (message : Message) :
    act.2.edit message = message.edited
      (lastEdit (if Succeeds holdings.db act then [act] else []) message) := by
  obtain ⟨now, operation⟩ := act
  cases operation with
  | update edit =>
      by_cases event : edit.event = .message
      · rw [if_pos (succeeds_update_iff.mpr event)]
        by_cases same : message.topic = edit.topic ∧ message.id = edit.id
        · simp [Operation.edit, lastEdit, lastUpdate?, Operation.replacement?, event, same]
        · have kept : lastEdit [(now, .update edit)] message = message := by
            simp [lastEdit, lastUpdate?, Operation.replacement?, same]
          rw [kept, Operation.edit, if_neg fun edits => same edits.2]
          rfl
      · rw [if_neg (event <| succeeds_update_iff.mp ·), Operation.edit,
          if_neg fun edits => event edits.1]
        rfl
  | _ => split <;> rfl

/-- Of the edits of a message, the last one counts. -/
theorem lastEdit_append (first second : List Act) (message : Message) :
    message.edited (lastEdit (first ++ second) message) =
      (message.edited (lastEdit first message)).edited
        (lastEdit second (message.edited (lastEdit first message))) := by
  have last : lastUpdate? message.topic message.id (first ++ second) =
      (lastUpdate? message.topic message.id second).or
        (lastUpdate? message.topic message.id first) := by
    unfold lastUpdate?
    rw [List.filterMap_append, List.getLast?_append]
  -- An edited message has the topic and the ID that it had.
  change _ = Message.edited _ ((lastUpdate? message.topic message.id second).getD _)
  rw [lastEdit, last]
  cases lastUpdate? message.topic message.id second <;> rfl

theorem marked_cons {act : Act} {rest : List Act} {id : String} :
    Marked (act :: rest) id ↔ act.2.marks id = true ∨ Marked rest id := by
  simp [Marked]

/-- What a run makes of an entry, if it stays. -/
def Entry.after : List Act → Entry → Option Entry
  | [], entry => some entry
  | act :: rest, entry => (entry.next act.2).bind (Entry.after rest)

/-- A run leaves an entry where it is, edits its message as the last update does, and publishes it
if the run marks its ID. -/
theorem Entry.after_eq_some (holdings : Holdings) {run : List Act} {entry later : Entry}
    (stays : entry.after run = some later) :
    later.position = entry.position ∧
      later.message = entry.message.edited
        (lastEdit (successes holdings.db run) entry.message) ∧
      (later.published = true ↔ entry.published = true ∨ Marked run entry.message.id) := by
  induction run generalizing holdings entry with
  | nil =>
      cases stays
      exact ⟨rfl, rfl, by simp [Marked]⟩
  | cons act rest ih =>
      obtain ⟨middle, next, staysOn⟩ := Option.bind_eq_some_iff.mp stays
      obtain ⟨_, rfl⟩ := Entry.next_eq_some_iff.mp next
      obtain ⟨position, message, published⟩ := ih (holdings.next act) staysOn
      refine ⟨position, ?_, ?_⟩
      · have succeeded : successes holdings.db (act :: rest) =
            (if Succeeds holdings.db act then [act] else []) ++
              successes (holdings.next act).db rest := by
          rw [successes, ← holdings.perform_db]
          rfl
        rw [message, succeeded, lastEdit_append, ← edit_eq]
      · rw [published, marked_cons, ← or_assoc, Bool.or_eq_true, edit_eq holdings]
        rfl

theorem Entry.position_after {run : List Act} {entry later : Entry}
    (stays : entry.after run = some later) : later.position = entry.position :=
  (Entry.after_eq_some .empty stays).1

namespace Holdings

/-- What a store holds after a run. -/
def after (run : List Act) (holdings : Holdings) : Holdings :=
  run.foldl (fun holdings act => holdings.next act) holdings

/-- What a store holds after a run that starts with a new store. -/
abbrev ofRun (run : List Act) : Holdings :=
  empty.after run

variable {holdings : Holdings} {run first second : List Act}

theorem after_append : holdings.after (first ++ second) = (holdings.after first).after second :=
  List.foldl_append

theorem ofRun_append : ofRun (first ++ second) = (ofRun first).after second :=
  after_append

/-- A run leaves the database of what the store then holds. -/
theorem carryOut_db : carryOut holdings.db run = (holdings.after run).db := by
  induction run generalizing holdings with
  | nil => rfl
  | cons act rest ih =>
      change carryOut (perform act.1 holdings.db act.2).db rest = _
      rw [perform_db, ih]
      rfl

theorem carryOut_fresh : carryOut fresh run = (ofRun run).db := by
  rw [fresh, ← empty_db, carryOut_db]

/-- After a run, an entry is one that there was before, or one that an act of the run has added. -/
theorem mem_after_iff {entry : Entry} :
    entry ∈ (holdings.after run).entries ↔
      (∃ old ∈ holdings.entries, old.after run = some entry) ∨
        ∃ before act later added, run = before ++ act :: later ∧
          (holdings.after before).added? act = some added ∧ added.after later = some entry := by
  induction run generalizing holdings with
  | nil => simp [after, Entry.after]
  | cons act rest ih =>
      rw [show holdings.after (act :: rest) = (holdings.next act).after rest from rfl, ih]
      constructor
      · rintro (⟨middle, member, stays⟩ | ⟨before, next, later, added, rfl, found, stays⟩)
        · rcases mem_entriesAfter_iff.mp member with ⟨old, oldMember, next⟩ | found
          · exact .inl ⟨old, oldMember, by rw [Entry.after, next]; exact stays⟩
          · exact .inr ⟨[], act, rest, middle, rfl, found, stays⟩
        · exact .inr ⟨act :: before, next, later, added, rfl, found, stays⟩
      · rintro (⟨old, member, stays⟩ | ⟨before, next, later, added, split, found, stays⟩)
        · obtain ⟨middle, next, staysOn⟩ := Option.bind_eq_some_iff.mp stays
          exact .inl ⟨middle, mem_entriesAfter_iff.mpr (.inl ⟨old, member, next⟩), staysOn⟩
        · cases before with
          | nil =>
              cases split
              exact .inl ⟨added, mem_entriesAfter_iff.mpr (.inr found), stays⟩
          | cons head tail =>
              cases split
              exact .inr ⟨tail, next, later, added, rfl, found, stays⟩

/-! ## Positions tell when -/

variable {before between later : List Act} {act next : Act} {entry added : Entry}

/-- What is added is the message of an act that adds one, published if it is due. -/
theorem exists_add (found : holdings.added? act = some added) :
    ∃ now, act = (now, .add added.message) ∧
      added.published = added.message.isDue now.seconds := by
  obtain ⟨now, operation⟩ := act
  cases operation with
  | add message =>
      simp only [added?, Option.ite_none_right_eq_some, Option.some.injEq] at found
      obtain ⟨_, rfl⟩ := found
      exact ⟨now, rfl, rfl⟩
  | _ => cases found

theorem largest_next (found : holdings.added? act = some added) :
    (holdings.next act).largest = added.position.toInt := by
  simp [largest, Holdings.next, usedAfter, found]

theorem largest_le_after : holdings.largest ≤ (holdings.after run).largest := by
  induction run generalizing holdings with
  | nil => exact Int.le_refl _
  | cons act rest ih => exact Int.le_trans largest_le_usedAfter ih

theorem largest_le_append : (ofRun first).largest ≤ (ofRun (first ++ second)).largest := by
  rw [ofRun_append]
  exact largest_le_after

/-- An entry that is left was there before, or has a position behind all that had been used. -/
theorem old_or_behind (member : entry ∈ (holdings.after run).entries) :
    (∃ old ∈ holdings.entries, old.after run = some entry) ∨
      holdings.largest < entry.position.toInt := by
  refine (mem_after_iff.mp member).imp_right ?_
  rintro ⟨before, act, later, added, rfl, found, stays⟩
  have position := position_added found
  have grown : holdings.largest ≤ (holdings.after before).largest := largest_le_after
  rw [Entry.position_after stays]
  omega

end Holdings

open Holdings

/-- What an entry has become is there. -/
theorem mem_of_after {run later : List Act} {entry other : Entry}
    (member : entry ∈ (ofRun run).entries) (stays : entry.after later = some other) :
    other ∈ (ofRun (run ++ later)).entries := by
  rw [ofRun_append]
  exact mem_after_iff.mpr (.inl ⟨entry, member, stays⟩)

/-- What has the position of an entry later is what it has become: positions are not used again. -/
theorem after_of_position {run later : List Act} {entry other : Entry}
    (member : entry ∈ (ofRun run).entries) (otherMember : other ∈ (ofRun (run ++ later)).entries)
    (same : other.position = entry.position) : entry.after later = some other := by
  rw [ofRun_append] at otherMember
  rcases old_or_behind otherMember with ⟨old, oldMember, stays⟩ | behind
  · cases eq_of_position oldMember member ((Entry.position_after stays).symm.trans same)
    exact stays
  · have bound : entry.position.toInt ≤ (ofRun run).largest := (ofRun run).bound entry member
    rw [same] at behind
    omega

/-- The rows after a run are those of the entries that the store then holds. -/
theorem messageRows_ofRun {run : List Act} {entries : List Entry}
    (held : (ofRun run).entries = entries) :
    messageRows (carryOut fresh run) = entries.map Entry.row := by
  rw [carryOut_fresh, messageRows_db, held]

theorem mem_messageRows_iff {run : List Act} {row : Row} :
    row ∈ messageRows (carryOut fresh run) ↔ ∃ entry ∈ (ofRun run).entries, entry.row = row := by
  rw [messageRows_ofRun rfl, List.mem_map]

theorem mem_positions_iff {run : List Act} {position : Int64} :
    position ∈ positions (carryOut fresh run) ↔
      ∃ entry ∈ (ofRun run).entries, entry.position = position := by
  rw [carryOut_fresh, positions_db, List.mem_map]

/-- No position lies behind the largest one that has been used. -/
theorem toInt_le_largest {run : List Act} {position : Int64}
    (present : position ∈ positions (carryOut fresh run)) :
    position.toInt ≤ (ofRun run).largest := by
  obtain ⟨entry, member, rfl⟩ := mem_positions_iff.mp present
  exact (ofRun run).bound entry member

/-- An act adds a row where it adds an entry. -/
theorem adds_iff {before : List Act} {act : Act} {position : Int64} :
    Adds before act position ↔
      ∃ added, (ofRun before).added? act = some added ∧ added.position = position := by
  have after : ofRun (before ++ [act]) = (ofRun before).next act := ofRun_append
  constructor
  · rintro ⟨absent, present⟩
    obtain ⟨entry, member, rfl⟩ := mem_positions_iff.mp present
    rw [after] at member
    rcases mem_entriesAfter_iff.mp member with ⟨old, oldMember, next⟩ | found
    · obtain ⟨_, rfl⟩ := Entry.next_eq_some_iff.mp next
      exact absurd (mem_positions_iff.mpr ⟨old, oldMember, rfl⟩) absent
    · exact ⟨entry, found, rfl⟩
  · rintro ⟨added, found, rfl⟩
    constructor
    · intro present
      have bound := toInt_le_largest present
      rw [position_added found] at bound
      omega
    · rw [mem_positions_iff, after]
      exact ⟨added, mem_entriesAfter_iff.mpr (.inr found), rfl⟩

/-- A later act gives a greater position. -/
theorem position_lt_of_adds {before between : List Act} {act next : Act} {first second : Int64}
    (adds : Adds before act first) (nextAdds : Adds (before ++ act :: between) next second) :
    first < second := by
  obtain ⟨added, found, rfl⟩ := adds_iff.mp adds
  obtain ⟨nextAdded, nextFound, rfl⟩ := adds_iff.mp nextAdds
  have position := position_added nextFound
  have largest := largest_next found
  have split : ofRun (before ++ act :: between) = ((ofRun before).next act).after between :=
    ofRun_append
  have grown : ((ofRun before).next act).largest ≤ (ofRun (before ++ act :: between)).largest :=
    split ▸ largest_le_after
  rw [Int64.lt_iff_toInt_lt]
  omega

/-- Every entry that a run leaves was added by an act of the run. -/
theorem exists_origin {run : List Act} {entry : Entry} (member : entry ∈ (ofRun run).entries) :
    ∃ before act later added, run = before ++ act :: later ∧
      (ofRun before).added? act = some added ∧ added.after later = some entry := by
  rcases mem_after_iff.mp member with ⟨_, ⟨⟩, _⟩ | origin
  exact origin

/-- Every row that a run leaves was added by an act of the run. -/
theorem exists_adds {run : List Act} {position : Int64}
    (present : position ∈ positions (carryOut fresh run)) :
    ∃ before act later, run = before ++ act :: later ∧ Adds before act position := by
  obtain ⟨entry, member, rfl⟩ := mem_positions_iff.mp present
  obtain ⟨before, act, later, added, split, found, stays⟩ := exists_origin member
  exact ⟨before, act, later, split,
    adds_iff.mpr ⟨added, found, (Entry.position_after stays).symm⟩⟩

/-- Of two places in a run, one comes before the other, or they are the same. -/
theorem split_cases {before later other rest : List Act} {act next : Act}
    (split : before ++ act :: later = other ++ next :: rest) :
    (∃ between, other = before ++ act :: between ∧ later = between ++ next :: rest) ∨
      (before = other ∧ act = next ∧ later = rest) ∨
        ∃ between, before = other ++ next :: between ∧ rest = between ++ act :: later := by
  rcases List.append_eq_append_iff.mp split with ⟨middle, rfl, tail⟩ | ⟨middle, rfl, tail⟩
  · cases middle with
    | nil =>
        cases tail
        exact .inr (.inl ⟨(List.append_nil _).symm, rfl, rfl⟩)
    | cons head between =>
        cases tail
        exact .inl ⟨between, rfl, rfl⟩
  · cases middle with
    | nil =>
        cases tail
        exact .inr (.inl ⟨List.append_nil _, rfl, rfl⟩)
    | cons head between =>
        cases tail
        exact .inr (.inr ⟨between, rfl, rfl⟩)

/-- A position is used once: only one act of a run adds a row with it. -/
theorem adds_unique {before later other rest : List Act} {act next : Act} {position : Int64}
    (split : before ++ act :: later = other ++ next :: rest) (adds : Adds before act position)
    (otherAdds : Adds other next position) : before = other ∧ act = next ∧ later = rest := by
  rcases split_cases split with ⟨between, rfl, _⟩ | same | ⟨between, rfl, _⟩
  · exact absurd (position_lt_of_adds adds otherAdds) Int64.lt_irrefl
  · exact same
  · exact absurd (position_lt_of_adds otherAdds adds) Int64.lt_irrefl

/-- Of two rows that a run leaves, the first was added before the second if its position is less. -/
theorem addedBefore_iff {run : List Act} {first second : Int64}
    (present : first ∈ positions (carryOut fresh run))
    (secondPresent : second ∈ positions (carryOut fresh run)) :
    AddedBefore run first second ↔ first < second := by
  constructor
  · rintro ⟨before, act, between, next, later, _, adds, nextAdds⟩
    exact position_lt_of_adds adds nextAdds
  · intro less
    obtain ⟨before, act, later, split, adds⟩ := exists_adds present
    obtain ⟨other, next, rest, otherSplit, nextAdds⟩ := exists_adds secondPresent
    rcases split_cases (split.symm.trans otherSplit) with
      ⟨between, rfl, rfl⟩ | ⟨rfl, rfl, rfl⟩ | ⟨between, rfl, rfl⟩
    · exact ⟨before, act, between, next, rest, split, adds, nextAdds⟩
    · obtain ⟨added, found, rfl⟩ := adds_iff.mp adds
      obtain ⟨other, otherFound, rfl⟩ := adds_iff.mp nextAdds
      cases found.symm.trans otherFound
      exact absurd less Int64.lt_irrefl
    · exact absurd (position_lt_of_adds nextAdds adds) (Int64.lt_asymm less)

end MessageStore.Store
