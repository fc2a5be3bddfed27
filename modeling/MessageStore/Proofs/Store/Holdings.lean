import MessageStore.Proofs.Store.Reading
import MessageStore.Store.Operation

/-!
# What a store holds

A new store, and every store that operations make of it, holds a list of
entries: messages with their positions, some of them published.  An operation
does three things at most: it edits or publishes the entries that it is about,
it takes out those that it prunes, and it adds one entry behind all that there
have ever been.
-/

namespace MessageStore

/-- A message with the editable part of another one. -/
def Message.edited (message edit : Message) : Message :=
  { message with
    updated := edit.updated
    body := edit.body
    title := edit.title
    priority := edit.priority
    tags := edit.tags
    click := edit.click }

namespace Store

open Relational (Cell Row)

/-- An operation and the time at which it is carried out. -/
abbrev Act :=
  Instant × Operation

/-- A message that a store holds. -/
structure Entry where
  position : Int64
  message : Message
  published : Bool
  deriving DecidableEq

/-- The row of an entry. -/
def Entry.row (entry : Entry) : Row :=
  ⟨entry.position, newRow entry.message entry.published⟩

namespace Entry

variable (entry : Entry)

/-! What the row of an entry says. -/

@[simp]
theorem ofTopic_row {topic : String} : OfTopic topic entry.row ↔ entry.message.topic = topic := by
  change some (Cell.text entry.message.topic) = some (Cell.text topic) ↔ _
  rw [Option.some.injEq, Cell.text.injEq]

@[simp]
theorem ofId_row {id : String} : OfId id entry.row ↔ entry.message.id = id := by
  change some (Cell.text entry.message.id) = some (Cell.text id) ↔ _
  rw [Option.some.injEq, Cell.text.injEq]

@[simp]
theorem ofTime_row {time : Int64} : OfTime time entry.row ↔ entry.message.time = time := by
  change some (Cell.integer entry.message.time) = some (Cell.integer time) ↔ _
  rw [Option.some.injEq, Cell.integer.injEq]

@[simp]
theorem isPublished_row : IsPublished entry.row ↔ entry.published = true := by
  change some (Cell.ofBool entry.published) = some (Cell.integer 1) ↔ _
  cases entry.published <;> decide

@[simp]
theorem isScheduled_row : IsScheduled entry.row ↔ entry.published = false := by
  change some (Cell.ofBool entry.published) = some (Cell.integer 0) ↔ _
  cases entry.published <;> decide

end Entry

/-! ## What an operation does to one entry -/

/-- What an operation makes of a message that is stored. -/
def Operation.edit : Operation → Message → Message
  | .update edit, old =>
      if edit.event = .message ∧ old.topic = edit.topic ∧ old.id = edit.id then old.edited edit
      else old
  | _, old => old

/-- An operation leaves a message as it is, or puts the editable part of another one in place. -/
theorem Operation.edit_cases (operation : Operation) (message : Message) :
    operation.edit message = message ∨ ∃ edit, operation.edit message = message.edited edit := by
  cases operation with
  | update edit =>
      rw [Operation.edit]
      split
      · exact .inr ⟨edit, rfl⟩
      · exact .inl rfl
  | _ => exact .inl rfl

/-- An edited message stays in its topic. -/
@[simp]
theorem Operation.topic_edit (operation : Operation) (message : Message) :
    (operation.edit message).topic = message.topic := by
  rcases operation.edit_cases message with same | ⟨edit, same⟩ <;> rw [same]
  rfl

/-- Whether an operation marks an ID as published. -/
def Operation.marks (id : String) : Operation → Bool
  | .markPublished marked => id = marked.id
  | _ => false

/-- Whether an operation takes out an entry. -/
def Operation.prunes : Operation → Entry → Bool
  | .prune cutoff, entry => entry.message.time.toInt < cutoff.seconds ∧ entry.published
  | _, _ => false

/-- What becomes of an entry, if it stays. -/
def Entry.next (operation : Operation) (entry : Entry) : Option Entry :=
  if operation.prunes entry then none
  else
    some ⟨entry.position, operation.edit entry.message,
      entry.published || operation.marks entry.message.id⟩

theorem Entry.next_eq_some_iff {operation : Operation} {entry later : Entry} :
    entry.next operation = some later ↔
      operation.prunes entry = false ∧
        later = ⟨entry.position, operation.edit entry.message,
          entry.published || operation.marks entry.message.id⟩ := by
  unfold next
  cases operation.prunes entry <;> simp [eq_comm]

theorem Entry.next_add (entry : Entry) (message : Message) :
    entry.next (.add message) = some entry := by
  simp [next, Operation.prunes, Operation.edit, Operation.marks]

/-- Reading leaves every entry as it is. -/
theorem Entry.next_of_reading {operation : Operation} (reads : operation.changes = false)
    (entry : Entry) : entry.next operation = some entry := by
  cases operation with
  | add | update | markPublished | prune => cases reads
  | _ => simp [next, Operation.prunes, Operation.edit, Operation.marks]

/-! ## What an operation does to all entries -/

/-- Elements of a list that have distinct keys are told apart by them. -/
theorem eq_of_key {α β : Type} {key : α → β} {items : List α} {first second : α}
    (distinct : items.Pairwise fun first second => key first ≠ key second)
    (member : first ∈ items) (otherMember : second ∈ items) (same : key first = key second) :
    first = second :=
  List.Pairwise.forall_of_forall_of_flip
    (R := fun first second => key first = key second → first = second)
    (fun _ _ _ => rfl) (distinct.imp fun apart same => absurd same apart)
    (distinct.imp fun apart same => absurd same.symm apart) member otherMember same

/-- The entries of a store, in the order of their positions, and the largest position that has ever
been used. -/
structure Holdings where
  entries : List Entry
  used : Option Int64
  ordered : entries.Pairwise fun first second => first.position < second.position
  nonneg : 0 ≤ (used.getD 0).toInt
  bound : ∀ entry ∈ entries, entry.position.toInt ≤ (used.getD 0).toInt

namespace Holdings

theorem apart (holdings : Holdings) :
    holdings.entries.Pairwise fun first second => first.position ≠ second.position := by
  refine holdings.ordered.imp ?_
  intro first second less same
  rw [same] at less
  exact Int64.lt_irrefl less

/-- Entries are told apart by their positions. -/
theorem eq_of_position {holdings : Holdings} {entry other : Entry}
    (member : entry ∈ holdings.entries) (otherMember : other ∈ holdings.entries)
    (same : entry.position = other.position) : entry = other :=
  eq_of_key holdings.apart member otherMember same

/-- What a new store holds. -/
def empty : Holdings :=
  ⟨[], none, .nil, by decide, nofun⟩

/-- The largest position that has ever been used, or zero. -/
def largest (holdings : Holdings) : Int :=
  (holdings.used.getD 0).toInt

/-- The entry that an act adds, if it does. -/
def added? (holdings : Holdings) : Act → Option Entry
  | (now, .add message) =>
      if message.event = .message ∧ holdings.largest < Int64.maxValue.toInt then
        some ⟨Int64.ofInt (holdings.largest + 1), message, message.isDue now.seconds⟩
      else none
  | _ => none

/-- The largest position that has ever been used once an act has been carried out. -/
def usedAfter (holdings : Holdings) (act : Act) : Option Int64 :=
  match holdings.added? act with
  | some entry => some entry.position
  | none => holdings.used

section Acting

variable {holdings : Holdings} {act : Act} {entry : Entry}

/-- What is added comes right behind all that there have ever been. -/
theorem position_added (added : holdings.added? act = some entry) :
    entry.position.toInt = holdings.largest + 1 := by
  obtain ⟨now, operation⟩ := act
  cases operation with
  | add message =>
      simp only [added?, Option.ite_none_right_eq_some, Option.some.injEq] at added
      obtain ⟨⟨_, room⟩, rfl⟩ := added
      have nonneg : 0 ≤ holdings.largest := holdings.nonneg
      rw [Int64.toInt_maxValue] at room
      exact Int64.toInt_ofInt_of_le (by omega) (by omega)
  | _ => cases added

theorem largest_le_usedAfter : holdings.largest ≤ ((holdings.usedAfter act).getD 0).toInt := by
  unfold usedAfter
  cases added : holdings.added? act with
  | none => exact Int.le_refl _
  | some entry =>
      have position := position_added added
      simp only [Option.getD_some]
      omega

/-- The entries that are left of those that there were, and the one that is added. -/
def entriesAfter (holdings : Holdings) (act : Act) : List Entry :=
  holdings.entries.filterMap (Entry.next act.2) ++ (holdings.added? act).toList

theorem mem_entriesAfter_iff :
    entry ∈ holdings.entriesAfter act ↔
      (∃ old ∈ holdings.entries, old.next act.2 = some entry) ∨
        holdings.added? act = some entry := by
  simp [entriesAfter, List.mem_filterMap]

theorem entriesAfter_ordered :
    (holdings.entriesAfter act).Pairwise fun first second => first.position < second.position := by
  refine List.pairwise_append.mpr ⟨?_, ?_, ?_⟩
  · refine List.Pairwise.filterMap _ ?_ holdings.ordered
    intro first second before firstLater firstNext secondLater secondNext
    obtain ⟨_, rfl⟩ := Entry.next_eq_some_iff.mp firstNext
    obtain ⟨_, rfl⟩ := Entry.next_eq_some_iff.mp secondNext
    exact before
  · cases holdings.added? act with
    | none => exact .nil
    | some entry => exact List.pairwise_singleton _ _
  · intro later laterMember entry entryMember
    obtain ⟨old, member, next⟩ := List.mem_filterMap.mp laterMember
    obtain ⟨_, rfl⟩ := Entry.next_eq_some_iff.mp next
    have position := position_added (Option.mem_toList.mp entryMember)
    have bound := holdings.bound old member
    change old.position < entry.position
    rw [Int64.lt_iff_toInt_lt]
    unfold largest at position
    omega

theorem entriesAfter_bound :
    ∀ entry ∈ holdings.entriesAfter act,
      entry.position.toInt ≤ ((holdings.usedAfter act).getD 0).toInt := by
  intro entry member
  rcases mem_entriesAfter_iff.mp member with ⟨old, oldMember, next⟩ | added
  · obtain ⟨_, rfl⟩ := Entry.next_eq_some_iff.mp next
    exact Int.le_trans (holdings.bound old oldMember) largest_le_usedAfter
  · simp [usedAfter, added]

end Acting

/-- What a store holds after an act. -/
def next (act : Act) (holdings : Holdings) : Holdings where
  entries := holdings.entriesAfter act
  used := holdings.usedAfter act
  ordered := entriesAfter_ordered
  nonneg := Int.le_trans holdings.nonneg largest_le_usedAfter
  bound := entriesAfter_bound

/-! ## What a store holds of a topic -/

/-- The entries of a topic. -/
def under (holdings : Holdings) (topic : String) : List Entry :=
  holdings.entries.filter fun entry => entry.message.topic = topic

/-- The entries of a topic after an act: those that are left of the entries of the topic, and the
one that is added, if it belongs there. -/
theorem under_next {topic : String} {holdings : Holdings} {act : Act} :
    (holdings.next act).under topic =
      (holdings.under topic).filterMap (Entry.next act.2) ++
        (holdings.added? act).toList.filter fun entry => entry.message.topic = topic := by
  change (holdings.entriesAfter act).filter _ = _
  unfold entriesAfter under
  rw [List.filter_append, List.filter_filterMap, List.filterMap_filter]
  congr 2
  funext entry
  unfold Entry.next
  cases act.2.prunes entry with
  | true => simp
  | false => simp [Option.filter]

end Holdings

end Store

end MessageStore
