import MessageStore.Proofs.Store.ReadBack

/-!
# Stores that keep nothing

A store that keeps nothing answers like a new store to which no message is ever
added, although it could be.  What is read of a new store is nothing, and no
other operation puts anything into it.  What can be added or updated does not
depend on the store.
-/

namespace MessageStore.Store

open Holdings (carryOut_fresh messages_db nextPosition?_table table?_db)
open Relational (Database Query Table)
open Schema (layoutColumns messageTable)

/-- Carry out an operation at the given time, except that a message that could be added is not. -/
def performWithholding (now : Instant) (db : Database) : Operation → Outcome
  | .add message => { perform now db (.add message) with db }
  | operation => perform now db operation

/-- How acts go one after another where messages that could be added are not. -/
def withholding (db : Database) : List Act → List Outcome
  | [] => []
  | (now, operation) :: rest =>
      let outcome := performWithholding now db operation
      outcome :: withholding outcome.db rest

/-! ## What can be added or updated -/

section Accepting

variable {db : Database} (now : Instant) (message : Message)

/-- A message can be added to a store with a position for it if a store that keeps nothing takes
it. -/
theorem answer_add (reachable : Reachable db) (room : HasPosition db) :
    (perform now db (.add message)).answer = discard (.add message) := by
  by_cases event : message.event = .message
  · obtain ⟨table, writable, laid⟩ := reachable.exists_laid
    obtain ⟨position, next⟩ := room
    rw [(Database.writable_eq_ok_iff.mp writable).2, Option.bind_some] at next
    have added : add now message db = _ := add_eq event writable laid
    rw [next] at added
    simp only [perform, added, discard, requireMessage, if_pos event]
    rfl
  · simp only [perform, Store.add, discard, requireMessage, if_neg event]
    rfl

/-- A message can be updated if a store that keeps nothing takes it. -/
theorem answer_update (reachable : Reachable db) :
    (perform now db (.update message)).answer = discard (.update message) := by
  by_cases event : message.event = .message
  · obtain ⟨table, writable, laid⟩ := reachable.exists_laid
    have updated := update_eq writable laid (preferred_editedCells message)
      (ofMessage_known message.topic message.id)
    simp only [perform, update_of_message event, updated, discard, requireMessage, if_pos event]
    rfl
  · simp only [perform, update_of_other event, discard, requireMessage, if_neg event]
    rfl

end Accepting

/-! ## New stores -/

/-- A query of a new store for messages by known columns has no rows. -/
theorem run_fresh {query : Query} (names : List String) (messages : query.table = messageTable)
    (used : query.names = names)
    (known : ∀ name ∈ names, ∃ column ∈ layoutColumns 6, column.name = name) :
    query.run fresh = .ok [] := by
  have rows : query.rows Holdings.empty.table = [] :=
    List.eq_nil_iff_forall_not_mem.mpr fun row member => nomatch mem_of_mem_rows member
  have ran : query.run fresh = _ := Holdings.empty.current.run_eq messages (used ▸ known)
  rw [ran, rows]
  rfl

theorem messages_fresh (topic : String) (since : Since) (scheduled : Bool) :
    messages topic since scheduled fresh = .ok [] := by
  have read : messages topic since scheduled fresh = _ :=
    @messages_db .empty topic since scheduled
  rw [read]
  exact congrArg Except.ok (List.map_eq_nil_iff.mpr List.mergeSort_nil)

theorem message_fresh (topic id : String) :
    message topic id fresh = .error (.of (.messageNotFound topic id)) := by
  unfold message select
  rw [run_fresh (readColumns ++ ["topic", "mid"] ++ replayOrder) rfl rfl (by decide)]
  rfl

theorem due_fresh (now : Instant) : due now fresh = .ok [] := by
  unfold due select
  rw [run_fresh (readColumns ++ ["time", "published"] ++ replayOrder) rfl rfl (by decide)]
  rfl

theorem count_fresh (topic : String) : count topic fresh = .ok 0 := by
  unfold count
  rw [run_fresh ["topic"] rfl rfl (by decide)]
  rfl

theorem topics_fresh : topics fresh = .ok [] := by
  unfold topics
  rw [run_fresh ["topic", "topic"] rfl rfl (by decide)]
  rfl

theorem attachmentsSize_fresh (owner : String) (now : Instant) :
    attachmentsSize owner now fresh = .ok 0 := by
  unfold attachmentsSize
  rw [run_fresh ["attachment_size", "attachment_owner", "attachment_expires"] rfl rfl (by decide)]
  rfl

theorem attachmentsExpired_fresh (now : Instant) : attachmentsExpired now fresh = .ok [] := by
  unfold attachmentsExpired
  rw [run_fresh ["mid", "attachment_expires", "attachment_expires"] rfl rfl (by decide)]
  rfl

/-- A new store answers to reading like one that keeps nothing. -/
theorem answer_fresh_of_reading (now : Instant) {operation : Operation}
    (reads : operation.changes = false) :
    (perform now fresh operation).answer = discard operation := by
  cases operation with
  | add | update | markPublished | prune => cases reads
  | messages topic since scheduled =>
      exact congrArg (Except.map Answer.messages) (messages_fresh topic since scheduled)
  | message topic id => exact congrArg (Except.map Answer.message) (message_fresh topic id)
  | due => exact congrArg (Except.map Answer.messages) (due_fresh now)
  | count topic => exact congrArg (Except.map Answer.count) (count_fresh topic)
  | topics => exact congrArg (Except.map Answer.topics) topics_fresh
  | attachmentsSize owner =>
      exact congrArg (Except.map Answer.size) (attachmentsSize_fresh owner now)
  | attachmentsExpired => exact congrArg (Except.map Answer.ids) (attachmentsExpired_fresh now)

/-- What is left of a new store after an act that adds nothing is a new store. -/
theorem perform_fresh {act : Act} (added : Holdings.empty.added? act = none) :
    (perform act.1 fresh act.2).db = fresh := by
  have left : (perform act.1 fresh act.2).db = _ := Holdings.empty.perform_db act
  have entries : (Holdings.empty.next act).entries = Holdings.empty.entries := by
    change Holdings.empty.entriesAfter act = []
    unfold Holdings.entriesAfter
    rw [added]
    rfl
  have used : (Holdings.empty.next act).used = Holdings.empty.used := by
    change Holdings.empty.usedAfter act = none
    unfold Holdings.usedAfter
    rw [added]
    rfl
  rw [left]
  exact Holdings.db_congr entries used

theorem hasPosition_fresh : HasPosition fresh :=
  ⟨1, by decide⟩

/-- Where nothing is added, one act is answered as by a store that keeps nothing, and leaves a new
store. -/
theorem performWithholding_fresh (now : Instant) (operation : Operation) :
    (performWithholding now fresh operation).answer = discard operation ∧
      (performWithholding now fresh operation).db = fresh := by
  cases operation with
  | add message => exact ⟨answer_add now message .fresh hasPosition_fresh, rfl⟩
  | update message =>
      exact ⟨answer_update now message .fresh, @perform_fresh (now, .update message) rfl⟩
  | markPublished message =>
      have performed : perform now fresh (.markPublished message) = _ :=
        Holdings.empty.perform_markPublished now message
      refine ⟨?_, @perform_fresh (now, .markPublished message) rfl⟩
      exact congrArg Outcome.answer performed
  | prune cutoff =>
      exact ⟨(Holdings.empty.perform_prune now cutoff).2, @perform_fresh (now, .prune cutoff) rfl⟩
  | _ => exact ⟨answer_fresh_of_reading now rfl, rfl⟩

/-- A store that keeps nothing gives the answers of a new store to which no message is added that
could be: the acts leave it as new as it was, so that there is never anything to read.  What can be
updated does not depend on the store, nor does what can be added as long as there is a position for
it. -/
theorem discards_like_withholding :
    (∀ run, (withholding fresh run).map (·.answer) = run.map (discard ·.2) ∧
      ∀ outcome ∈ withholding fresh run, outcome.db = fresh) ∧
    messageRows fresh = [] ∧
    ∀ db now message, Reachable db →
      (perform now db (.update message)).answer = discard (.update message) ∧
        (HasPosition db → (perform now db (.add message)).answer = discard (.add message)) := by
  refine ⟨fun run => ?_, Holdings.messageRows_db .empty, fun db now message reachable =>
    ⟨answer_update now message reachable, answer_add now message reachable⟩⟩
  induction run with
  | nil => exact ⟨rfl, nofun⟩
  | cons act rest ih =>
      obtain ⟨now, operation⟩ := act
      obtain ⟨answer, db⟩ := performWithholding_fresh now operation
      simp only [withholding, db, List.map_cons, List.forall_mem_cons]
      exact ⟨congrArg₂ List.cons answer ih.1, trivial, ih.2⟩

/-- A message that could be added is accepted and not found, and a frame that is no message is not
taken, whether the store keeps anything or not. -/
theorem discards_like_withholding_message :
    let clock : Instant := ⟨5, 0, by decide, by decide, by decide⟩
    let message : Message := .plain "t" "a" 1 ""
    let frame := Message.ofEvent .keepalive "t" clock 0
    let run : List Act := [(clock, .add message), (clock, .update message), (clock, .message "t" "a")]
    let db := carryOut fresh run
    (withholding fresh run).map (·.answer) =
        [.ok .done, .ok .done, .error (.of (.messageNotFound "t" "a"))] ∧
      Reachable db ∧ HasPosition db ∧ (perform clock db (.add message)).answer = .ok .done ∧
      (perform clock db (.update frame)).answer = .error (.of (.unexpectedEvent .keepalive)) := by
  intro clock message frame run db
  obtain ⟨runs, _, accepts⟩ := discards_like_withholding
  have reachable : Reachable db := Reachable.fresh.carryOut run
  have room : HasPosition db := by
    refine ⟨2, ?_⟩
    change ((carryOut fresh run).table? messageTable).bind Table.nextPosition? = _
    rw [carryOut_fresh, table?_db, Option.bind_some, nextPosition?_table]
    decide
  exact ⟨(runs run).1, reachable, room, (accepts db clock message reachable).2 room,
    (accepts db clock frame reachable).1⟩

end MessageStore.Store
