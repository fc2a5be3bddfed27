import MessageStore.Proofs.Store.Decodable
import MessageStore.Proofs.Store.Framed

/-!
# Pages are whole

Whatever the rows of a store hold, a page is what is read from all the rows that
are selected, or it is the error of the first of them that cannot be read, in the
order in which they are selected.  It is never a part of them.  What is selected of
a topic depends on the rows of the topic only, so that rows of another one do not
matter, whether they can be read or not.
-/

namespace MessageStore.Store

open Relational (Database Row Table)

/-! ## Selected rows -/

/-- Rows that are selected: those of the table of messages that are wanted, each once, in the order
of their times and then of their positions. -/
structure Selects (db : Database) (wanted : Row → Prop) (rows : List Row) : Prop where
  mem_iff : ∀ row, row ∈ rows ↔ row ∈ messageRows db ∧ wanted row
  ordered : rows.Pairwise Precedes

instance : DecidableRel Precedes :=
  fun _ _ => inferInstanceAs (Decidable (_ ∨ _ ∧ _))

section Selections

variable {db other : Database} {wanted : Row → Prop} {rows others : List Row}

theorem selects_of_perm [DecidablePred wanted]
    (perm : rows.Perm ((messageRows db).filter (wanted ·))) (ordered : rows.Pairwise Precedes) :
    Selects db wanted rows where
  mem_iff row := by
    rw [perm.mem_iff, List.mem_filter, decide_eq_true_eq]
  ordered := ordered

/-- What is selected does not depend on more than which rows are wanted. -/
theorem Selects.unique {otherWanted : Row → Prop} (selects : Selects db wanted rows)
    (otherSelects : Selects other otherWanted others)
    (same : ∀ row, row ∈ messageRows db ∧ wanted row ↔ row ∈ messageRows other ∧ otherWanted row) :
    rows = others := by
  have nodup {rows : List Row} (ordered : rows.Pairwise Precedes) : rows.Nodup :=
    ordered.imp fun ahead same => (same ▸ ahead).asymm (same ▸ ahead)
  refine eq_of_precedes ?_ selects.ordered otherSelects.ordered
  refine (List.perm_ext_iff_of_nodup (nodup selects.ordered) (nodup otherSelects.ordered)).mpr
    fun row => ?_
  rw [selects.mem_iff, otherSelects.mem_iff, same]

theorem Selects.eq_of_perm [DecidablePred wanted] (selects : Selects db wanted rows)
    (perm : others.Perm ((messageRows db).filter (wanted ·))) (ordered : others.Pairwise Precedes) :
    rows = others :=
  selects.unique (selects_of_perm perm ordered) fun _ => Iff.rfl

end Selections

/-! ## Whole results -/

/-- A result that is the error of a row that cannot be read. -/
def RefusedBy {α : Type} (row : Row) (result : Except Error α) : Prop :=
  ∃ error, result = .error error ∧ decode row = .error error ∧ Refuses row error

/-- A result that consists of the messages of all the given rows, or is the error of the first one
that cannot be read. -/
structure Whole (rows : List Row) (result : Except Error (List Message)) : Prop where
  succeeds_iff : (∃ page, result = .ok page) ↔ ∀ row ∈ rows, Decodable row
  complete : (∀ row ∈ rows, Decodable row) → result = .ok (rows.map messageOf)
  refused : ∀ before row behind, rows = before ++ row :: behind →
    (∀ earlier ∈ before, Decodable earlier) → ¬ Decodable row → RefusedBy row result

/-- A result that is the message of the first one of the given rows, or the error why this cannot be
read, or why there is none. -/
structure WholeFirst (rows : List Row) (absent : Error) (result : Except Error Message) : Prop where
  succeeds_iff : (∃ found, result = .ok found) ↔ ∃ row, rows.head? = some row ∧ Decodable row
  complete : ∀ row, rows.head? = some row → Decodable row → result = .ok (messageOf row)
  refused : ∀ row, rows.head? = some row → ¬ Decodable row → RefusedBy row result
  absent : rows = [] → result = .error absent

section Results

variable {row : Row} {rows : List Row}

/-- A row that cannot be read says why. -/
theorem refusedBy_decode (undecodable : ¬ Decodable row) : RefusedBy row (decode row) := by
  rw [← refusal?_eq_none_iff] at undecodable
  obtain ⟨error, refused⟩ := Option.ne_none_iff_exists'.mp undecodable
  have failed := decode_eq_error_iff.mpr refused
  exact ⟨error, failed, failed, refuses_of_refusal? refused⟩

theorem findSome?_refusal?_eq_none_iff :
    rows.findSome? refusal? = none ↔ ∀ row ∈ rows, Decodable row :=
  List.findSome?_eq_none_iff.trans (forall₂_congr fun _ _ => refusal?_eq_none_iff)

/-- What is read from rows is whole. -/
theorem whole_mapM (rows : List Row) : Whole rows (rows.mapM decode) := by
  rw [mapM_eq_barring decode_eq]
  refine ⟨?_, fun readable => ?_, ?_⟩
  · simp only [barring_eq_ok_iff, exists_and_left, exists_eq', and_true,
      findSome?_refusal?_eq_none_iff]
  · rw [findSome?_refusal?_eq_none_iff.mpr readable]
    rfl
  · rintro before row behind rfl readable undecodable
    obtain ⟨error, failed, -, refuses⟩ := refusedBy_decode undecodable
    refine ⟨error, barring_eq_error_iff.mpr ?_, failed, refuses⟩
    rw [List.findSome?_append, findSome?_refusal?_eq_none_iff.mpr readable, Option.none_or,
      findSome?_cons_eq_or, decode_eq_error_iff.mp failed, Option.some_or]

/-- What is read from the first one of rows is whole. -/
theorem wholeFirst_decode (rows : List Row) (absent : Error) :
    WholeFirst rows absent
      (match rows.head? with
        | some row => decode row
        | none => .error absent) := by
  cases rows with
  | nil => exact ⟨by simp, nofun, nofun, fun _ => rfl⟩
  | cons first rest =>
      refine ⟨?_, ?_, ?_, nofun⟩
      · simp only [List.head?_cons, Option.some.injEq, exists_eq_left']
        simp only [decode_eq_ok_iff, exists_and_left, exists_eq', and_true]
      · rintro _ ⟨⟩ decodable
        exact decode_eq_ok_iff.mpr ⟨decodable, rfl⟩
      · rintro _ ⟨⟩ undecodable
        exact refusedBy_decode undecodable

end Results

/-! ## Pages -/

/-- A row that is due at a time and not published, by the cells that it has. -/
def Awaited (now : Instant) (row : Row) : Prop :=
  Compares "time" .atMost (Int64.ofInt now.seconds) row ∧ Compares "published" .equal 0 row

instance (now : Instant) (row : Row) : Decidable (Awaited now row) :=
  inferInstanceAs (Decidable (_ ∧ _))

namespace Framed

variable {db other : Database} {table otherTable : Table}

theorem selects_shownRows (framed : Framed db table) (topic : String) (since : Since)
    (scheduled : Bool) :
    Selects db (Wanted db topic since scheduled) (shownRows topic since scheduled db) :=
  have ⟨perm, ordered⟩ := framed.perm_shownRows topic since scheduled
  selects_of_perm perm ordered

theorem selects_dueRows (framed : Framed db table) (now : Instant) :
    Selects db (Awaited now) (dueRows now db) := by
  have perm := framed.perm_chosenRows (awaiting now)
  rw [funext fun row => framed.holds_awaiting row now] at perm
  exact selects_of_perm perm (framed.chosenRows_pairwise _)

theorem selects_ofMessage (framed : Framed db table) (topic id : String) :
    Selects db (fun row => OfTopic topic row ∧ OfId id row) (chosenRows db (ofMessage topic id)) := by
  have perm := framed.perm_chosenRows (ofMessage topic id)
  rw [funext fun row => framed.holds_ofMessage row topic id] at perm
  exact selects_of_perm perm (framed.chosenRows_pairwise _)

/-! ### Topics apart -/

section Apart

variable (framed : Framed db table) (otherFramed : Framed other otherTable) {topic : String}
  (same : (messageRows other).filter (OfTopic topic ·) = (messageRows db).filter (OfTopic topic ·))
include same

theorem mem_messageRows_of_same {row : Row} (ofTopic : OfTopic topic row) :
    row ∈ messageRows other ↔ row ∈ messageRows db := by
  have members := congrArg (row ∈ ·) same
  simpa [ofTopic] using members

/-- The first row of a topic with an ID is the same one in stores with the same rows of the topic. -/
theorem firstRow?_of_same (id : String) : firstRow? other topic id = firstRow? db topic id := by
  have split (db : Database) : firstRow? db topic id =
      ((messageRows db).filter (OfTopic topic ·)).find? (OfId id ·) := by
    rw [List.find?_filter, firstRow?]
    simp only [decide_eq_true_eq]
  rw [split, split, same]

theorem wanted_of_same (since : Since) (scheduled : Bool) (row : Row) :
    Wanted other topic since scheduled row ↔ Wanted db topic since scheduled row := by
  have requested : Requested other topic since row ↔ Requested db topic since row := by
    cases since with
    | message id => simp only [Requested, firstRow?_of_same same]
    | _ => exact Iff.rfl
  rw [Wanted, requested, Wanted]

include framed otherFramed

theorem messages_of_same (since : Since) (scheduled : Bool) :
    messages topic since scheduled other = messages topic since scheduled db := by
  rw [framed.messages_eq, otherFramed.messages_eq]
  refine congrArg (List.mapM decode) ((otherFramed.selects_shownRows topic since scheduled).unique
    (framed.selects_shownRows topic since scheduled) fun row => ?_)
  rw [wanted_of_same same]
  exact and_congr_left fun wanted => mem_messageRows_of_same same wanted.1

theorem message_of_same (id : String) : message topic id other = message topic id db := by
  have rows : chosenRows other (ofMessage topic id) = chosenRows db (ofMessage topic id) := by
    refine (otherFramed.selects_ofMessage topic id).unique (framed.selects_ofMessage topic id)
      fun row => ?_
    exact and_congr_left fun named => mem_messageRows_of_same same named.1
  rw [framed.message_eq, otherFramed.message_eq, rows]

end Apart

end Framed

/-- In every store whose table of messages has the columns of the current layout, whatever cells its
rows hold, a page and what is due are the messages of all rows that are selected, if each of them can
be read, and otherwise the error of the first one of them that cannot be; a lookup is the same of the
first row that is selected, and only if there is none, it says so.  Stores that have the same rows of
a topic, whatever other rows they have, give the same pages and lookups of the topic. -/
theorem pages_whole_or_refused {db : Database} {table : Table} (framed : Framed db table) :
    (∀ topic since scheduled, ∃ rows, Selects db (Wanted db topic since scheduled) rows ∧
      Whole rows (messages topic since scheduled db)) ∧
    (∀ now, ∃ rows, Selects db (Awaited now) rows ∧ Whole rows (due now db)) ∧
    (∀ topic id, ∃ rows, Selects db (fun row => OfTopic topic row ∧ OfId id row) rows ∧
      WholeFirst rows (.of (.messageNotFound topic id)) (message topic id db)) ∧
    ∀ other otherTable, Framed other otherTable → ∀ topic,
      (messageRows other).filter (OfTopic topic ·) = (messageRows db).filter (OfTopic topic ·) →
        (∀ since scheduled,
          messages topic since scheduled other = messages topic since scheduled db) ∧
        ∀ id, message topic id other = message topic id db := by
  refine ⟨fun topic since scheduled => ?_, fun now => ?_, fun topic id => ?_,
    fun other otherTable otherFramed topic same => ?_⟩
  · refine ⟨_, framed.selects_shownRows topic since scheduled, ?_⟩
    rw [framed.messages_eq]
    exact whole_mapM _
  · refine ⟨_, framed.selects_dueRows now, ?_⟩
    rw [framed.due_eq]
    exact whole_mapM _
  · refine ⟨_, framed.selects_ofMessage topic id, ?_⟩
    rw [framed.message_eq]
    exact wholeFirst_decode _ _
  · exact ⟨framed.messages_of_same otherFramed same, framed.message_of_same otherFramed same⟩

/-- Of three rows of a topic, the one with a text for a time stands behind the others and the one
whose priority is out of range refuses the page; a lookup of the other one succeeds, and so does the
page of another topic, which is the same as if there were no other rows. -/
theorem pages_whole_or_refused_mixed :
    let first : Row := ⟨1, newRow (.plain "a" "x" 5 "") true⟩
    let second : Row :=
      (⟨2, newRow (.plain "a" "y" 1 "") true⟩ : Row).putAll [("time", .text "soon")]
    let third : Row :=
      (⟨3, newRow (.plain "a" "z" 7 "") true⟩ : Row).putAll [("priority", .integer 300)]
    let fourth : Row := ⟨4, newRow (.plain "b" "x" 6 "") true⟩
    let table : Table :=
      ⟨"messages", Schema.messageColumns, [first, second, third, fourth], Schema.rising⟩
    let db : Database := ⟨[table], [], []⟩
    let calm : Database := ⟨[{ table with rows := [fourth] }], [], []⟩
    Framed db table ∧
      messages "a" .everything true db = .error (.of (.cellRange 6 300)) ∧
      message "a" "x" db = .ok (.plain "a" "x" 5 "") ∧
      message "a" "y" db = .error (.of (.cellKind 1 "time" .text)) ∧
      messages "b" .everything true db = .ok [.plain "b" "x" 6 ""] ∧
      messages "b" .everything true calm = .ok [.plain "b" "x" 6 ""] := by
  intro first second third fourth table db calm
  have framed : Framed db table := ⟨by decide, by decide, by decide⟩
  have calmFramed : Framed calm { table with rows := [fourth] } :=
    ⟨by decide, by decide, by decide⟩
  obtain ⟨pages, -, lookups, apart⟩ := pages_whole_or_refused framed
  have undecodable : ¬ Decodable second ∧ ¬ Decodable third :=
    ⟨fun decodable => absurd (refusal?_eq_none_iff.mpr decodable) (by decide),
      fun decodable => absurd (refusal?_eq_none_iff.mpr decodable) (by decide)⟩
  have decodable : Decodable first ∧ Decodable fourth :=
    ⟨refusal?_eq_none_iff.mp (by decide), refusal?_eq_none_iff.mp (by decide)⟩
  have page : messages "a" .everything true db = .error (.of (.cellRange 6 300)) := by
    obtain ⟨rows, selects, whole⟩ := pages "a" .everything true
    have chosen : rows = [first, third, second] := selects.eq_of_perm (by decide) (by decide)
    obtain ⟨error, failed, read, -⟩ := whole.refused [first] third [second] chosen
      (List.forall_mem_singleton.mpr decodable.1) undecodable.2
    have reason : refusal? third = some (.of (.cellRange 6 300)) := by decide
    rw [decode_eq_error_iff, reason] at read
    cases read
    exact failed
  have found : message "a" "x" db = .ok (.plain "a" "x" 5 "") := by
    obtain ⟨rows, selects, whole⟩ := lookups "a" "x"
    have chosen : rows = [first] := selects.eq_of_perm (by decide) (by decide)
    exact (whole.complete first (congrArg List.head? chosen) decodable.1).trans (by decide)
  have refused : message "a" "y" db = .error (.of (.cellKind 1 "time" .text)) := by
    obtain ⟨rows, selects, whole⟩ := lookups "a" "y"
    have chosen : rows = [second] := selects.eq_of_perm (by decide) (by decide)
    obtain ⟨error, failed, read, -⟩ :=
      whole.refused second (congrArg List.head? chosen) undecodable.1
    have reason : refusal? second = some (.of (.cellKind 1 "time" .text)) := by decide
    rw [decode_eq_error_iff, reason] at read
    cases read
    exact failed
  have beside : messages "b" .everything true db = .ok [.plain "b" "x" 6 ""] := by
    obtain ⟨rows, selects, whole⟩ := pages "b" .everything true
    have chosen : rows = [fourth] := selects.eq_of_perm (by decide) (by decide)
    have read : ∀ row ∈ rows, Decodable row := by
      rw [chosen]
      exact List.forall_mem_singleton.mpr decodable.2
    rw [whole.complete read, chosen]
    decide
  exact ⟨framed, page, found, refused, beside,
    ((apart calm _ calmFramed "b" (by decide)).1 .everything true).trans beside⟩

end MessageStore.Store
