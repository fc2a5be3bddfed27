import MessageStore.Proofs.Since.Recognition
import MessageStore.Proofs.Store.Agreement

/-!
# How far back a marker reaches

Where no message has a negative time, a look-back asks for the messages of its
span, whichever limit its numbers pass: a span that no instant lies at the end
of, or that is too long to be a span at all, reaches back behind second zero.
So a longer look-back never shows less.  A later timestamp shows more than an
earlier one in one case only: if it lies behind the last instant while the
earlier one does not, since it then stands for everything.
-/

namespace MessageStore.Store

open Holdings (carryOut_fresh messages_db ofRun)
open Relational (Database Row Table)
open Since (LookBackText greatestCount longestLookBack ofUnix parse)

/-- A marker shows all that another one shows: the rows that are shown for the narrower one are
among those for the wider one, in the same order, and if these can be read, so can the former. -/
structure Covers (db : Database) (topic : String) (scheduled : Bool) (wider narrower : Since) :
    Prop where
  rows : (shownRows topic narrower scheduled db).Sublist (shownRows topic wider scheduled db)
  pages : ∀ page, messages topic wider scheduled db = .ok page →
    ∃ part, messages topic narrower scheduled db = .ok part ∧ part.Sublist page

variable {db : Database} {table : Table} {topic : String} {scheduled : Bool} {row : Row}

/-- A marker shows all that another one shows if it asks for all of that. -/
theorem Current.covers_iff (current : Current db table) {wider narrower : Since} :
    Covers db topic scheduled wider narrower ↔
      ∀ row ∈ shownRows topic narrower scheduled db, AskedFor db topic wider row := by
  constructor
  · intro covers row shown
    have among := covers.rows.subset shown
    rw [current.shownRows_eq, List.mem_filter, decide_eq_true_eq] at among
    exact among.2.2.1
  · intro asked
    have narrowed : shownRows topic narrower scheduled db =
        (shownRows topic wider scheduled db).filter fun row => AskedFor db topic narrower row := by
      rw [current.shownRows_eq] at asked ⊢
      rw [current.shownRows_eq, List.filter_filter]
      refine List.filter_congr fun row member => ?_
      rw [← Bool.decide_and, decide_eq_decide]
      constructor
      · intro shown
        have wide := asked row (List.mem_filter.mpr ⟨member, decide_eq_true shown⟩)
        exact ⟨shown.2.1, shown.1, wide, shown.2.2⟩
      · rintro ⟨narrow, ofTopic, -, wanted⟩
        exact ⟨ofTopic, narrow, wanted⟩
    have sublist : (shownRows topic narrower scheduled db).Sublist
        (shownRows topic wider scheduled db) := by
      rw [narrowed]
      exact List.filter_sublist
    refine ⟨sublist, fun page read => ?_⟩
    rw [current.messages_eq] at read ⊢
    exact sublist_of_mapM_eq_ok sublist read

/-- Only rows of the table of messages are shown. -/
theorem Current.mem_of_mem_shownRows (current : Current db table) {since : Since}
    (shown : row ∈ shownRows topic since scheduled db) :
    row ∈ messageRows db ∧ AskedFor db topic since row := by
  rw [current.shownRows_eq, List.mem_filter, mem_orderedRows, decide_eq_true_eq] at shown
  exact ⟨shown.1, shown.2.2.1⟩

/-! ## Look-backs -/

theorem askedFor_absent {id : String} (absent : Absent db topic id) :
    AskedFor db topic (.message id) row ↔ 0 ≤ timeOf row := by
  have missing : firstRow? db topic id = none := by
    apply List.find?_eq_none.mpr
    intro row member
    simpa using absent row member
  simp only [AskedFor, missing]

/-- A look-back asks for the rows of its span, however long it is. -/
theorem askedFor_lookBack {now : Instant} {text : String} {count seconds : Nat}
    (lookBack : LookBackText text.toList count seconds) (absent : Absent db topic text)
    (late : 0 ≤ timeOf row) :
    AskedFor db topic (parse now text) row ↔
      now.seconds - (count * seconds : Nat) ≤ timeOf row := by
  have latest := now.le_latest
  unfold Instant.latest at latest
  rw [Since.parse_eq_ofWord lookBack.bare]
  by_cases within : Since.Within count seconds
  · rw [Since.ofWord_lookBack lookBack within]
    split
    · rename_i instant found
      obtain ⟨earlier, -⟩ := Instant.of?_eq_some_iff.mp found
      rw [← earlier]
      rfl
    · rename_i past
      have before := Since.minus?_eq_none_iff.mp past
      unfold Instant.earliest at before
      exact iff_of_true late (by omega)
  · rw [Since.ofWord_greatLookBack lookBack within, String.ofList_toList, askedFor_absent absent]
    -- A count that is too great spans too much, since every unit has some seconds.
    have least := Nat.le_mul_of_pos_right count lookBack.seconds_pos
    rw [Since.within_iff, greatestCount, longestLookBack] at within
    exact iff_of_true late (by omega)

/-! ## Timestamps -/

/-- A timestamp asks for the rows from it on, unless it lies behind the last instant. -/
theorem askedFor_ofUnix {timestamp : Int} (late : 0 ≤ timeOf row) :
    AskedFor db topic (ofUnix timestamp) row ↔
      (timestamp ≤ Instant.latest → timestamp ≤ timeOf row) := by
  unfold ofUnix
  split
  · rename_i instant found
    obtain ⟨same, -⟩ := Instant.of?_eq_some_iff.mp found
    have latest := instant.le_latest
    rw [← same]
    exact ⟨fun asked _ => asked, fun asked => asked latest⟩
  · rename_i none
    refine iff_of_true late fun known => ?_
    rw [Instant.of?_eq_none_iff] at none
    unfold Instant.earliest at none
    omega

/-- A timestamp behind the last instant stands for everything. -/
theorem ofUnix_of_latest_lt {timestamp : Int} (beyond : Instant.latest < timestamp) :
    ofUnix timestamp = .everything := by
  have none : Instant.of? timestamp 0 = none := by
    rw [Instant.of?_eq_none_iff]
    omega
  rw [ofUnix, none]

/-! ## What covers what -/

/-- Pages of a store that was new at first can be read. -/
theorem readable_carryOut (run : List Act) (topic : String) (since : Since) (scheduled : Bool) :
    ∃ page, messages topic since scheduled (carryOut fresh run) = .ok page := by
  rw [carryOut_fresh, messages_db]
  exact ⟨_, rfl⟩

/-- Where no message has a negative time, a longer look-back shows all that a shorter one shows, if
neither text is an ID in the topic.  Where the store was new at first, both pages can be read. -/
theorem longer_lookBack_covers :
    (∀ run topic since scheduled, ∃ page,
      messages topic since scheduled (carryOut fresh run) = .ok page) ∧
    ∀ db, Reachable db → (∀ row ∈ messageRows db, 0 ≤ timeOf row) →
      ∀ topic scheduled now (shorter longer : String) count seconds greater unit,
        LookBackText shorter.toList count seconds → LookBackText longer.toList greater unit →
        count * seconds ≤ greater * unit → Absent db topic shorter → Absent db topic longer →
          Covers db topic scheduled (parse now longer) (parse now shorter) := by
  constructor
  · exact readable_carryOut
  · intro db reachable nonneg topic scheduled now shorter longer count seconds greater unit short
      long longest absentShort absentLong
    obtain ⟨table, current⟩ := reachable.exists_current
    refine current.covers_iff.mpr fun row shown => ?_
    obtain ⟨member, asked⟩ := current.mem_of_mem_shownRows shown
    rw [askedFor_lookBack short absentShort (nonneg row member)] at asked
    rw [askedFor_lookBack long absentLong (nonneg row member)]
    omega

/-- What a store holds once a message has been added. -/
theorem single_added (now : Instant) (message : Message) (event : message.event = .message) :
    let db := carryOut fresh [(now, .add message)]
    Reachable db ∧ messageRows db = [⟨1, newRow message (message.isDue now.seconds)⟩] := by
  intro db
  refine ⟨Reachable.fresh.carryOut _, ?_⟩
  have entries : (ofRun [(now, .add message)]).entries =
      [⟨1, message, message.isDue now.seconds⟩] := by
    have added : Holdings.empty.added? (now, .add message) =
        some ⟨1, message, message.isDue now.seconds⟩ :=
      if_pos ⟨event, by decide⟩
    change [].filterMap _ ++ (Holdings.empty.added? (now, .add message)).toList = _
    rw [added]
    rfl
  change messageRows (carryOut fresh _) = _
  rw [carryOut_fresh, Holdings.messageRows_db, entries]
  rfl

/-- What was delivered in the last ten seconds is shown for any longer look-back, also for one whose
count is so great that it is taken for an ID. -/
theorem longer_lookBack_covers_great_count :
    let now : Instant := ⟨1700000000, 0, by decide, by decide, by decide⟩
    let message : Message := .plain "t" "a" 1699999990 ""
    let db := carryOut fresh [(now, .add message)]
    Reachable db ∧ (∀ row ∈ messageRows db, 0 ≤ timeOf row) ∧
      LookBackText "10s".toList 10 1 ∧
      LookBackText "99999999999999999999d".toList 99999999999999999999 86400 ∧
      Absent db "t" "10s" ∧ Absent db "t" "99999999999999999999d" ∧
      messages "t" (parse now "10s") false db = .ok [message] ∧
      ∃ page, messages "t" (parse now "99999999999999999999d") false db = .ok page ∧
        message ∈ page := by
  intro now message db
  let run : List Act := [(now, .add message)]
  obtain ⟨reachable, rows⟩ := single_added now message rfl
  have nonneg : ∀ row ∈ messageRows db, 0 ≤ timeOf row := by
    rw [rows]
    decide
  have ten : Text.DecimalText ['1', '0'] 10 := .padded 0 10
  have great : Text.DecimalText (List.replicate 20 '9') 99999999999999999999 :=
    .padded 0 99999999999999999999
  have short : LookBackText "10s".toList 10 1 := .counted ten .seconds
  have long : LookBackText "99999999999999999999d".toList 99999999999999999999 86400 :=
    .counted great .days
  have absentShort : Absent db "t" "10s" := by
    rw [Absent, rows]
    decide
  have absentLong : Absent db "t" "99999999999999999999d" := by
    rw [Absent, rows]
    decide
  have marker : parse now "10s" = .time ⟨1699999990, 0, by decide, by decide, by decide⟩ := by
    decide
  have shortPage : messages "t" (parse now "10s") false db = .ok [message] := by
    rw [marker]
    exact (@shown_of_ordered _ _ _ run [⟨1, message, true⟩] (by decide)
      (List.pairwise_singleton _ _)).2
  obtain ⟨readable, covers⟩ := longer_lookBack_covers
  obtain ⟨page, read⟩ := readable run "t" (parse now "99999999999999999999d") false
  obtain ⟨part, partRead, among⟩ := (covers db reachable nonneg "t" false now _ _ _ _ _ _ short long
    (by decide) absentShort absentLong).pages page read
  rw [shortPage] at partRead
  cases partRead
  exact ⟨reachable, nonneg, short, long, absentShort, absentLong, shortPage, page, read,
    among.subset List.mem_cons_self⟩

/-- Where no message has a negative time, an earlier timestamp shows all that a later one shows,
unless only the later one lies behind the last instant: that one stands for everything, so that
then the earlier one shows it all only where there is nothing before it. -/
theorem earlier_timestamp_covers_iff {db : Database} (reachable : Reachable db)
    (nonneg : ∀ row ∈ messageRows db, 0 ≤ timeOf row) (topic : String) (scheduled : Bool)
    {earlier later : Int} (ordered : earlier ≤ later) :
    Covers db topic scheduled (ofUnix earlier) (ofUnix later) ↔
      (Instant.latest < later → earlier ≤ Instant.latest →
        ∀ row ∈ shownRows topic .everything scheduled db, earlier ≤ timeOf row) := by
  obtain ⟨table, current⟩ := reachable.exists_current
  rw [current.covers_iff]
  constructor
  · intro covers beyond known row shown
    rw [← ofUnix_of_latest_lt beyond] at shown
    have late := nonneg row (current.mem_of_mem_shownRows shown).1
    exact (askedFor_ofUnix late).mp (covers row shown) known
  · intro nothingBefore row shown
    obtain ⟨member, asked⟩ := current.mem_of_mem_shownRows shown
    rw [askedFor_ofUnix (nonneg row member)] at asked ⊢
    intro known
    by_cases beyond : Instant.latest < later
    · rw [ofUnix_of_latest_lt beyond] at shown
      exact nothingBefore beyond known row shown
    · exact Int.le_trans ordered (asked (Int.not_lt.mp beyond))

/-- The message in a store is shown for a timestamp behind the last instant, and for an earlier one
only if that does not lie behind the message. -/
theorem earlier_timestamp_covers_iff_beyond_last :
    let now : Instant := ⟨1700000000, 0, by decide, by decide, by decide⟩
    let message : Message := .plain "t" "a" 1699999990 ""
    let db := carryOut fresh [(now, .add message)]
    Reachable db ∧ (∀ row ∈ messageRows db, 0 ≤ timeOf row) ∧
      Covers db "t" false (ofUnix 1699999990) (ofUnix 8210266876800) ∧
      ¬ Covers db "t" false (ofUnix 1699999991) (ofUnix 8210266876800) := by
  intro now message db
  obtain ⟨reachable, rows⟩ := single_added now message rfl
  have shown : shownRows "t" .everything false db = [⟨1, newRow message true⟩] :=
    (@shown_of_ordered _ _ _ [(now, .add message)] [⟨1, message, true⟩] (by decide)
      (List.pairwise_singleton _ _)).1
  have nonneg : ∀ row ∈ messageRows db, 0 ≤ timeOf row := by
    rw [rows]
    decide
  have covers (earlier : Int) (ordered : earlier ≤ 8210266876800) :=
    @earlier_timestamp_covers_iff db reachable nonneg "t" false _ _ ordered
  simp only [shown] at covers
  refine ⟨reachable, nonneg, ?_, ?_⟩
  · exact (covers 1699999990 (by decide)).mpr fun _ _ => by decide
  · intro covered
    have after := (covers 1699999991 (by decide)).mp covered (by decide) (by decide)
    exact absurd after (by decide)

/-- A timestamp behind the last instant shows a message that an earlier timestamp does not show. -/
theorem later_timestamp_shows_more :
    let now : Instant := ⟨1700000000, 0, by decide, by decide, by decide⟩
    let message : Message := .plain "t" "a" 1699999990 ""
    let db := carryOut fresh [(now, .add message)]
    Reachable db ∧ (∀ row ∈ messageRows db, 0 ≤ timeOf row) ∧
      (1700000000 : Int) ≤ 8210266876800 ∧ (8210266876800 : Int) ≤ Int64.maxValue.toInt ∧
      messages "t" (ofUnix 1700000000) false db = .ok [] ∧
      messages "t" (ofUnix 8210266876800) false db = .ok [message] := by
  intro now message db
  obtain ⟨reachable, rows⟩ := single_added now message rfl
  refine ⟨reachable, ?_, by decide, by decide, ?_, ?_⟩
  · rw [rows]
    decide
  · exact (@shown_of_ordered _ _ _ [(now, .add message)] [] (by decide) .nil).2
  · exact (@shown_of_ordered _ _ _ [(now, .add message)] [⟨1, message, true⟩] (by decide)
      (List.pairwise_singleton _ _)).2

end MessageStore.Store
