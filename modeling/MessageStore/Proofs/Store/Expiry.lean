import MessageStore.Proofs.Store.Attachments
import MessageStore.Proofs.Store.Round

/-!
# Attachments that have expired

An update does not touch the attachment in a row, and time does not go back.  So
a row whose attachment has expired is listed by the reaper for as long as it is
there, and no owner is charged for it any more.  Only a prune ends this: clearing
the attachment of a message by an update does not.
-/

namespace MessageStore

namespace Attachment

variable {attachment : Attachment} {now later : Instant}

/-- What has expired has expired at every later time. -/
theorem Lapsed.onward (lapsed : attachment.Lapsed now) (passed : now.seconds ≤ later.seconds) :
    attachment.Lapsed later :=
  ⟨lapsed.1, Int.lt_of_lt_of_le lapsed.2 passed⟩

/-- Nobody is charged for what has expired. -/
theorem Lapsed.not_charged (lapsed : attachment.Lapsed now) (owner : String) :
    ¬ attachment.Charged owner now :=
  fun charged => absurd lapsed.2 (Int.not_lt.mpr charged.2)

end Attachment

namespace Store

open Holdings
open Relational (Database Row)

/-! ## Rows that stay -/

section Staying

variable {run acts : List Act} {entry : Entry} {position : Int64}

/-- A position that is free again stays free. -/
theorem absent_of_absent (present : position ∈ positions (carryOut fresh run))
    (absent : position ∉ positions (carryOut fresh (run ++ acts))) (rest : List Act) :
    position ∉ positions (carryOut fresh (run ++ acts ++ rest)) := by
  have bound := toInt_le_largest present
  have grown : (ofRun run).largest ≤ (ofRun (run ++ acts)).largest := largest_le_append
  intro returned
  obtain ⟨other, member, rfl⟩ := mem_positions_iff.mp returned
  rw [ofRun_append] at member
  rcases old_or_behind member with ⟨old, oldMember, stays⟩ | behind
  · exact absent (mem_positions_iff.mpr ⟨old, oldMember, (Entry.position_after stays).symm⟩)
  · omega

/-- The row of an entry is there after a run unless the run prunes it. -/
theorem mem_positions_iff_unpruned (member : entry ∈ (ofRun run).entries) :
    entry.position ∈ positions (carryOut fresh (run ++ acts)) ↔
      ¬ PrunedWhilePublished run acts entry.position := by
  constructor
  · rintro present ⟨before, now, cutoff, rest, rfl, published, absent⟩
    obtain ⟨row, rowMember, same, -⟩ := published
    have there : entry.position ∈ positions (carryOut fresh (run ++ before)) :=
      List.mem_map.mpr ⟨row, rowMember, same⟩
    refine absent_of_absent there absent rest ?_
    rwa [List.append_assoc, List.singleton_append, List.append_assoc]
  · intro unpruned
    cases left : entry.after acts with
    | none => exact absurd (pruned_of_gone member left) unpruned
    | some last =>
        exact mem_positions_iff.mpr ⟨last, mem_of_after member left, Entry.position_after left⟩

/-- A run leaves the ID and the attachment in a row as they are. -/
theorem kept_of_position {row left : Row} (present : row ∈ messageRows (carryOut fresh run))
    (leftPresent : left ∈ messageRows (carryOut fresh (run ++ acts)))
    (same : left.position = row.position) :
    textOf "mid" left = textOf "mid" row ∧ attachmentOf left = attachmentOf row := by
  obtain ⟨entry, member, rfl⟩ := mem_messageRows_iff.mp present
  obtain ⟨last, lastMember, rfl⟩ := mem_messageRows_iff.mp leftPresent
  have stays : entry.after acts = some last := after_of_position member lastMember same
  obtain ⟨-, message, -⟩ := Entry.after_eq_some empty stays
  have id : last.message.id = entry.message.id := by
    rw [message]
    rfl
  have attachment : last.message.attachment = entry.message.attachment := by
    rw [message]
    rfl
  exact ⟨id, by rw [attachmentOf_row, attachmentOf_row, attachment]⟩

end Staying

/-! ## Rows that have expired -/

/-- What the queries about attachments answer at a time: the reaper lists the rows that have
expired, once each, a quota adds up the rows that are charged, and no row is both. -/
structure Accounted (now : Instant) (db : Database) : Prop where
  listed : attachmentsExpired now db = .ok ((lapsedRows now db).map (textOf "mid"))
  once : ((lapsedRows now db).map (·.position)).Nodup
  counted : ∀ owner, attachmentsSize owner now db =
    quota ((chargedRows owner now db).map (integerOf "attachment_size"))
  apart : ∀ row ∈ lapsedRows now db, ∀ owner, row ∉ chargedRows owner now db

theorem not_mem_chargedRows {now : Instant} {db : Database} {row : Row}
    (lapsed : row ∈ lapsedRows now db) (owner : String) : row ∉ chargedRows owner now db := by
  intro charged
  have expired : (attachmentOf row).Lapsed now := of_decide_eq_true (List.mem_filter.mp lapsed).2
  exact expired.not_charged owner (of_decide_eq_true (List.mem_filter.mp charged).2)

theorem Reachable.accounted {db : Database} (reachable : Reachable db) (now : Instant) :
    Accounted now db := by
  obtain ⟨table, current⟩ := reachable.exists_current
  refine ⟨current.attachmentsExpired_eq now, ?_,
    fun owner => current.attachmentsSize_eq_quota owner now,
    fun row lapsed owner => not_mem_chargedRows lapsed owner⟩
  have ordered : (lapsedRows now db).Pairwise fun first second =>
      first.position < second.position :=
    current.messageRows_ordered.sublist List.filter_sublist
  refine List.pairwise_map.mpr (ordered.imp fun less same => ?_)
  rw [same] at less
  exact Int64.lt_irrefl less

/-- In every run, at every time: the reaper lists the rows whose attachments have expired, and
quotas count none of them.  A row that is listed at one time is listed at every later one, whatever
is done with the store in between, until it is pruned. -/
theorem lapsed_until_pruned (run acts : List Act) {now later : Instant}
    (passed : now.seconds ≤ later.seconds) :
    Accounted now (carryOut fresh run) ∧ Accounted later (carryOut fresh (run ++ acts)) ∧
    ∀ row ∈ lapsedRows now (carryOut fresh run),
      (row.position ∈ positions (carryOut fresh (run ++ acts)) ↔
        ¬ PrunedWhilePublished run acts row.position) ∧
      ∀ left ∈ messageRows (carryOut fresh (run ++ acts)), left.position = row.position →
        textOf "mid" left = textOf "mid" row ∧
          left ∈ lapsedRows later (carryOut fresh (run ++ acts)) ∧
          ∀ owner, left ∉ chargedRows owner later (carryOut fresh (run ++ acts)) := by
  refine ⟨(Reachable.fresh.carryOut run).accounted now,
    (Reachable.fresh.carryOut (run ++ acts)).accounted later, fun row listed => ?_⟩
  obtain ⟨present, lapsed⟩ := List.mem_filter.mp listed
  constructor
  · obtain ⟨entry, member, rfl⟩ := mem_messageRows_iff.mp present
    exact mem_positions_iff_unpruned member
  · intro left leftPresent same
    have expired : (attachmentOf row).Lapsed now := of_decide_eq_true lapsed
    obtain ⟨id, attachment⟩ := kept_of_position present leftPresent same
    have still : left ∈ lapsedRows later (carryOut fresh (run ++ acts)) := by
      refine List.mem_filter.mpr ⟨leftPresent, decide_eq_true ?_⟩
      rw [attachment]
      exact expired.onward passed
    exact ⟨id, still, not_mem_chargedRows still⟩

/-- An update that clears the attachment of a message changes what the row is read back as, and
leaves it with the reaper. -/
theorem lapsed_until_pruned_past_clearing :
    let early : Instant := ⟨5, 0, by decide, by decide, by decide⟩
    let late : Instant := ⟨20, 0, by decide, by decide, by decide⟩
    let attached : Message :=
      { Message.plain "t" "a" 1 "" with attachment := some ⟨"f", "", 7, 3, "u", "o"⟩ }
    let run : List Act := [(early, .add attached)]
    let cleared := carryOut fresh (run ++ [(late, .update (Message.plain "t" "a" 1 "new"))])
    ∃ row left, row ∈ lapsedRows early (carryOut fresh run) ∧ textOf "mid" row = "a" ∧
      left ∈ messageRows cleared ∧ left.position = row.position ∧ textOf "title" left = "new" ∧
      left ∈ lapsedRows late cleared ∧ left ∉ chargedRows "o" late cleared ∧
      PrunedWhilePublished run [(late, .prune late)] row.position := by
  intro early late attached run cleared
  let row : Row := (⟨1, attached, true⟩ : Entry).row
  let left : Row := (⟨1, { attached with title := "new" }, true⟩ : Entry).row
  have listed : row ∈ lapsedRows early (carryOut fresh run) := by
    rw [lapsedRows, carryOut_fresh, messageRows_db]
    decide
  have present : left ∈ messageRows cleared := by
    simp only [cleared]
    rw [carryOut_fresh, messageRows_db]
    decide
  have passed : early.seconds ≤ late.seconds := by decide
  obtain ⟨-, -, kept⟩ := lapsed_until_pruned run
    [(late, .update (Message.plain "t" "a" 1 "new"))] passed
  obtain ⟨-, still, spared⟩ := (kept row listed).2 left present rfl
  obtain ⟨-, -, stays⟩ := lapsed_until_pruned run [(late, .prune late)] passed
  have gone : row.position ∉ positions (carryOut fresh (run ++ [(late, .prune late)])) := by
    rw [carryOut_fresh, positions_db]
    decide
  exact ⟨row, left, listed, rfl, present, rfl, rfl, still, spared "o",
    Classical.not_not.mp fun unpruned => gone ((stays row listed).1.mpr unpruned)⟩

end Store

end MessageStore
