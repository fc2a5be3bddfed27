import MessageStore.Proofs.Store.Attachments

/-!
# Attachments that are accounted for

Neither the quota nor the reaper asks whether an attachment never expires, or
whether it is shown.  So the quota leaves out what is kept for ever, and both are
about attachments that no message shows.
-/

namespace MessageStore.Store

open Relational (Database Row Table)

/-! ## What never expires -/

/-- In every store that can be reached, and at every time after the epoch, an owner's quota and the
reaper together leave out the attachments that never expire: what the quota counts and the size of
these is the size of all that has not expired, and what is missing to the size of all attachments
of the owner is what has expired.  So the quota counts all that has not expired only where nothing
that never expires has a size. -/
theorem endless_uncounted {db : Database} (reachable : Reachable db) {now : Instant}
    (late : 0 < now.seconds)
    (nonneg : ∀ attachment ∈ heldAttachments db,
      0 ≤ attachment.size.toInt ∧ 0 ≤ attachment.expires.toInt) (owner : String)
    (fits : sizes ((heldAttachments db).filter (·.Unexpired owner now)) ≤ Int64.maxValue.toInt) :
    attachmentsExpired now db = .ok ((lapsedRows now db).map (textOf "mid")) ∧
    ∃ counted, attachmentsSize owner now db = .ok counted ∧
      sizes ((heldAttachments db).filter (·.Unexpired owner now)) =
        counted.toInt + sizes ((heldAttachments db).filter (·.Endless owner)) ∧
      sizes ((heldAttachments db).filter (·.owner = owner)) =
        sizes ((heldAttachments db).filter (·.Unexpired owner now)) +
          sizes ((heldAttachments db).filter fun attachment =>
            attachment.owner = owner ∧ attachment.Lapsed now) ∧
      (counted.toInt = sizes ((heldAttachments db).filter (·.Unexpired owner now)) ↔
        ∀ attachment ∈ heldAttachments db, attachment.Endless owner → attachment.size = 0) := by
  obtain ⟨table, current⟩ := reachable.exists_current
  have zero (attachment : Attachment) : attachment.expires = 0 ↔ attachment.expires.toInt = 0 := by
    rw [← Int64.toInt_inj, Int64.toInt_zero]
  have sizesNonneg := fun attachment member => (nonneg attachment member).1
  have endlessNonneg : ∀ attachment ∈ (heldAttachments db).filter (·.Endless owner),
      0 ≤ attachment.size.toInt :=
    fun attachment member => sizesNonneg attachment (List.mem_of_mem_filter member)
  have unexpired : sizes ((heldAttachments db).filter (·.Unexpired owner now)) =
      charge owner now (heldAttachments db) +
        sizes ((heldAttachments db).filter (·.Endless owner)) := by
    refine sizes_filter_or (fun attachment _ => ?_) (fun attachment _ => ?_)
    · simp only [Attachment.Unexpired, Attachment.Charged, Attachment.Endless]
      grind
    · simp only [Attachment.Charged, Attachment.Endless, zero]
      grind
  have owned : sizes ((heldAttachments db).filter (·.owner = owner)) =
      sizes ((heldAttachments db).filter (·.Unexpired owner now)) +
        sizes ((heldAttachments db).filter fun attachment =>
          attachment.owner = owner ∧ attachment.Lapsed now) := by
    refine sizes_filter_or (fun attachment member => ?_) (fun attachment member => ?_)
    all_goals
      have expires := (nonneg attachment member).2
      simp only [Attachment.Unexpired, Attachment.Lapsed, zero]
      grind
  have endless := sizes_nonneg endlessNonneg
  have fitting : charge owner now (heldAttachments db) ≤ Int64.maxValue.toInt := by omega
  obtain ⟨counted, count, same⟩ := current.exists_counted sizesNonneg fitting
  refine ⟨current.attachmentsExpired_eq now, counted, count, same ▸ unexpired, owned, ?_⟩
  have none : sizes ((heldAttachments db).filter (·.Endless owner)) = 0 ↔
      ∀ attachment ∈ heldAttachments db, attachment.Endless owner → attachment.size = 0 := by
    rw [sizes_eq_zero_iff endlessNonneg]
    simp only [List.mem_filter, decide_eq_true_eq, and_imp]
  rw [← none]
  omega

/-- Of an attachment that never expires and one that has not yet, the second is counted only. -/
theorem endless_uncounted_beside_another :
    let clock : Instant := ⟨1700000000, 0, by decide, by decide, by decide⟩
    let endless : Attachment := ⟨"a.png", "", 5, 0, "u", "o"⟩
    let lasting : Attachment := ⟨"b.png", "", 7, 1700000000, "u", "o"⟩
    let db := carryOut fresh
      [(clock, .add { Message.plain "t" "a" 1 "" with attachment := some endless }),
        (clock, .add { Message.plain "t" "b" 1 "" with attachment := some lasting })]
    Reachable db ∧ 0 < clock.seconds ∧ heldAttachments db = [endless, lasting] ∧
      ∃ counted, attachmentsSize "o" clock db = .ok counted ∧ 12 = counted.toInt + 5 := by
  intro clock endless lasting db
  have reachable : Reachable db := Reachable.fresh.carryOut _
  have held : heldAttachments db = [endless, lasting] :=
    (heldAttachments_carryOut _).trans (by decide)
  obtain ⟨-, counted, count, sum, -⟩ := endless_uncounted reachable
    (by decide : 0 < clock.seconds) (by rw [held]; decide) "o" (by rw [held]; decide)
  rw [held] at sum
  exact ⟨reachable, by decide, held, counted, count, sum⟩

/-- The one attachment of an owner never expires, has a name and a URL, and a size; and the quota
counts nothing. -/
theorem endless_counts_nothing :
    let clock : Instant := ⟨1700000000, 0, by decide, by decide, by decide⟩
    let endless : Attachment := ⟨"a.png", "", 5, 0, "u", "o"⟩
    let db := carryOut fresh
      [(clock, .add { Message.plain "t" "a" 1 "" with attachment := some endless })]
    Reachable db ∧ 0 < clock.seconds ∧ heldAttachments db = [endless] ∧ endless.isUsable = true ∧
      sizes ((heldAttachments db).filter (·.Unexpired "o" clock)) = 5 ∧
      attachmentsSize "o" clock db = .ok 0 := by
  intro clock endless db
  have reachable : Reachable db := Reachable.fresh.carryOut _
  have held : heldAttachments db = [endless] := heldAttachments_carryOut _
  obtain ⟨table, current⟩ := reachable.exists_current
  have counted : attachmentsSize "o" clock db = _ :=
    current.attachmentsSize_eq (by rw [held]; decide)
  rw [held] at counted
  refine ⟨reachable, by decide, held, by decide, ?_, counted⟩
  rw [held]
  decide

/-! ## What is not shown -/

/-- An attachment that is read back is what the row holds, and it has a name and a URL. -/
theorem Current.of_readBack? {db : Database} {table : Table} (current : Current db table)
    {row : Row} (present : row ∈ messageRows db) {attachment : Attachment}
    (read : readBack? row = some attachment) :
    attachment = attachmentOf row ∧ attachment.isUsable = true := by
  unfold readBack? at read
  cases said : content row with
  | error error =>
      rw [said] at read
      cases read
  | ok shown =>
      rw [said] at read
      obtain ⟨-, rfl⟩ := (current.content_eq_ok_iff present).mp said
      change (some (attachmentOf row)).filter Attachment.isUsable = some attachment at read
      obtain ⟨held, usable⟩ := Option.filter_eq_some_iff.mp read
      obtain rfl := Option.some.inj held
      exact ⟨rfl, usable⟩

/-- What the rows of a store hold is read back from them, or hidden. -/
theorem Current.perm_heldAttachments {db : Database} {table : Table} (current : Current db table) :
    (heldAttachments db).Perm (shownAttachments db ++ hiddenAttachments db) := by
  unfold heldAttachments shownAttachments hiddenAttachments
  have read : ∀ row ∈ messageRows db, ∀ attachment, readBack? row = some attachment →
      attachment = attachmentOf row :=
    fun row present attachment back => (current.of_readBack? present back).1
  generalize messageRows db = rows at read
  induction rows with
  | nil => exact .nil
  | cons row rest ih =>
      obtain ⟨first, others⟩ := List.forall_mem_cons.mp read
      cases back : readBack? row with
      | none =>
          simp only [List.filterMap_cons, List.filter_cons, back, decide_true, if_true,
            List.map_cons]
          exact ((ih others).cons _).trans List.perm_middle.symm
      | some attachment =>
          obtain rfl := first attachment back
          simp only [List.filterMap_cons, List.filter_cons, back, reduceCtorEq, decide_false,
            Bool.false_eq_true, if_false, List.map_cons, List.cons_append]
          exact (ih others).cons _

theorem Current.charge_eq {db : Database} {table : Table} (current : Current db table)
    (owner : String) (now : Instant) :
    charge owner now (heldAttachments db) =
      charge owner now (shownAttachments db) +
        charge owner now (hiddenAttachments db) := by
  unfold charge
  rw [sizes_perm (current.perm_heldAttachments.filter _), List.filter_append, sizes_append]

/-- A row whose attachment has expired shows it, or hides it. -/
theorem Current.mem_lapsedRows_iff {db : Database} {table : Table} (current : Current db table)
    {now : Instant} {row : Row} (present : row ∈ messageRows db) :
    row ∈ lapsedRows now db ↔
      (∃ attachment, readBack? row = some attachment ∧ attachment.Lapsed now) ∨
        readBack? row = none ∧ (attachmentOf row).Lapsed now := by
  rw [lapsedRows, List.mem_filter, decide_eq_true_eq, and_iff_right present]
  cases back : readBack? row with
  | none => simp
  | some attachment =>
      obtain ⟨rfl, -⟩ := current.of_readBack? present back
      simp

/-- In every store that can be reached, the quota of an owner is the size of the attachments that
are read back and the owner is charged for, and besides of what rows hold as such attachments from
which none is read back; and the reaper lists once each row whose attachment has expired, whether it
is read back or not.  Where rows hold nothing of the attachments that they do not show, both are
about those that are read back only. -/
theorem hidden_accounted_for {db : Database} (reachable : Reachable db)
    (nonneg : ∀ attachment ∈ heldAttachments db, 0 ≤ attachment.size.toInt) (now : Instant) :
    (∀ topic since scheduled,
      messages topic since scheduled db = (shownRows topic since scheduled db).mapM content) ∧
    (∀ owner, charge owner now (shownAttachments db) + charge owner now (hiddenAttachments db) ≤
        Int64.maxValue.toInt →
      ∃ counted, attachmentsSize owner now db = .ok counted ∧ counted.toInt =
        charge owner now (shownAttachments db) + charge owner now (hiddenAttachments db)) ∧
    attachmentsExpired now db = .ok ((lapsedRows now db).map (textOf "mid")) ∧
    (∀ row ∈ messageRows db, row ∈ lapsedRows now db ↔
      (∃ attachment, readBack? row = some attachment ∧ attachment.Lapsed now) ∨
        readBack? row = none ∧ (attachmentOf row).Lapsed now) ∧
    ((∀ attachment ∈ hiddenAttachments db, attachment = .absent) →
      (∀ owner, charge owner now (shownAttachments db) ≤ Int64.maxValue.toInt →
        ∃ counted, attachmentsSize owner now db = .ok counted ∧
          counted.toInt = charge owner now (shownAttachments db)) ∧
      lapsedRows now db =
        (messageRows db).filter fun row => (readBack? row).any fun attachment =>
          attachment.Lapsed now) := by
  obtain ⟨table, current⟩ := reachable.exists_current
  refine ⟨current.messages_eq, fun owner fits => ?_, current.attachmentsExpired_eq now,
    fun row => current.mem_lapsedRows_iff, fun blank => ⟨fun owner fits => ?_, ?_⟩⟩
  · have sum := current.charge_eq owner now
    obtain ⟨counted, count, same⟩ := current.exists_counted nonneg (sum ▸ fits)
    exact ⟨counted, count, same.trans sum⟩
  · have nothing : charge owner now (hiddenAttachments db) = 0 := by
      have zero : ∀ attachment ∈ (hiddenAttachments db).filter (·.Charged owner now),
          attachment.size = 0 := by
        intro attachment member
        rw [blank attachment (List.mem_of_mem_filter member)]
        rfl
      refine (sizes_eq_zero_iff fun attachment member => ?_).mpr zero
      rw [zero attachment member]
      decide
    have sum := current.charge_eq owner now
    rw [nothing, Int.add_zero] at sum
    obtain ⟨counted, count, same⟩ := current.exists_counted nonneg (sum ▸ fits)
    exact ⟨counted, count, same.trans sum⟩
  · refine List.filter_congr fun row present => ?_
    cases back : readBack? row with
    | none =>
        have hidden : attachmentOf row ∈ hiddenAttachments db :=
          List.mem_map_of_mem (List.mem_filter.mpr ⟨present, decide_eq_true back⟩)
        rw [blank _ hidden]
        exact decide_eq_false fun lapsed => absurd lapsed.1 (by decide)
    | some attachment =>
        obtain ⟨rfl, -⟩ := current.of_readBack? present back
        rfl

/-- An attachment without a name is not read back, but it is counted while it lasts, and listed
once it has expired; the other one is read back too. -/
theorem hidden_accounted_for_beside_another :
    let clock : Instant := ⟨1700000000, 0, by decide, by decide, by decide⟩
    let hidden : Attachment := ⟨"", "", 5, 1700000100, "u", "o"⟩
    let shown : Attachment := ⟨"b.png", "", 7, 1700000200, "u", "o"⟩
    let db := carryOut fresh
      [(clock, .add { Message.plain "t" "a" 1 "" with attachment := some hidden }),
        (clock, .add { Message.plain "t" "b" 1 "" with attachment := some shown })]
    Reachable db ∧ heldAttachments db = [hidden, shown] ∧ shownAttachments db = [shown] ∧
      hiddenAttachments db = [hidden] ∧
      ∃ counted, attachmentsSize "o" clock db = .ok counted ∧ counted.toInt = 7 + 5 := by
  intro clock hidden shown db
  let run : List Act :=
    [(clock, .add { Message.plain "t" "a" 1 "" with attachment := some hidden }),
      (clock, .add { Message.plain "t" "b" 1 "" with attachment := some shown })]
  have reachable : Reachable db := Reachable.fresh.carryOut run
  have held : heldAttachments db = [hidden, shown] :=
    (heldAttachments_carryOut run).trans (by decide)
  have read : shownAttachments db = [shown] := (shownAttachments_carryOut run).trans (by decide)
  have unread : hiddenAttachments db = [hidden] :=
    (hiddenAttachments_carryOut run).trans (by decide)
  obtain ⟨-, size, -⟩ := hidden_accounted_for reachable (by rw [held]; decide) clock
  have counted := size "o"
  rw [read, unread] at counted
  exact ⟨reachable, held, read, unread, counted (by decide)⟩

/-- The one message of a store is read back without an attachment; and the quota counts five bytes
of it, and the reaper lists it later. -/
theorem hidden_counts :
    let clock : Instant := ⟨1700000000, 0, by decide, by decide, by decide⟩
    let later : Instant := ⟨1700000200, 0, by decide, by decide, by decide⟩
    let hidden : Attachment := ⟨"", "", 5, 1700000100, "u", "o"⟩
    let db := carryOut fresh
      [(clock, .add { Message.plain "t" "a" 1 "" with attachment := some hidden })]
    Reachable db ∧ messages "t" .everything true db = .ok [.plain "t" "a" 1 ""] ∧
      shownAttachments db = [] ∧ attachmentsSize "o" clock db = .ok 5 ∧
      attachmentsExpired later db = .ok ["a"] := by
  intro clock later hidden db
  let run : List Act :=
    [(clock, .add { Message.plain "t" "a" 1 "" with attachment := some hidden })]
  have reachable : Reachable db := Reachable.fresh.carryOut run
  have held : heldAttachments db = [hidden] :=
    (heldAttachments_carryOut run).trans (by decide)
  obtain ⟨table, current⟩ := reachable.exists_current
  have counted : attachmentsSize "o" clock db = _ :=
    current.attachmentsSize_eq (by rw [held]; decide)
  rw [held] at counted
  have page : messages "t" .everything true db = _ :=
    (@shown_of_ordered "t" .everything true run
      [⟨1, { Message.plain "t" "a" 1 "" with attachment := some hidden }, true⟩]
      (by decide) (by simp)).2
  have expired : (lapsedRows later db).map (textOf "mid") = ["a"] :=
    (lapsedIds_carryOut run later).trans (by decide)
  exact ⟨reachable, page, (shownAttachments_carryOut run).trans (by decide), counted,
    expired ▸ current.attachmentsExpired_eq later⟩

end MessageStore.Store
