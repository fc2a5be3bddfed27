import MessageStore.Proofs.Relational.Totals
import MessageStore.Proofs.Store.Cells

/-!
# The attachments of a store

What the rows of a store hold as attachments, which of them are read back as part
of a message, and what the two queries about attachments ask: the quota of an
owner adds up the sizes of those that expire now or later, and the reaper lists
the rows of those that have expired.
-/

namespace MessageStore

namespace Attachment

/-- An attachment of an owner that expires now or later. -/
def Charged (owner : String) (now : Instant) (attachment : Attachment) : Prop :=
  attachment.owner = owner ∧ now.seconds ≤ attachment.expires.toInt

/-- An attachment of an owner that never expires. -/
def Endless (owner : String) (attachment : Attachment) : Prop :=
  attachment.owner = owner ∧ attachment.expires = 0

/-- An attachment of an owner that has not expired. -/
def Unexpired (owner : String) (now : Instant) (attachment : Attachment) : Prop :=
  attachment.owner = owner ∧
    (attachment.expires = 0 ∨ now.seconds ≤ attachment.expires.toInt)

/-- An attachment that has expired. -/
def Lapsed (now : Instant) (attachment : Attachment) : Prop :=
  0 < attachment.expires.toInt ∧ attachment.expires.toInt < now.seconds

instance (owner : String) (now : Instant) (attachment : Attachment) :
    Decidable (attachment.Charged owner now) :=
  inferInstanceAs (Decidable (_ ∧ _))

instance (owner : String) (attachment : Attachment) : Decidable (attachment.Endless owner) :=
  inferInstanceAs (Decidable (_ ∧ _))

instance (owner : String) (now : Instant) (attachment : Attachment) :
    Decidable (attachment.Unexpired owner now) :=
  inferInstanceAs (Decidable (_ ∧ _))

instance (now : Instant) (attachment : Attachment) : Decidable (attachment.Lapsed now) :=
  inferInstanceAs (Decidable (_ ∧ _))

end Attachment

namespace Store

open Holdings (carryOut_fresh messageRows_db ofRun)
open Relational (Cell Condition Database Query Row Table Total)
open Schema (layoutColumns messageTable)

/-! ## Sizes -/

/-- The sizes of attachments, added up. -/
def sizes (attachments : List Attachment) : Int :=
  Total.addedUp (attachments.map (·.size))

/-- The size of the attachments that an owner is charged for. -/
def charge (owner : String) (now : Instant) (attachments : List Attachment) : Int :=
  sizes (attachments.filter (·.Charged owner now))

section Sizes

variable {attachments others : List Attachment}

theorem sizes_cons (attachment : Attachment) (attachments : List Attachment) :
    sizes (attachment :: attachments) = attachment.size.toInt + sizes attachments :=
  Total.addedUp_cons _ _

theorem sizes_append (attachments others : List Attachment) :
    sizes (attachments ++ others) = sizes attachments + sizes others := by
  rw [sizes, List.map_append, Total.addedUp_append]
  rfl

theorem sizes_perm (same : attachments.Perm others) : sizes attachments = sizes others :=
  Total.addedUp_perm (same.map _)

theorem sizes_nonneg (nonneg : ∀ attachment ∈ attachments, 0 ≤ attachment.size.toInt) :
    0 ≤ sizes attachments := by
  refine Total.addedUp_nonneg fun size member => ?_
  obtain ⟨attachment, attachmentMember, rfl⟩ := List.mem_map.mp member
  exact nonneg attachment attachmentMember

/-- Sizes that are not negative add up to nothing only where all of them are nothing. -/
theorem sizes_eq_zero_iff (nonneg : ∀ attachment ∈ attachments, 0 ≤ attachment.size.toInt) :
    sizes attachments = 0 ↔ ∀ attachment ∈ attachments, attachment.size = 0 := by
  induction attachments with
  | nil => exact ⟨fun _ _ member => (nomatch member), fun _ => rfl⟩
  | cons first rest ih =>
      obtain ⟨firstNonneg, restNonneg⟩ := List.forall_mem_cons.mp nonneg
      have restSum := sizes_nonneg restNonneg
      have firstZero : first.size = 0 ↔ first.size.toInt = 0 := by
        rw [← Int64.toInt_inj, Int64.toInt_zero]
      rw [sizes_cons, List.forall_mem_cons, ← ih restNonneg, firstZero]
      omega

/-- Attachments of one kind or of another one are those of the first and those of the second, where
none is of both. -/
theorem sizes_filter_or {first second either : Attachment → Prop} [DecidablePred first]
    [DecidablePred second] [DecidablePred either]
    (cases : ∀ attachment ∈ attachments, either attachment ↔ first attachment ∨ second attachment)
    (apart : ∀ attachment ∈ attachments, first attachment → ¬ second attachment) :
    sizes (attachments.filter (either ·)) =
      sizes (attachments.filter (first ·)) + sizes (attachments.filter (second ·)) := by
  induction attachments with
  | nil => rfl
  | cons attachment rest ih =>
      obtain ⟨case, restCases⟩ := List.forall_mem_cons.mp cases
      obtain ⟨not, restApart⟩ := List.forall_mem_cons.mp apart
      have sum := ih restCases restApart
      by_cases isFirst : first attachment
      · have isNot := not isFirst
        simp only [List.filter_cons, case, isFirst, isNot, or_false, decide_true, decide_false,
          if_true, Bool.false_eq_true, if_false, sizes_cons, sum]
        omega
      · by_cases isSecond : second attachment
        · simp only [List.filter_cons, case, isFirst, isSecond, or_true, decide_true, decide_false,
            if_true, Bool.false_eq_true, if_false, sizes_cons, sum]
          omega
        · simp only [List.filter_cons, case, isFirst, isSecond, or_false, decide_false,
            Bool.false_eq_true, if_false, sum]

end Sizes

/-! ## The queries -/

/-- What the rows of a store hold as attachments. -/
def heldAttachments (db : Database) : List Attachment :=
  (messageRows db).map attachmentOf

/-- The attachment that is read back from a row: that of the message that the row says. -/
def readBack? (row : Row) : Option Attachment :=
  match content row with
  | .ok shown => shown.attachment
  | .error _ => none

/-- The attachments that the messages of a store carry as they are read back. -/
def shownAttachments (db : Database) : List Attachment :=
  (messageRows db).filterMap readBack?

/-- What rows hold as attachments from which no attachment is read back. -/
def hiddenAttachments (db : Database) : List Attachment :=
  ((messageRows db).filter fun row => readBack? row = none).map attachmentOf

/-- The rows whose attachments an owner is charged for. -/
def chargedRows (owner : String) (now : Instant) (db : Database) : List Row :=
  (messageRows db).filter fun row => (attachmentOf row).Charged owner now

/-- The sum of sizes where it stays in range, and otherwise a fault. -/
def quota (sizes : List Int64) : Except Error Int64 :=
  if Total.StaysWithin sizes then .ok (Int64.ofInt (Total.addedUp sizes))
  else .error (.of (.engine .integerOverflow))

theorem quota_of_staysWithin {sizes : List Int64} (stays : Total.StaysWithin sizes) :
    quota sizes = .ok (Int64.ofInt (Total.addedUp sizes)) :=
  if_pos stays

theorem quota_of_not_staysWithin {sizes : List Int64} (leaves : ¬ Total.StaysWithin sizes) :
    quota sizes = .error (.of (.engine .integerOverflow)) :=
  if_neg leaves

/-- The rows whose attachments have expired. -/
def lapsedRows (now : Instant) (db : Database) : List Row :=
  (messageRows db).filter fun row => (attachmentOf row).Lapsed now

/-- A condition that holds of the rows whose attachments an owner is charged for. -/
def charging (owner : String) (now : Instant) : Condition :=
  .both (.compare "attachment_owner" .equal (.text owner))
    (.compare "attachment_expires" .atLeast (secondCell now.seconds))

/-- A condition that holds of the rows whose attachments have expired. -/
def lapsing (now : Instant) : Condition :=
  .both (.compare "attachment_expires" .greater (.integer 0))
    (.compare "attachment_expires" .less (secondCell now.seconds))

section Queries

variable {db : Database} {table : Table}

theorem Current.holds_charging (current : Current db table) {row : Row}
    (present : row ∈ table.rows) (owner : String) (now : Instant) :
    (charging owner now).holds table row = decide ((attachmentOf row).Charged owner now) := by
  have late := current.holds_integer present
    (by decide : Schema.integer "attachment_expires" ∈ layoutColumns 6) .atLeast
    (Int64.ofInt now.seconds)
  rw [toInt_second] at late
  rw [charging, Condition.holds, current.framed.holds_text (by decide), secondCell, late,
    current.lookup_text present (by decide), Bool.eq_iff_iff, decide_eq_true_eq]
  simp [Relational.Test.ofInts, Attachment.Charged, attachmentOf]

theorem Current.holds_lapsing (current : Current db table) {row : Row}
    (present : row ∈ table.rows) (now : Instant) :
    (lapsing now).holds table row = decide ((attachmentOf row).Lapsed now) := by
  have expires := current.holds_integer present
    (by decide : Schema.integer "attachment_expires" ∈ layoutColumns 6)
  have past := expires .less (Int64.ofInt now.seconds)
  rw [toInt_second] at past
  rw [lapsing, Condition.holds, expires .greater 0, secondCell, past, Bool.eq_iff_iff,
    decide_eq_true_eq]
  simp [Relational.Test.ofInts, Attachment.Lapsed, attachmentOf]

/-- What an owner is charged for is what the charged rows hold. -/
theorem map_chargedRows (owner : String) (now : Instant) (db : Database) :
    (chargedRows owner now db).map attachmentOf =
      (heldAttachments db).filter (·.Charged owner now) := by
  rw [chargedRows, heldAttachments, List.filter_map]
  rfl

/-- The quota adds up the sizes in the rows that an owner is charged for. -/
theorem Current.attachmentsSize_eq_quota (current : Current db table) (owner : String)
    (now : Instant) :
    attachmentsSize owner now db =
      quota ((chargedRows owner now db).map (integerOf "attachment_size")) := by
  let query : Query :=
    { table := messageTable
      columns := ["attachment_size"]
      condition := some (charging owner now) }
  have names : ∀ name ∈ query.names, ∃ column ∈ layoutColumns 6, column.name = name := by
    change ∀ name ∈ ["attachment_size", "attachment_owner", "attachment_expires"], _
    decide
  have rows : query.rows table = chargedRows owner now db := by
    rw [chargedRows, current.messageRows_eq]
    exact List.filter_congr fun row present => current.holds_charging present owner now
  have cells : ((query.rows table).map (Query.project table query.columns)).map
      (fun row => (cellAt row 0).2) =
        ((query.rows table).map (integerOf "attachment_size")).map Cell.integer := by
    rw [List.map_map, List.map_map]
    refine List.map_congr_left fun row member => ?_
    have present := mem_of_mem_rows member
    have shown := current.project_integer present
      (by decide : Schema.integer "attachment_size" ∈ layoutColumns 6)
    exact congrArg (fun row => (cellAt row 0).2) shown
  have ran : query.run db = _ := current.run_eq rfl names
  change (ofEngine (query.run db) >>= fun rows => _) = _
  rw [ran]
  change (ofEngine (Total.ofCells (((query.rows table).map (Query.project table query.columns)).map
    fun row => (cellAt row 0).2)) >>= fun total => _) = _
  rw [cells, Total.ofCells_integers, rows, quota]
  split <;> rfl

/-- The quota counts the sizes of the attachments that an owner is charged for, if their sum is in
range. -/
theorem Current.attachmentsSize_eq (current : Current db table) {owner : String} {now : Instant}
    (nonneg : ∀ attachment ∈ heldAttachments db, 0 ≤ attachment.size.toInt) :
    attachmentsSize owner now db =
      let sum := charge owner now (heldAttachments db)
      if sum ≤ Int64.maxValue.toInt then .ok (Int64.ofInt sum)
      else .error (.of (.engine .integerOverflow)) := by
  let charged := (heldAttachments db).filter (·.Charged owner now)
  have listed : (chargedRows owner now db).map (integerOf "attachment_size") =
      charged.map (·.size) := by
    have sizes := congrArg (List.map (·.size)) (map_chargedRows owner now db)
    rw [List.map_map] at sizes
    exact sizes
  have chargedNonneg : ∀ size ∈ charged.map (·.size), 0 ≤ size.toInt := by
    intro size member
    obtain ⟨attachment, attachmentMember, rfl⟩ := List.mem_map.mp member
    exact nonneg attachment (List.mem_filter.mp attachmentMember).1
  rw [current.attachmentsSize_eq_quota, listed, quota]
  simp only [Total.staysWithin_iff_of_nonneg chargedNonneg]
  rfl

/-- The reaper lists the IDs of the rows whose attachments have expired. -/
theorem Current.attachmentsExpired_eq (current : Current db table) (now : Instant) :
    attachmentsExpired now db = .ok ((lapsedRows now db).map (textOf "mid")) := by
  let query : Query :=
    { table := messageTable
      columns := ["mid"]
      condition := some (lapsing now) }
  have names : ∀ name ∈ query.names, ∃ column ∈ layoutColumns 6, column.name = name := by
    change ∀ name ∈ ["mid", "attachment_expires", "attachment_expires"], _
    decide
  have rows : query.rows table = lapsedRows now db := by
    rw [lapsedRows, current.messageRows_eq]
    exact List.filter_congr fun row present => current.holds_lapsing present now
  have read : ∀ row ∈ query.rows table,
      textAt (Query.project table query.columns row) 0 = .ok (textOf "mid" row) := by
    intro row member
    have shown := current.project_text (mem_of_mem_rows member)
      (by decide : Schema.text "mid" ∈ layoutColumns 6)
    exact congrArg (textAt · 0) shown
  have ran : query.run db = _ := current.run_eq rfl names
  change (ofEngine (query.run db) >>= fun rows => rows.mapM fun row => textAt row 0) = _
  rw [ran]
  change ((query.rows table).map (Query.project table query.columns)).mapM (textAt · 0) = _
  rw [List.mapM_map, ← rows]
  exact (mapM_congr read).trans (mapM_of_ok (fun _ => rfl) _)

end Queries

/-- What the row of an entry holds as the attachment is that of its message. -/
@[simp]
theorem attachmentOf_row (entry : Entry) :
    attachmentOf entry.row = entry.message.attachment.getD .absent := by
  rfl

theorem heldAttachments_carryOut (run : List Act) :
    heldAttachments (carryOut fresh run) =
      (ofRun run).entries.map fun entry => entry.message.attachment.getD .absent := by
  rw [heldAttachments, carryOut_fresh, messageRows_db, List.map_map]
  exact List.map_congr_left fun entry _ => attachmentOf_row entry

theorem readBack?_row (entry : Entry) :
    readBack? entry.row = entry.message.attachment.filter Attachment.isUsable := by
  have read : content entry.row = .ok entry.message.stored :=
    content_newRow entry.message entry.position entry.published
  rw [readBack?, read]
  rfl

theorem shownAttachments_carryOut (run : List Act) :
    shownAttachments (carryOut fresh run) =
      (ofRun run).entries.filterMap fun entry =>
        entry.message.attachment.filter Attachment.isUsable := by
  rw [shownAttachments, carryOut_fresh, messageRows_db, List.filterMap_map]
  exact List.filterMap_congr fun entry _ => readBack?_row entry

theorem hiddenAttachments_carryOut (run : List Act) :
    hiddenAttachments (carryOut fresh run) =
      ((ofRun run).entries.filter fun entry =>
        entry.message.attachment.filter Attachment.isUsable = none).map fun entry =>
          entry.message.attachment.getD .absent := by
  rw [hiddenAttachments, carryOut_fresh, messageRows_db, List.filter_map, List.map_map]
  simp only [Function.comp_def, readBack?_row, attachmentOf_row]

theorem lapsedIds_carryOut (run : List Act) (now : Instant) :
    (lapsedRows now (carryOut fresh run)).map (textOf "mid") =
      ((ofRun run).entries.filter fun entry =>
        (entry.message.attachment.getD .absent).Lapsed now).map (·.message.id) := by
  rw [lapsedRows, carryOut_fresh, messageRows_db, List.filter_map, List.map_map]
  simp only [Function.comp_def, attachmentOf_row]
  rfl

theorem chargedSizes_carryOut (run : List Act) (owner : String) (now : Instant) :
    (chargedRows owner now (carryOut fresh run)).map (integerOf "attachment_size") =
      ((ofRun run).entries.filter fun entry =>
        (entry.message.attachment.getD .absent).Charged owner now).map fun entry =>
          (entry.message.attachment.getD .absent).size := by
  rw [chargedRows, carryOut_fresh, messageRows_db, List.filter_map, List.map_map]
  simp only [Function.comp_def, attachmentOf_row]
  rfl

/-- What an owner is charged for is counted where it is in range. -/
theorem Current.exists_counted {db : Database} {table : Table} (current : Current db table)
    {owner : String} {now : Instant}
    (nonneg : ∀ attachment ∈ heldAttachments db, 0 ≤ attachment.size.toInt)
    (fits : charge owner now (heldAttachments db) ≤ Int64.maxValue.toInt) :
    ∃ counted, attachmentsSize owner now db = .ok counted ∧
      counted.toInt = charge owner now (heldAttachments db) := by
  have sum : 0 ≤ charge owner now (heldAttachments db) :=
    sizes_nonneg fun attachment member => nonneg attachment (List.mem_of_mem_filter member)
  refine ⟨_, (current.attachmentsSize_eq nonneg).trans (if_pos fits), ?_⟩
  rw [Int64.toInt_maxValue] at fits
  exact Int64.toInt_ofInt_of_le (by omega) (by omega)

end Store

end MessageStore
