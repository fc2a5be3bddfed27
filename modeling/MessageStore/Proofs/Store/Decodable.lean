import MessageStore.Proofs.Outcome
import MessageStore.Proofs.Store.Queries

/-!
# Rows that can be read

A row is read cell by cell, in a fixed order, and the first cell that is not what
is read from its column is why the row cannot be read.  What is read of the
attachment beside its name and its URL is looked at only if neither is empty.
-/

namespace MessageStore.Store

open Current (named)
open Relational (Cell Row)

/-! ## Messages in rows -/

/-- What a row holds of an attachment, whether or not it is shown. -/
def attachmentOf (row : Row) : Attachment where
  name := textOf "attachment_name" row
  type := textOf "attachment_type" row
  size := integerOf "attachment_size" row
  expires := integerOf "attachment_expires" row
  url := textOf "attachment_url" row
  owner := textOf "attachment_owner" row

/-- The attachment of a row as it is shown. -/
def shownAttachment (row : Row) : Option Attachment :=
  (some (attachmentOf row)).filter Attachment.isUsable

/-- The message of a row. -/
def messageOf (row : Row) : Message where
  id := textOf "mid" row
  time := integerOf "time" row
  updated := integerOf "updated" row
  event := .message
  topic := textOf "topic" row
  body := textOf "message" row
  title := textOf "title" row
  priority := UInt8.ofNat (integerOf "priority" row).toInt.toNat
  tags := Tags.split (textOf "tags" row)
  click := textOf "click" row
  attachment := shownAttachment row
  encoding := textOf "encoding" row

/-- A row whose priority is one. -/
def HasPriority (row : Row) : Prop :=
  0 ≤ (integerOf "priority" row).toInt ∧ (integerOf "priority" row).toInt ≤ 255

instance (row : Row) : Decidable (HasPriority row) :=
  inferInstanceAs (Decidable (_ ∧ _))

/-! ## What is read from a column -/

/-- What is read from a cell. -/
inductive Form
  | text
  | integer
  | byte
  deriving DecidableEq

namespace Form

/-- The class of the cells that this is read from. -/
def kind : Form → Cell.Kind
  | text => .text
  | integer => .integer
  | byte => .integer

/-- A cell that this can be read from. -/
def Admits : Form → Cell → Prop
  | text, cell => cell.kind = .text
  | integer, cell => cell.kind = .integer
  | byte, cell => ∃ value, cell = .integer value ∧ 0 ≤ value.toInt ∧ value.toInt ≤ 255

/-- Why this cannot be read from a cell at a place of a result. -/
def fault? (form : Form) (place : Nat) (name : String) (cell : Cell) : Option Error :=
  match form, cell with
  | text, .text _ => none
  | integer, .integer _ => none
  | byte, .integer value =>
      if 0 ≤ value.toInt ∧ value.toInt ≤ 255 then none
      else some (.of (.cellRange place value.toInt))
  | _, cell => some (.of (.cellKind place name cell.kind))

variable {form : Form} {place : Nat} {name : String} {cell : Cell}

theorem fault?_eq_none_iff : form.fault? place name cell = none ↔ form.Admits cell := by
  cases form <;> cases cell <;> simp [fault?, Admits, Cell.kind]

theorem Admits.ne_null (admits : form.Admits cell) : cell ≠ .null := by
  rintro rfl
  cases form with
  | text => cases admits
  | integer => cases admits
  | byte =>
      obtain ⟨value, ⟨⟩, -⟩ := admits

/-- A cell of another class is a fault. -/
theorem fault?_of_kind_ne (other : cell.kind ≠ form.kind) :
    form.fault? place name cell = some (.of (.cellKind place name cell.kind)) := by
  cases form <;> cases cell <;> first | rfl | exact absurd rfl other

/-- A fault is that the cell has another class, or that the integer in it is out of range. -/
theorem of_fault?_eq_some {error : Error} (fault : form.fault? place name cell = some error) :
    cell.kind ≠ form.kind ∧ error = .of (.cellKind place name cell.kind) ∨
      form = byte ∧ ∃ value, cell = .integer value ∧ ¬ (0 ≤ value.toInt ∧ value.toInt ≤ 255) ∧
        error = .of (.cellRange place value.toInt) := by
  by_cases same : cell.kind = form.kind
  · refine .inr ?_
    cases form with
    | text =>
        cases cell with
        | text => cases fault
        | _ => cases same
    | integer =>
        cases cell with
        | integer => cases fault
        | _ => cases same
    | byte =>
        cases cell with
        | integer value =>
            by_cases fits : 0 ≤ value.toInt ∧ value.toInt ≤ 255
            · rw [fault?, if_pos fits] at fault
              cases fault
            · rw [fault?, if_neg fits] at fault
              exact ⟨rfl, value, rfl, fits, (Option.some.inj fault).symm⟩
        | _ => cases same
  · rw [fault?_of_kind_ne same] at fault
    exact .inl ⟨same, (Option.some.inj fault).symm⟩

end Form

/-- A column that is read: its place in results, its name, and what is read from it. -/
structure Part where
  place : Nat
  name : String
  form : Form
  deriving DecidableEq

/-- What is read of an attachment beside its name and its URL. -/
def attachmentParts : List Part :=
  [⟨10, "attachment_type", .text⟩, ⟨11, "attachment_size", .integer⟩,
    ⟨12, "attachment_expires", .integer⟩, ⟨14, "attachment_owner", .text⟩]

/-- What is read from a row, in this order, where there is an attachment or none. -/
def parts (attached : Bool) : List Part :=
  [⟨7, "tags", .text⟩, ⟨9, "attachment_name", .text⟩, ⟨13, "attachment_url", .text⟩] ++
    (if attached then attachmentParts else []) ++
    [⟨0, "mid", .text⟩, ⟨1, "time", .integer⟩, ⟨2, "updated", .integer⟩, ⟨3, "topic", .text⟩,
      ⟨4, "message", .text⟩, ⟨5, "title", .text⟩, ⟨6, "priority", .byte⟩, ⟨8, "click", .text⟩,
      ⟨15, "encoding", .text⟩]

/-- A column that is read is at its place in results. -/
theorem getElem?_of_mem_parts {attached : Bool} {part : Part} (member : part ∈ parts attached) :
    readColumns[part.place]? = some part.name := by
  revert part
  cases attached <;> decide

/-- Why a column of a row cannot be read. -/
def Part.refusal? (row : Row) (part : Part) : Option Error :=
  part.form.fault? part.place part.name (cellUnder part.name row)

/-- Why a row cannot be read: the first of its columns that cannot be. -/
def refusal? (row : Row) : Option Error :=
  (parts (attachmentOf row).isUsable).findSome? (Part.refusal? row)

/-! ## Reading -/

section Reading

variable {row : Row} {place : Nat} {name : String}

theorem textAt_named (found : readColumns[place]? = some name) :
    textAt (named row) place =
      barring (Part.refusal? row ⟨place, name, .text⟩) (textOf name row) := by
  rw [textAt, wrongKind, cellAt_named found, Part.refusal?, textOf, cellUnder]
  cases row.cells.lookup name with
  | none => rfl
  | some cell => cases cell <;> rfl

theorem integerAt_named (found : readColumns[place]? = some name) :
    integerAt (named row) place =
      barring (Part.refusal? row ⟨place, name, .integer⟩) (integerOf name row) := by
  rw [integerAt, wrongKind, cellAt_named found, Part.refusal?, integerOf, cellUnder]
  cases row.cells.lookup name with
  | none => rfl
  | some cell => cases cell <;> rfl

theorem priorityAt_named (found : readColumns[place]? = some name) :
    priorityAt (named row) place =
      barring (Part.refusal? row ⟨place, name, .byte⟩)
        (UInt8.ofNat (integerOf name row).toInt.toNat) := by
  rw [priorityAt, integerAt_named found, Part.refusal?, Part.refusal?, integerOf, cellUnder]
  cases row.cells.lookup name with
  | none => rfl
  | some cell =>
      cases cell with
      | integer value =>
          change (if 0 ≤ value.toInt ∧ value.toInt ≤ 255 then _ else _) = barring (if _ then _ else _) _
          split <;> rfl
      | _ => rfl

/-- Why the attachment of a row cannot be read, where there is one. -/
theorem readAttachment_named (row : Row) :
    readAttachment (named row) (textOf "attachment_name" row) (textOf "attachment_url" row) =
      barring ((if (attachmentOf row).isUsable then attachmentParts else []).findSome?
        (Part.refusal? row)) (shownAttachment row) := by
  unfold readAttachment shownAttachment
  cases usable : (attachmentOf row).isUsable with
  | true =>
      have both : textOf "attachment_name" row ≠ "" ∧ textOf "attachment_url" row ≠ "" :=
        of_decide_eq_true usable
      rw [if_pos both, if_pos rfl, Option.filter_some_pos usable, attachmentParts]
      simp only [findSome?_cons_eq_or, List.findSome?_nil]
      exact bind_eq_barring (textAt_named rfl) <| bind_eq_barring (integerAt_named rfl) <|
        bind_eq_barring (integerAt_named rfl) <| bind_eq_barring (textAt_named rfl) <|
        (rfl : _ = barring none _)
  | false =>
      have lacking : ¬ (textOf "attachment_name" row ≠ "" ∧ textOf "attachment_url" row ≠ "") :=
        of_decide_eq_false usable
      rw [if_neg lacking, Option.filter_some_neg (by rw [usable])]
      rfl

/-- What is read from a row is its message, unless a column cannot be read. -/
theorem decode_eq (row : Row) : decode row = barring (refusal? row) (messageOf row) := by
  have chained : decode row = barring _ (messageOf row) :=
    bind_eq_barring (textAt_named rfl) <| bind_eq_barring (textAt_named rfl) <|
      bind_eq_barring (textAt_named rfl) <| bind_eq_barring (readAttachment_named row) <|
      bind_eq_barring (textAt_named rfl) <| bind_eq_barring (integerAt_named rfl) <|
      bind_eq_barring (integerAt_named rfl) <| bind_eq_barring (textAt_named rfl) <|
      bind_eq_barring (textAt_named rfl) <| bind_eq_barring (textAt_named rfl) <|
      bind_eq_barring (priorityAt_named rfl) <| bind_eq_barring (textAt_named rfl) <|
      bind_eq_barring (textAt_named rfl) <| (rfl : _ = barring none _)
  rw [chained, refusal?, parts, List.findSome?_append, List.findSome?_append]
  simp only [findSome?_cons_eq_or, List.findSome?_nil, Option.or_assoc, Option.none_or]

end Reading

/-! ## Rows that can be read -/

/-- A row whose cells can be read: those of the columns of texts and integers, the priority as a
byte, and what else belongs to an attachment only if its name and its URL are not empty. -/
structure Decodable (row : Row) : Prop where
  texts : ∀ name ∈ ["tags", "attachment_name", "attachment_url", "mid", "topic", "message", "title",
    "click", "encoding"], (cellUnder name row).kind = .text
  integers : ∀ name ∈ ["time", "updated"], (cellUnder name row).kind = .integer
  priority : ∃ value, cellUnder "priority" row = .integer value ∧
    0 ≤ value.toInt ∧ value.toInt ≤ 255
  attachment : cellUnder "attachment_name" row ≠ .text "" →
    cellUnder "attachment_url" row ≠ .text "" →
      (∀ name ∈ ["attachment_type", "attachment_owner"], (cellUnder name row).kind = .text) ∧
        ∀ name ∈ ["attachment_size", "attachment_expires"], (cellUnder name row).kind = .integer

section Rows

variable {row : Row} {error : Error}

theorem mem_parts_iff {attached : Bool} {part : Part} :
    part ∈ parts attached ↔ part ∈ parts false ∨ attached = true ∧ part ∈ attachmentParts := by
  cases attached with
  | false => simp
  | true =>
      simp only [parts, if_true, Bool.false_eq_true, if_false, List.append_nil, List.mem_append]
      tauto

theorem mem_parts_true {attached : Bool} {part : Part} (member : part ∈ parts attached) :
    part ∈ parts true :=
  mem_parts_iff.mpr ((mem_parts_iff.mp member).imp_right fun attachment => ⟨rfl, attachment.2⟩)

/-- Only the priority is read as a byte. -/
theorem eq_of_mem_parts_byte {attached : Bool} {part : Part} (member : part ∈ parts attached)
    (byte : part.form = .byte) : part = ⟨6, "priority", .byte⟩ := by
  have only : ∀ part ∈ parts true, part.form = .byte → part = ⟨6, "priority", .byte⟩ := by
    decide
  exact only part (mem_parts_true member) byte

theorem cellUnder_eq_text_iff {name text : String} (isText : (cellUnder name row).kind = .text) :
    cellUnder name row = .text text ↔ textOf name row = text := by
  unfold cellUnder textOf at *
  cases found : row.cells.lookup name with
  | none =>
      rw [found] at isText
      cases isText
  | some cell =>
      rw [found] at isText
      cases cell with
      | text value => simp
      | _ => cases isText

theorem forall_parts_iff :
    (∀ part ∈ parts false, part.form.Admits (cellUnder part.name row)) ↔
      (∀ name ∈ ["tags", "attachment_name", "attachment_url", "mid", "topic", "message", "title",
        "click", "encoding"], (cellUnder name row).kind = .text) ∧
      (∀ name ∈ ["time", "updated"], (cellUnder name row).kind = .integer) ∧
      ∃ value, cellUnder "priority" row = .integer value ∧
        0 ≤ value.toInt ∧ value.toInt ≤ 255 := by
  simp [parts, Form.Admits]
  tauto

theorem forall_attachmentParts_iff :
    (∀ part ∈ attachmentParts, part.form.Admits (cellUnder part.name row)) ↔
      (∀ name ∈ ["attachment_type", "attachment_owner"], (cellUnder name row).kind = .text) ∧
      ∀ name ∈ ["attachment_size", "attachment_expires"],
        (cellUnder name row).kind = .integer := by
  simp [attachmentParts, Form.Admits]
  tauto

/-- A row can be read if each of its columns can be. -/
theorem decodable_iff :
    Decodable row ↔
      ∀ part ∈ parts (attachmentOf row).isUsable, part.form.Admits (cellUnder part.name row) := by
  constructor
  · intro decodable part member
    rcases mem_parts_iff.mp member with always | ⟨usable, attached⟩
    · exact forall_parts_iff.mpr ⟨decodable.texts, decodable.integers, decodable.priority⟩
        part always
    · obtain ⟨name, url⟩ := of_decide_eq_true usable
      refine forall_attachmentParts_iff.mpr (decodable.attachment ?_ ?_) part attached
      · exact fun blank => name ((cellUnder_eq_text_iff (decodable.texts _ (by decide))).mp blank)
      · exact fun blank => url ((cellUnder_eq_text_iff (decodable.texts _ (by decide))).mp blank)
  · intro each
    obtain ⟨texts, integers, priority⟩ := forall_parts_iff.mp fun part always =>
      each part (mem_parts_iff.mpr (.inl always))
    refine ⟨texts, integers, priority, fun name url => forall_attachmentParts_iff.mp ?_⟩
    refine fun part attached => each part (mem_parts_iff.mpr (.inr ⟨decide_eq_true ⟨?_, ?_⟩, attached⟩))
    · exact fun blank => name ((cellUnder_eq_text_iff (texts _ (by decide))).mpr blank)
    · exact fun blank => url ((cellUnder_eq_text_iff (texts _ (by decide))).mpr blank)

theorem refusal?_eq_none_iff : refusal? row = none ↔ Decodable row := by
  rw [refusal?, List.findSome?_eq_none_iff, decodable_iff]
  exact forall₂_congr fun part _ => Form.fault?_eq_none_iff

theorem decode_eq_ok_iff {shown : Message} :
    decode row = .ok shown ↔ Decodable row ∧ messageOf row = shown := by
  rw [decode_eq, barring_eq_ok_iff, refusal?_eq_none_iff]

theorem decode_eq_error_iff : decode row = .error error ↔ refusal? row = some error := by
  rw [decode_eq, barring_eq_error_iff]

/-- An error that says of the first column of a row that cannot be read that its cell has another
class, or that the integer in it is out of range. -/
def Refuses (row : Row) (error : Error) : Prop :=
  ∃ before part behind, parts (attachmentOf row).isUsable = before ++ part :: behind ∧
    readColumns[part.place]? = some part.name ∧
    (∀ earlier ∈ before, earlier.form.Admits (cellUnder earlier.name row)) ∧
    ((cellUnder part.name row).kind ≠ part.form.kind ∧
        error = .of (.cellKind part.place part.name (cellUnder part.name row).kind) ∨
      part.form = .byte ∧ ∃ value, cellUnder part.name row = .integer value ∧
        ¬ (0 ≤ value.toInt ∧ value.toInt ≤ 255) ∧ error = .of (.cellRange part.place value.toInt))

theorem refuses_of_refusal? (refused : refusal? row = some error) : Refuses row error := by
  obtain ⟨before, part, behind, split, fault, none⟩ := List.findSome?_eq_some_iff.mp refused
  have member : part ∈ parts (attachmentOf row).isUsable :=
    split ▸ List.mem_append_right before List.mem_cons_self
  exact ⟨before, part, behind, split, getElem?_of_mem_parts member,
    fun earlier member => Form.fault?_eq_none_iff.mp (none earlier member),
    Form.of_fault?_eq_some fault⟩

end Rows

end MessageStore.Store
