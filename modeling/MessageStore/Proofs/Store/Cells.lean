import MessageStore.Proofs.Store.Decodable
import MessageStore.Proofs.Store.Editing

/-!
# The message in a row

In a current store a row has a text or an integer under the name of each column
that a message is read from.  So there is one way only in which reading a row
can fail: an integer stands there as the priority that is none.  Whatever else
stands in a row is shown, but for an attachment without name or URL.
-/

namespace MessageStore.Store

open Relational (Database Row Table)
open Schema (layoutColumns)

/-- A priority is the integer that it was read from. -/
theorem priorityCell_ofNat {value : Int64} (lower : 0 ≤ value.toInt) (upper : value.toInt ≤ 255) :
    priorityCell (UInt8.ofNat value.toInt.toNat) = .integer value := by
  have small : value.toInt.toNat < 256 := by omega
  have same : (UInt8.ofNat value.toInt.toNat).toNat = value.toInt.toNat :=
    UInt8.toNat_ofNat_of_lt' small
  rw [priorityCell, same, ← Int64.ofInt_eq_ofNat, Int.toNat_of_nonneg lower, Int64.ofInt_toInt]

namespace Current

variable {db : Database} {table : Table} {row : Row}
variable (current : Current db table) (present : row ∈ table.rows)
include current present

/-- A row has a cell of the class that is read from each column. -/
theorem kind_of_mem_parts {attached : Bool} {part : Part} (member : part ∈ parts attached) :
    (cellUnder part.name row).kind = part.form.kind := by
  have columns : ∀ part ∈ parts true,
      Schema.text part.name ∈ layoutColumns 6 ∧ part.form.kind = .text ∨
        Schema.integer part.name ∈ layoutColumns 6 ∧ part.form.kind = .integer := by
    decide
  rcases columns part (mem_parts_true member) with ⟨column, kind⟩ | ⟨column, kind⟩
  · rw [cellUnder_of_lookup (current.lookup_text present column), kind]
    rfl
  · rw [cellUnder_of_lookup (current.lookup_integer present column), kind]
    rfl

theorem cellUnder_priority :
    cellUnder "priority" row = .integer (integerOf "priority" row) :=
  cellUnder_of_lookup (current.lookup_integer present (by decide))

/-- A row can be read exactly if its priority is one. -/
theorem decodable_iff_hasPriority : Decodable row ↔ HasPriority row := by
  rw [Store.decodable_iff]
  constructor
  · intro each
    obtain ⟨value, found, fits⟩ := each ⟨6, "priority", .byte⟩ (mem_parts_iff.mpr (.inl (by decide)))
    rw [current.cellUnder_priority present] at found
    cases found
    exact fits
  · rintro priority ⟨place, name, form⟩ member
    have kind := current.kind_of_mem_parts present member
    cases form with
    | text => exact kind
    | integer => exact kind
    | byte =>
        cases eq_of_mem_parts_byte member rfl
        exact ⟨_, current.cellUnder_priority present, priority⟩

/-- A row says its message, unless an integer stands there as the priority that is none. -/
theorem content_eq_ite :
    content row =
      if HasPriority row then .ok (messageOf row)
      else .error (.of (.cellRange 6 (integerOf "priority" row).toInt)) := by
  have readable := refusal?_eq_none_iff.trans (current.decodable_iff_hasPriority present)
  rw [current.content_eq present, decode_eq]
  cases refused : refusal? row with
  | none =>
      rw [if_pos (readable.mp refused)]
      rfl
  | some error =>
      have lacking : ¬ HasPriority row := fun priority => by
        rw [readable.mpr priority] at refused
        cases refused
      obtain ⟨before, part, behind, split, -, -, fault⟩ := refuses_of_refusal? refused
      have member : part ∈ parts (attachmentOf row).isUsable :=
        split ▸ List.mem_append_right before List.mem_cons_self
      rcases fault with ⟨other, -⟩ | ⟨byte, value, found, -, rfl⟩
      · exact absurd (current.kind_of_mem_parts present member) other
      · obtain rfl := eq_of_mem_parts_byte member byte
        rw [current.cellUnder_priority present] at found
        cases found
        rw [if_neg lacking]
        rfl

omit present

/-- What is read from a row is its message. -/
theorem content_eq_ok_iff {shown : Message} (present : row ∈ messageRows db) :
    content row = .ok shown ↔ HasPriority row ∧ shown = messageOf row := by
  rw [current.messageRows_eq] at present
  rw [current.content_eq_ite present]
  split
  · rename_i priority
    rw [Except.ok.injEq, eq_comm]
    exact (and_iff_right priority).symm
  · rename_i priority
    exact ⟨nofun, fun said => absurd said.1 priority⟩

end Current

end MessageStore.Store
