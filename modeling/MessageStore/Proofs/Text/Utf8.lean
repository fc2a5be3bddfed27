import MessageStore.Proofs.Relational.Ordering
import MessageStore.Text.Utf8

/-!
# Texts and their bytes

The bytes of a text in UTF-8 are those of its characters, one after the other.  A
character with a smaller code point has smaller bytes, so that texts are in the
same order as their bytes, whatever their characters.
-/

namespace MessageStore

open Relational (Cell)

namespace Text

/-- The bytes of characters in UTF-8. -/
def encodeChars (chars : List Char) : List UInt8 :=
  chars.flatMap String.utf8EncodeChar

theorem toList_loop (bytes : ByteArray) (start : Nat) (taken : List UInt8) :
    ByteArray.toList.loop bytes start taken = taken.reverse ++ bytes.data.toList.drop start := by
  fun_induction ByteArray.toList.loop bytes start taken with
  | case1 start taken inside ih =>
      have next : bytes.data.toList.drop start =
          bytes.get! start :: bytes.data.toList.drop (start + 1) := by
        simpa [ByteArray.get!, inside] using
          List.drop_eq_getElem_cons (l := bytes.data.toList) (i := start) inside
      rw [ih, next, List.reverse_cons, List.append_assoc]
      rfl
  | case2 start taken outside =>
      have none : bytes.data.toList.drop start = [] :=
        List.drop_eq_nil_iff.mpr (Nat.le_of_not_gt outside)
      rw [none, List.append_nil]

theorem toUTF8_eq (text : String) : text.toUTF8 = (encodeChars text.toList).toByteArray := by
  have same := String.toByteArray_ofList (l := text.toList)
  rwa [String.ofList_toList] at same

theorem encode_eq (text : String) : encode text = encodeChars text.toList := by
  unfold encode
  rw [toUTF8_eq, ByteArray.toList, toList_loop, List.data_toByteArray]
  rfl

theorem encode_inj {first second : String} : encode first = encode second ↔ first = second := by
  refine ⟨fun same => ?_, congrArg encode⟩
  rw [encode_eq, encode_eq] at same
  have bytes : first.toUTF8 = second.toUTF8 := by
    rw [toUTF8_eq, toUTF8_eq, same]
  exact String.toByteArray_inj.mp bytes

/-! ## The order of bytes -/

theorem orderBytes_cons_eq_lt_iff {x y : UInt8} {xs ys : List UInt8} :
    Cell.orderBytes (x :: xs) (y :: ys) = .lt ↔
      x.toNat < y.toNat ∨ x.toNat = y.toNat ∧ Cell.orderBytes xs ys = .lt := by
  rw [Cell.orderBytes, UInt8.toNat_inj, ← UInt8.lt_iff_toNat_lt]
  by_cases before : x < y
  · simp [before]
  · by_cases same : x = y <;> simp [before, same]

/-- What bytes have in common at first does not matter. -/
theorem orderBytes_append (common xs ys : List UInt8) :
    Cell.orderBytes (common ++ xs) (common ++ ys) = Cell.orderBytes xs ys := by
  induction common with
  | nil => rfl
  | cons x common ih => simp [Cell.orderBytes, ih]

/-- A character with a smaller code point has smaller bytes, whatever follows. -/
theorem orderBytes_utf8EncodeChar {c d : Char} (before : c < d) (xs ys : List UInt8) :
    Cell.orderBytes (String.utf8EncodeChar c ++ xs) (String.utf8EncodeChar d ++ ys) = .lt := by
  have less : c.val.toNat < d.val.toNat := before
  have bound : d.val.toNat < 1114112 := by
    have valid := d.valid
    rcases valid with small | ⟨-, large⟩
    · exact Nat.lt_trans small (by decide)
    · exact large
  have twice (code : Nat) : code / 4096 = code / 64 / 64 := by omega
  have thrice (code : Nat) : code / 262144 = code / 64 / 64 / 64 := by omega
  -- The first byte tells how many there are, and each of the others has six bits.
  fun_cases String.utf8EncodeChar c <;> fun_cases String.utf8EncodeChar d <;>
    simp only [List.cons_append, List.nil_append, orderBytes_cons_eq_lt_iff, UInt8.toNat_ofNat',
      twice, thrice] <;> omega

theorem orderBytes_encodeChars {first second : List Char} (before : first < second) :
    Cell.orderBytes (encodeChars first) (encodeChars second) = .lt := by
  induction first generalizing second with
  | nil =>
      cases second with
      | nil => exact absurd before (List.not_lt_nil [])
      | cons d rest =>
          have some := @String.utf8EncodeChar_ne_nil d
          unfold encodeChars
          rw [List.flatMap_cons]
          cases bytes : String.utf8EncodeChar d with
          | nil => exact absurd bytes some
          | cons => rfl
  | cons c first ih =>
      cases second with
      | nil => exact absurd before (List.not_lt_nil _)
      | cons d second =>
          unfold encodeChars
          rw [List.flatMap_cons, List.flatMap_cons]
          rcases List.cons_lt_cons_iff.mp before with less | ⟨rfl, rest⟩
          · exact orderBytes_utf8EncodeChar less _ _
          · rw [orderBytes_append]
            exact ih rest

/-- Texts are in the order of their bytes in UTF-8. -/
theorem orderBytes_encode (first second : String) :
    Cell.orderBytes (encode first) (encode second) = Cell.orderText first second := by
  have ordered {first second : String} (before : first < second) :
      Cell.orderBytes (encode first) (encode second) = .lt := by
    rw [encode_eq, encode_eq]
    exact orderBytes_encodeChars (String.lt_iff.mp before)
  unfold Cell.orderText
  by_cases before : first < second
  · rw [if_pos before, ordered before]
  · rw [if_neg before]
    by_cases same : first = second
    · rw [if_pos same, same, Cell.orderBytes_eq_compareLex]
      exact Std.ReflCmp.compare_self
    · have behind : second < first :=
        Std.lt_of_le_of_ne (String.not_lt.mp before) (Ne.symm same)
      have swapped := ordered behind
      rw [if_neg same]
      rw [Cell.orderBytes_eq_compareLex] at swapped ⊢
      rw [@Std.OrientedCmp.eq_swap _ (List.compareLex compare), swapped]
      rfl

end Text

end MessageStore
