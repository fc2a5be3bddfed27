import Mathlib.Data.List.Induction
import MessageStore.Text.Digits

/-!
# Hexadecimal texts

The last digits of a number can be any hexadecimal digits, and nothing else.  The
names that are made of random bits consist of them.
-/

namespace MessageStore.Text

/-- The hexadecimal digits in lower case. -/
def hexDigits : List Char :=
  ['0', '1', '2', '3', '4', '5', '6', '7', '8', '9', 'a', 'b', 'c', 'd', 'e', 'f']

variable {c : Char} {word : List Char} {value bits : Nat}

theorem hexDigits_eq : hexDigits = (List.range 16).map hexDigit :=
  rfl

theorem hexDigit_mem (small : value < 16) : hexDigit value ∈ hexDigits := by
  rw [hexDigits_eq]
  exact List.mem_map_of_mem (List.mem_range.mpr small)

theorem exists_hexDigit_eq (digit : c ∈ hexDigits) : ∃ value < 16, hexDigit value = c := by
  rw [hexDigits_eq] at digit
  obtain ⟨value, small, same⟩ := List.mem_map.mp digit
  exact ⟨value, List.mem_range.mp small, same⟩

theorem length_lastHexDigits (length bits : Nat) : (lastHexDigits length bits).length = length := by
  rw [lastHexDigits, List.length_map, List.length_reverse, List.length_range]

theorem mem_hexDigits_of_mem_lastHexDigits {length : Nat}
    (member : c ∈ lastHexDigits length bits) : c ∈ hexDigits := by
  obtain ⟨place, -, rfl⟩ := List.mem_map.mp member
  exact hexDigit_mem (Nat.mod_lt _ (by decide))

/-- One digit more. -/
theorem lastHexDigits_succ (length : Nat) (small : value < 16) :
    lastHexDigits (length + 1) (16 * bits + value) =
      lastHexDigits length bits ++ [hexDigit value] := by
  have rest : (16 * bits + value) / 16 = bits := by omega
  have last : (16 * bits + value) % 16 = value := by omega
  unfold lastHexDigits
  simp only [Nat.pow_eq]
  rw [List.range_succ_eq_map, List.reverse_cons, List.map_append, List.map_singleton,
    Nat.pow_zero, Nat.div_one, last, ← List.map_reverse, List.map_map]
  congr 1
  refine List.map_congr_left fun place _ => ?_
  rw [Function.comp_apply, Nat.succ_eq_add_one, Nat.pow_succ', ← Nat.div_div_eq_div_mul, rest]

/-- Every text of hexadecimal digits ends a number. -/
theorem exists_lastHexDigits_eq (digits : ∀ c ∈ word, c ∈ hexDigits) :
    ∃ bits, lastHexDigits word.length bits = word := by
  induction word using List.reverseRecOn with
  | nil => exact ⟨0, rfl⟩
  | append_singleton word c ih =>
      obtain ⟨bits, ended⟩ := ih fun c member => digits c (List.mem_append_left _ member)
      obtain ⟨value, small, rfl⟩ :=
        exists_hexDigit_eq (digits c (List.mem_append_right _ List.mem_cons_self))
      refine ⟨16 * bits + value, ?_⟩
      rw [List.length_append, List.length_singleton, lastHexDigits_succ _ small, ended]

theorem mem_hexDigits_of_mem_uuidOfBits (member : c ∈ uuidOfBits bits) : c ∈ hexDigits := by
  unfold uuidOfBits at member
  simp only [List.mem_append, List.mem_cons] at member
  rcases member with (first | rfl | second) | rfl | third
  · exact mem_hexDigits_of_mem_lastHexDigits first
  · decide
  · exact mem_hexDigits_of_mem_lastHexDigits second
  · exact hexDigit_mem (by omega)
  · exact mem_hexDigits_of_mem_lastHexDigits third

end MessageStore.Text
