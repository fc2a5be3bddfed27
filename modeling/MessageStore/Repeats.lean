/-!
# Repeated neighbours

Lists without the elements that are the same as the one before them.  In an
ordered list no element is left twice.
-/

namespace MessageStore

/-- A list without the elements that are the same as the one before them. -/
def withoutRepeats {α : Type} (same : α → α → Bool) : List α → List α
  | [] => []
  | first :: rest =>
      match withoutRepeats same rest with
      | [] => [first]
      | second :: others =>
          if same first second then first :: others else first :: second :: others

@[simp]
theorem withoutRepeats_nil {α : Type} (same : α → α → Bool) : withoutRepeats same [] = [] :=
  rfl

/-- What is left stood in the list. -/
theorem mem_of_mem_withoutRepeats {α : Type} {same : α → α → Bool} {x : α} {xs : List α}
    (left : x ∈ withoutRepeats same xs) : x ∈ xs := by
  induction xs with
  | nil => exact left
  | cons first rest ih =>
      rw [withoutRepeats] at left
      match tail : withoutRepeats same rest with
      | [] =>
          rw [tail] at left
          simp only [List.mem_singleton] at left
          simp [left]
      | second :: others =>
          rw [tail] at left ih
          simp only at left
          split at left
          · rcases List.mem_cons.mp left with rfl | other
            · exact List.mem_cons_self
            · exact List.mem_cons_of_mem _ (ih (List.mem_cons_of_mem _ other))
          · rcases List.mem_cons.mp left with rfl | other
            · exact List.mem_cons_self
            · exact List.mem_cons_of_mem _ (ih other)

end MessageStore
