import MessageStore.Proofs.Json.Numbers
import MessageStore.Proofs.Json.Strings

/-!
# Spellings of single values

Arrays are spelled by their items between brackets, the names of enumerations
as strings, and values that may be missing by `null` or like the others.
-/

namespace MessageStore.Json

variable {α : Type} {text : List Char}

/-- A spelling of an array, whose items are spelled one by one. -/
inductive ArrayText (entry : List Char → α → Prop) : List Char → List α → Prop
  | listed {body space : List Char} {values : List α} (items : Listed entry true body values)
      (blank : Blank space) : ArrayText entry ('[' :: (body ++ (space ++ [']']))) values

/-- Behind a bracket stand the items of an array. -/
theorem array_of_bracket (item : Reader α) {before : List Char} (blank : Blank before)
    (rest : List Char) :
    outcome (array item) (before ++ '[' :: rest) = outcome (items item true) rest := by
  have next : Next (before ++ '[' :: rest) '[' rest := next_of_blank blank rfl
  obtain ⟨left, found, same⟩ := next
  have behind : outcome (items item true) rest = outcome (items item true) left.val := by rw [same]
  rw [behind]
  unfold outcome array
  rw [found]
  simp only [if_true]
  cases items item true left.val <;> rfl

/-- Every spelling of an array is read as the array. -/
theorem ArrayText.spells {entry : List Char → α → Prop} {item : Reader α} {values : List α}
    (spells : ∀ {text value}, entry text value → Spells item text value)
    (spelling : ArrayText entry text values) : Spells (array item) text values := by
  cases spelling with
  | @listed body space _ items blank =>
      refine ⟨⟨'[', _, rfl, rfl, rfl⟩, @fun before rest blankBefore _ => ?_⟩
      simp only [List.cons_append, List.append_assoc, List.nil_append]
      rw [Reads, array_of_bracket item blankBefore]
      exact items.items spells blank rest

/-- A name is read as a string, and then looked up. -/
theorem variant_of_quote (names : List (String × α)) {before : List Char}
    (blank : Blank before) (rest : List Char) :
    outcome (variant names) (before ++ '"' :: rest) = do
      let (name, left) ← outcome string (before ++ '"' :: rest)
      let value ← variant.known names name
      return (value, left) := by
  have next : Next (before ++ '"' :: rest) '"' rest := next_of_blank blank rfl
  obtain ⟨left, found, -⟩ := next
  unfold outcome variant
  rw [found]
  simp only [if_true, bind, Except.bind]
  cases string (before ++ '"' :: rest) with
  | error fault => rfl
  | ok result =>
      simp only [taken, Except.map]
      cases variant.known names result.1 with
      | error fault => rfl
      | ok value => rfl

/-- A name of an enumeration is read as what it stands for. -/
theorem StringSpelling.variant {names : List (String × α)} {name : String} {value : α}
    (spelling : StringSpelling text name) (known : names.lookup name = some value) :
    Spells (variant names) text value := by
  refine ⟨spelling.begins, @fun before rest blank _ => ?_⟩
  have reads : outcome string _ = _ := spelling.reads blank rest
  cases spelling with
  | quoted _ =>
      simp only [List.cons_append] at reads ⊢
      rw [Reads, variant_of_quote names blank, reads]
      simp only [bind, Except.bind, variant.known, known]
      rfl

/-- The word for a missing value. -/
def nullText : List Char :=
  ['n', 'u', 'l', 'l']

/-- A missing value is read where a value may be missing. -/
theorem spells_null (reader : Reader α) : Spells (optional reader) nullText none := by
  refine ⟨⟨'n', _, rfl, rfl, rfl⟩, @fun before rest blank _ => ?_⟩
  have next : Next (before ++ 'n' :: (['u', 'l', 'l'] ++ rest)) 'n' (['u', 'l', 'l'] ++ rest) :=
    next_of_blank blank rfl
  obtain ⟨left, found, same⟩ := next
  obtain ⟨final, read, ended⟩ := remaining_eq_ok_iff.mp (word_of_append same)
  change Reads (optional reader) (before ++ 'n' :: (['u', 'l', 'l'] ++ rest)) none rest
  unfold Reads outcome optional
  rw [found]
  simp only [afterNull, read, taken_ok, ended]

/-- What does not begin like the word for a missing value is read as a value that is there. -/
theorem optional_of_present (reader : Reader α) (begins : Begins text)
    (present : text.head? ≠ some 'n') {before : List Char} (blank : Blank before)
    (rest : List Char) :
    outcome (optional reader) (before ++ (text ++ rest)) =
      outcome (Reader.map some reader) (before ++ (text ++ rest)) := by
  obtain ⟨c, later, rfl, solid, -⟩ := begins
  have other : c ≠ 'n' := fun same => present (congrArg some same)
  have next : Next (before ++ c :: (later ++ rest)) c (later ++ rest) := next_of_blank blank solid
  obtain ⟨left, found, -⟩ := next
  rw [List.cons_append]
  unfold outcome optional
  rw [found]
  split
  · rename_i begins
    cases begins
    exact absurd rfl other
  · rfl

/-- A value that is there is read where a value may be missing. -/
theorem Spells.optional {reader : Reader α} {value : α} (spells : Spells reader text value)
    (present : text.head? ≠ some 'n') : Spells (optional reader) text (some value) := by
  refine ⟨spells.begins, @fun before rest blank stops => ?_⟩
  rw [Reads, optional_of_present reader spells.begins present blank]
  exact (spells.reads blank stops).map some

end MessageStore.Json
