/-!
# Pieces of a text

A text, of characters or of bytes, cut at every occurrence of a mark, and texts
joined with a mark between them.  A text has always at least one piece, and
joining its pieces gives it back.
-/

namespace MessageStore.Text

variable {α : Type}

/-- The pieces of a text between the occurrences of a mark. -/
def pieces [DecidableEq α] (mark : α) : List α → List (List α)
  | [] => [[]]
  | c :: rest =>
      if c = mark then [] :: pieces mark rest
      else
        match pieces mark rest with
        | [] => [[c]]
        | piece :: more => (c :: piece) :: more

/-- Texts with a mark between them. -/
def joined (mark : α) : List (List α) → List α
  | [] => []
  | [text] => text
  | text :: texts => text ++ mark :: joined mark texts

@[simp]
theorem pieces_nil [DecidableEq α] (mark : α) : pieces mark [] = [[]] :=
  rfl

theorem pieces_ne_nil [DecidableEq α] (mark : α) (text : List α) : pieces mark text ≠ [] := by
  cases text with
  | nil => simp
  | cons c rest =>
      rw [pieces]
      split
      · simp
      · split <;> simp

@[simp]
theorem joined_nil (mark : α) : joined mark [] = [] :=
  rfl

@[simp]
theorem joined_singleton (mark : α) (text : List α) : joined mark [text] = text :=
  rfl

@[simp]
theorem joined_cons_cons (mark : α) (text next : List α) (texts : List (List α)) :
    joined mark (text :: next :: texts) = text ++ mark :: joined mark (next :: texts) :=
  rfl

/-- Joining the pieces of a text gives the text. -/
theorem joined_pieces [DecidableEq α] (mark : α) (text : List α) :
    joined mark (pieces mark text) = text := by
  induction text with
  | nil => rfl
  | cons c rest ih =>
      rw [pieces]
      match cut : pieces mark rest with
      | [] => exact absurd cut (pieces_ne_nil mark rest)
      | piece :: more =>
          rw [cut] at ih
          by_cases atMark : c = mark
          · subst atMark
            simp [ih]
          · cases more with
            | nil => simpa [atMark] using ih
            | cons next more => simpa [atMark] using ih

end MessageStore.Text
