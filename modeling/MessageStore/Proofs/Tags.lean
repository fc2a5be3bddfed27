import MessageStore.Message.Tags

/-!
# Tags that come back

Texts that are joined are cut into the pieces of each of them, one text after the
other, and are found again if the mark stands in none of them.  So tags come back
from the text that holds them all exactly if none of them holds a comma and they
are not the empty tag alone, and tags that have come back once always come back.
Where the text is not empty, tags that hold commas come back in pieces.
-/

namespace MessageStore

namespace Text

variable {α : Type} [DecidableEq α] {mark : α}

/-- Before and behind a mark, a text is cut as if there were nothing else. -/
theorem pieces_append (text rest : List α) :
    pieces mark (text ++ mark :: rest) = pieces mark text ++ pieces mark rest := by
  induction text with
  | nil => simp [pieces]
  | cons c text ih =>
      rw [List.cons_append, pieces, pieces, ih]
      split
      · rfl
      · cases cut : pieces mark text with
        | nil => exact absurd cut (pieces_ne_nil mark text)
        | cons piece more => rfl

/-- A text without the mark is its only piece. -/
theorem pieces_of_free {text : List α} (free : mark ∉ text) : pieces mark text = [text] := by
  induction text with
  | nil => rfl
  | cons c text ih =>
      obtain ⟨apart, freeText⟩ := not_or.mp (mt List.mem_cons.mpr free)
      rw [pieces, if_neg (Ne.symm apart), ih freeText]

/-- Texts that are joined are cut into the pieces of each of them. -/
theorem pieces_joined_eq_flatMap {texts : List (List α)} (present : texts ≠ []) :
    pieces mark (joined mark texts) = texts.flatMap (pieces mark) := by
  induction texts with
  | nil => exact absurd rfl present
  | cons text texts ih =>
      cases texts with
      | nil => simp
      | cons next texts =>
          rw [joined_cons_cons, pieces_append, ih (by simp)]
          rfl

/-- Texts that are joined are found again if the mark stands in none of them. -/
theorem pieces_joined {texts : List (List α)} (free : ∀ text ∈ texts, mark ∉ text)
    (present : texts ≠ []) : pieces mark (joined mark texts) = texts := by
  have each : ∀ text ∈ texts, pieces mark text = [text] :=
    fun text member => pieces_of_free (free text member)
  rw [pieces_joined_eq_flatMap present, List.flatMap_def, List.map_congr_left each,
    ← List.flatMap_def, List.flatMap_singleton']

/-- The mark stands in no piece. -/
theorem mark_not_mem_of_pieces {text piece : List α} (member : piece ∈ pieces mark text) :
    mark ∉ piece := by
  induction text generalizing piece with
  | nil =>
      rw [pieces_nil, List.mem_singleton] at member
      simp [member]
  | cons c text ih =>
      rw [pieces] at member
      split at member
      · rcases List.mem_cons.mp member with rfl | member
        · exact List.not_mem_nil
        · exact ih member
      · rename_i apart
        cases cut : pieces mark text with
        | nil => exact absurd cut (pieces_ne_nil mark text)
        | cons first more =>
            rw [cut] at ih member
            rcases List.mem_cons.mp member with rfl | member
            · exact List.not_mem_cons_of_ne_of_not_mem (Ne.symm apart) (ih List.mem_cons_self)
            · exact ih (List.mem_cons_of_mem _ member)

end Text

namespace Tags

/-- Tags that come back from the text that holds them all. -/
def Separable (tags : List String) : Prop :=
  (∀ tag ∈ tags, ',' ∉ tag.toList) ∧ tags ≠ [""]

theorem join_eq_empty_iff {tags : List String} : join tags = "" ↔ tags = [] ∨ tags = [""] := by
  constructor
  · intro blank
    have blankText : Text.joined ',' (tags.map String.toList) = [] := by
      simpa [join] using congrArg String.toList blank
    match tags with
    | [] => exact .inl rfl
    | [tag] =>
        have blankTag : tag.toList = [] := blankText
        exact .inr (by rw [String.toList_eq_nil_iff.mp blankTag])
    | tag :: next :: rest => simp at blankText
  · rintro (rfl | rfl) <;> rfl

/-- A text is what the tags that it is split into are joined to. -/
theorem join_split (text : String) : join (split text) = text := by
  unfold split
  split
  · rename_i blank
    exact blank.symm
  · unfold join
    rw [List.map_map]
    simp only [Function.comp_def, String.toList_ofList, List.map_id']
    rw [Text.joined_pieces, String.ofList_toList]

/-- A text is split into tags that come back. -/
theorem separable_split (text : String) : Separable (split text) := by
  unfold split
  split
  · exact ⟨nofun, nofun⟩
  · rename_i present
    constructor
    · intro tag member
      obtain ⟨piece, pieceMember, rfl⟩ := List.mem_map.mp member
      rw [String.toList_ofList]
      exact Text.mark_not_mem_of_pieces pieceMember
    · intro single
      have whole := join_split text
      rw [split, if_neg present, single] at whole
      exact present whole.symm

/-- Tags come back exactly if no one holds a comma and they are not the empty tag alone. -/
theorem split_join_eq_iff {tags : List String} : split (join tags) = tags ↔ Separable tags := by
  constructor
  · intro back
    rw [← back]
    exact separable_split _
  · rintro ⟨free, notBlank⟩
    by_cases none : tags = []
    · rw [none]
      rfl
    · have present : join tags ≠ "" := by
        rw [Ne, join_eq_empty_iff]
        exact not_or.mpr ⟨none, notBlank⟩
      have freeTexts : ∀ text ∈ tags.map String.toList, ',' ∉ text := by
        intro text member
        obtain ⟨tag, tagMember, rfl⟩ := List.mem_map.mp member
        exact free tag tagMember
      rw [split, if_neg present, join, String.toList_ofList,
        Text.pieces_joined freeTexts (by simpa using none), List.map_map]
      simp [Function.comp_def]

/-- Tags that have come back once come back again. -/
theorem split_join_split_join (tags : List String) :
    split (join (split (join tags))) = split (join tags) :=
  split_join_eq_iff.mpr (separable_split _)

/-! ## The pieces of each tag -/

/-- The pieces that a tag is split into; the empty tag is one empty piece. -/
def piecesOf (tag : String) : List String :=
  if tag = "" then [""] else split tag

theorem piecesOf_eq (tag : String) :
    piecesOf tag = (Text.pieces ',' tag.toList).map String.ofList := by
  unfold piecesOf split
  split
  · rename_i blank
    rw [blank]
    rfl
  · rfl

theorem piecesOf_ne_nil (tag : String) : piecesOf tag ≠ [] := by
  rw [piecesOf_eq, Ne, List.map_eq_nil_iff]
  exact Text.pieces_ne_nil ',' tag.toList

/-- A tag is what its pieces are joined to. -/
theorem join_piecesOf (tag : String) : join (piecesOf tag) = tag := by
  unfold piecesOf
  split
  · rename_i blank
    rw [blank]
    rfl
  · exact join_split tag

/-- Where the text that holds all tags is not empty, it is split into the pieces of each tag, one
tag after the other. -/
theorem split_join_of_ne_empty {tags : List String} (present : join tags ≠ "") :
    split (join tags) = tags.flatMap piecesOf := by
  have some : tags.map String.toList ≠ [] := by
    rw [Ne, List.map_eq_nil_iff]
    rintro rfl
    exact present rfl
  rw [split, if_neg present, join, String.toList_ofList, Text.pieces_joined_eq_flatMap some,
    List.flatMap_map, List.map_flatMap]
  exact congrArg tags.flatMap (funext piecesOf_eq).symm

/-- Tags are no more than their pieces. -/
theorem length_le_length_flatMap_piecesOf (tags : List String) :
    tags.length ≤ (tags.flatMap piecesOf).length := by
  induction tags with
  | nil => exact Nat.le_refl 0
  | cons tag rest ih =>
      have some := List.length_pos_iff.mpr (piecesOf_ne_nil tag)
      rw [List.flatMap_cons, List.length_append, List.length_cons]
      omega

/-- Every text is what the tags that it is split into are joined to, so that different texts are
split into different tags.  Tags whose text is not empty come back as the pieces of each tag, one
tag after the other: they are no fewer than the tags, each run of pieces is joined to its tag, and
they are the tags themselves exactly if no tag holds a comma. -/
theorem join_undoes_split :
    (∀ text, join (split text) = text) ∧
    (∀ first second, split first = split second → first = second) ∧
    (∀ tag, join (piecesOf tag) = tag) ∧
    ∀ tags, join tags ≠ "" →
      split (join tags) = tags.flatMap piecesOf ∧
      tags.length ≤ (split (join tags)).length ∧
      (split (join tags) = tags ↔ ∀ tag ∈ tags, ',' ∉ tag.toList) := by
  refine ⟨join_split, fun first second same => ?_, join_piecesOf, fun tags present => ?_⟩
  · rw [← join_split first, same, join_split]
  have pieces := split_join_of_ne_empty present
  have notBlank : tags ≠ [""] := by
    rintro rfl
    exact present rfl
  refine ⟨pieces, ?_, ?_⟩
  · rw [pieces]
    exact length_le_length_flatMap_piecesOf tags
  · rw [split_join_eq_iff]
    exact and_iff_left notBlank

/-- A tag that holds commas comes back in pieces, empty ones included, beside an empty tag that
comes back as it is. -/
theorem join_undoes_split_in_pieces :
    join ["a,,b", "", "c"] ≠ "" ∧
      split (join ["a,,b", "", "c"]) = ["a", "", "b", "", "c"] ∧
      ¬ ∀ tag ∈ ["a,,b", "", "c"], ',' ∉ tag.toList := by
  have present : join ["a,,b", "", "c"] ≠ "" := by decide
  obtain ⟨pieces, -, same⟩ := join_undoes_split.2.2.2 ["a,,b", "", "c"] present
  have shown : split (join ["a,,b", "", "c"]) = ["a", "", "b", "", "c"] := by
    rw [pieces]
    decide
  refine ⟨present, shown, fun free => ?_⟩
  have whole := same.mpr free
  rw [shown] at whole
  exact absurd whole (by decide)

end Tags

end MessageStore
