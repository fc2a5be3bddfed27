import MessageStore.Host.Path
import MessageStore.Proofs.Tags
import MessageStore.Proofs.Text.Utf8

/-!
# Paths and their parents

The components of a path in bytes are those of its characters, since no other
character has the byte of a slash.  So a path has the components of its parent
and one more, and both begin at the root or neither does.
-/

namespace MessageStore

namespace Text

/-! ## Pieces in UTF-8 -/

/-- What stands before the first mark is in front of the first piece. -/
theorem pieces_append_of_free {α : Type} [DecidableEq α] {mark : α} {text rest piece : List α}
    {more : List (List α)} (free : mark ∉ text) (cut : pieces mark rest = piece :: more) :
    pieces mark (text ++ rest) = (text ++ piece) :: more := by
  induction text with
  | nil => exact cut
  | cons c text ih =>
      obtain ⟨apart, freeText⟩ := not_or.mp (mt List.mem_cons.mpr free)
      rw [List.cons_append, pieces, if_neg (Ne.symm apart), ih freeText]
      rfl

/-- The first pieces of a text begin it. -/
theorem joined_begins {α : Type} (mark : α) {parts all : List (List α)} (begins : parts <+: all) :
    joined mark parts <+: joined mark all := by
  induction parts generalizing all with
  | nil => exact List.nil_prefix
  | cons part parts ih =>
      obtain ⟨rest, rfl⟩ := begins
      cases parts with
      | nil =>
          cases rest with
          | nil => exact List.prefix_rfl
          | cons next rest => exact List.prefix_append part _
      | cons next parts =>
          have tails := ih (List.prefix_append (next :: parts) rest)
          exact (List.prefix_append_right_inj part).mpr (List.cons_prefix_cons.mpr ⟨rfl, tails⟩)

/-- No character but the slash has the byte of a slash. -/
theorem slash_not_mem_of_ne {c : Char} (other : c ≠ '/') :
    '/'.toUInt8 ∉ String.utf8EncodeChar c := by
  have code : c.val.toNat ≠ 47 := by
    intro same
    exact other (Char.ext (UInt32.toNat_inj.mp same))
  have byte : '/'.toUInt8.toNat = 47 := rfl
  unfold String.utf8EncodeChar
  simp only
  split
  · simp only [List.mem_singleton, ← UInt8.toNat_inj, byte, UInt8.toNat_ofNat']
    omega
  · split
    · simp only [List.mem_cons, List.not_mem_nil, or_false, ← UInt8.toNat_inj, byte, UInt8.toNat_ofNat']
      omega
    · split
      · simp only [List.mem_cons, List.not_mem_nil, or_false, ← UInt8.toNat_inj, byte, UInt8.toNat_ofNat']
        omega
      · simp only [List.mem_cons, List.not_mem_nil, or_false, ← UInt8.toNat_inj, byte, UInt8.toNat_ofNat']
        omega

/-- The pieces between the bytes of slashes are the pieces between the slashes. -/
theorem pieces_encodeChars (chars : List Char) :
    pieces '/'.toUInt8 (encodeChars chars) = (pieces '/' chars).map encodeChars := by
  induction chars with
  | nil => rfl
  | cons c chars ih =>
      by_cases slash : c = '/'
      · subst slash
        have begins : encodeChars ('/' :: chars) = '/'.toUInt8 :: encodeChars chars := rfl
        rw [begins, pieces, if_pos rfl, pieces, if_pos rfl, ih]
        rfl
      · rw [pieces, if_neg slash]
        cases cut : pieces '/' chars with
        | nil => exact absurd cut (pieces_ne_nil '/' chars)
        | cons piece more =>
            rw [cut] at ih
            exact pieces_append_of_free (slash_not_mem_of_ne slash) ih

theorem encodeChars_injective {first second : List Char}
    (same : encodeChars first = encodeChars second) : first = second := by
  have bytes : (String.ofList first).toByteArray = (String.ofList second).toByteArray := by
    rw [String.toByteArray_ofList, String.toByteArray_ofList]
    exact congrArg List.toByteArray same
  exact String.ofList_injective (String.toByteArray_inj.mp bytes)

end Text

namespace Host.Path

open Text (encodeChars joined pieces)

variable {path parent : String}

/-! ## Components -/

/-- Pieces that are components. -/
def solid (parts : List (List Char)) : List (List Char) :=
  parts.filter fun piece => !isIdle piece

theorem components_eq (path : String) :
    components path = (solid (pieces '/' path.toList)).map encodeChars := by
  unfold components componentsOf solid slash
  rw [Text.encode_eq, Text.pieces_encodeChars, List.filter_map]
  congr 1
  refine List.filter_congr fun piece _ => ?_
  have empty : encodeChars piece = [] ↔ piece = [] :=
    ⟨fun same => Text.encodeChars_injective same, fun same => same ▸ rfl⟩
  have dot : encodeChars piece = ['.'.toUInt8] ↔ piece = ['.'] :=
    ⟨fun same => Text.encodeChars_injective same, fun same => same ▸ rfl⟩
  simp only [Function.comp_apply, isComponent, ne_eq, empty, dot, isIdle]
  rw [Bool.eq_iff_iff]
  simp

/-- A path begins at the root if its bytes begin with that of a slash. -/
theorem head?_encode (path : String) :
    (Text.encode path).head? = some '/'.toUInt8 ↔ isAbsolute path = true := by
  rw [Text.encode_eq]
  unfold isAbsolute
  cases path.toList with
  | nil => simp [encodeChars]
  | cons c chars =>
      by_cases slash : c = '/'
      · subst slash
        exact ⟨fun _ => rfl, fun _ => rfl⟩
      · have other : (some c == some '/') = false := by simpa using slash
        simp only [List.head?_cons, other, Bool.false_eq_true, iff_false]
        intro first
        refine Text.slash_not_mem_of_ne slash ?_
        cases bytes : String.utf8EncodeChar c with
        | nil => exact absurd bytes String.utf8EncodeChar_ne_nil
        | cons byte more =>
            have begins : (encodeChars (c :: chars)).head? = some byte := by
              simp [encodeChars, bytes]
            rw [first] at begins
            exact List.mem_cons.mpr (.inl (Option.some.inj begins))

/-! ## Pieces without those at the end that are no components -/

theorem dropIdle_begins (parts : List (List Char)) : dropIdle parts <+: parts := by
  unfold dropIdle
  rw [← List.reverse_suffix, List.reverse_reverse]
  exact List.dropWhile_suffix _

theorem solid_dropIdle (parts : List (List Char)) : solid (dropIdle parts) = solid parts := by
  have dropped : ∀ pieces : List (List Char),
      (pieces.dropWhile isIdle).filter (fun piece => !isIdle piece) =
        pieces.filter fun piece => !isIdle piece := by
    intro pieces
    induction pieces with
    | nil => rfl
    | cons piece pieces ih =>
        cases idle : isIdle piece with
        | true => simp [idle, ih]
        | false => simp [idle]
  unfold solid dropIdle
  rw [List.filter_reverse, dropped, ← List.filter_reverse, List.reverse_reverse]

/-- Unless nothing is left, the last piece that is left is a component. -/
theorem dropIdle_cases (parts : List (List Char)) :
    dropIdle parts = [] ∨ ∃ before last, dropIdle parts = before ++ [last] ∧ isIdle last = false := by
  unfold dropIdle
  cases left : parts.reverse.dropWhile isIdle with
  | nil => exact .inl rfl
  | cons last before =>
      refine .inr ⟨before.reverse, last, by simp, ?_⟩
      have kept := List.head?_dropWhile_not isIdle parts.reverse
      rw [left] at kept
      simpa using kept

/-! ## Parents -/

theorem solid_splitFront (chars : List Char) :
    solid (pieces '/' (splitFront chars).2) = solid (pieces '/' chars) := by
  unfold splitFront
  split
  · rfl
  · rfl
  · rfl
  · rfl

/-- Pieces that begin those of a path are found again behind its front. -/
theorem solid_pieces_joined {chars : List Char} {parts : List (List Char)}
    (begins : parts <+: pieces '/' (splitFront chars).2) :
    solid (pieces '/' ((splitFront chars).1 ++ joined '/' parts)) = solid parts := by
  have again : solid (pieces '/' (joined '/' parts)) = solid parts := by
    by_cases none : parts = []
    · rw [none]
      rfl
    · rw [Text.pieces_joined (fun piece member =>
        Text.mark_not_mem_of_pieces (begins.subset member)) none]
  revert begins
  unfold splitFront
  split
  · -- The slash in front is behind an empty piece.
    exact fun _ => again
  · -- A lone dot has no other pieces.
    intro begins
    cases parts with
    | nil => rfl
    | cons piece more =>
        obtain ⟨rfl, none⟩ := List.cons_prefix_cons.mp begins
        rw [List.prefix_nil.mp none]
        rfl
  · intro begins
    cases parts with
    | nil => rfl
    | cons piece more =>
        obtain ⟨rfl, -⟩ := List.cons_prefix_cons.mp begins
        cases more with
        | nil => rfl
        | cons next more => exact again
  · exact fun _ => again

theorem splitFront_append (chars : List Char) :
    (splitFront chars).1 ++ (splitFront chars).2 = chars := by
  unfold splitFront
  split <;> rfl

/-- A path either has no components, or it has a last one, and the pieces before that are its
parent's. -/
theorem parent?_cases (path : String) :
    (parent? path).filter (· ≠ "") = none ∧ components path = [] ∨
      ∃ parent before last, parent? path = some parent ∧
        components path = (solid before).map encodeChars ++ [encodeChars last] ∧
        dropIdle before <+: pieces '/' (splitFront path.toList).2 ∧
        parent.toList = (splitFront path.toList).1 ++ joined '/' (dropIdle before) := by
  have whole : solid (dropIdle (pieces '/' (splitFront path.toList).2)) =
      solid (pieces '/' path.toList) := by
    rw [solid_dropIdle, solid_splitFront]
  rcases dropIdle_cases (pieces '/' (splitFront path.toList).2) with none | ⟨before, last, kept, idle⟩
  · refine .inl ⟨?_, ?_⟩
    · unfold parent?
      simp only [none]
      split <;> rfl
    · rw [components_eq, ← whole, none]
      rfl
  · refine .inr ⟨String.ofList ((splitFront path.toList).1 ++ joined '/' (dropIdle before)),
      before, last, ?_, ?_, ?_, String.toList_ofList⟩
    · unfold parent?
      simp only [kept]
      split
      · rename_i empty
        simp at empty
      · rw [List.dropLast_concat]
    · rw [components_eq, ← whole, kept]
      simp [solid, idle]
    · have begins : before <+: pieces '/' (splitFront path.toList).2 :=
        (kept ▸ List.prefix_append before [last]).trans (dropIdle_begins _)
      exact (dropIdle_begins before).trans begins

/-- A path has the components of its parent and one more. -/
theorem components_parent (found : parent? path = some parent) (named : parent ≠ "") :
    (components path).dropLast = components parent := by
  rcases parent?_cases path with ⟨none, -⟩ | ⟨_, before, last, same, whole, begins, shape⟩
  · rw [found] at none
    simp [named] at none
  · obtain rfl : parent = _ := Option.some.inj (found.symm.trans same)
    rw [whole, List.dropLast_concat, components_eq, shape, solid_pieces_joined begins,
      solid_dropIdle]

/-- A path without a parent has at most one component. -/
theorem components_of_no_parent (none : (parent? path).filter (· ≠ "") = none) :
    (components path).dropLast = [] := by
  rcases parent?_cases path with ⟨-, empty⟩ | ⟨parent, before, last, found, whole, begins, shape⟩
  · rw [empty]
    rfl
  · have blank : parent.toList = [] := by
      rw [found] at none
      simpa using none
    have free := solid_pieces_joined begins
    rw [← shape, blank, solid_dropIdle] at free
    rw [whole, List.dropLast_concat, ← free]
    rfl

/-- A path begins where its parent begins. -/
theorem isAbsolute_parent (found : parent? path = some parent) (named : parent ≠ "") :
    isAbsolute parent = isAbsolute path := by
  rcases parent?_cases path with ⟨none, -⟩ | ⟨_, before, last, same, -, begins, shape⟩
  · rw [found] at none
    simp [named] at none
  · obtain rfl : parent = _ := Option.some.inj (found.symm.trans same)
    have inside : parent.toList <+: path.toList := by
      have joins := Text.joined_begins '/' begins
      rw [Text.joined_pieces] at joins
      have whole := (List.prefix_append_right_inj (splitFront path.toList).1).mpr joins
      rwa [← shape, splitFront_append] at whole
    obtain ⟨rest, continued⟩ := inside
    unfold isAbsolute
    rw [← continued, List.head?_append]
    cases nonempty : parent.toList with
    | nil => exact absurd (String.toList_eq_nil_iff.mp nonempty) named
    | cons c chars => rfl

end Host.Path

end MessageStore
