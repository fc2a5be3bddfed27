import MessageStore.Proofs.Json.Scalars
import MessageStore.Proofs.Json.Skipping

/-!
# Values that are read or refused

A reader takes a JSON value or refuses it, and which of the two depends on the
text of the value alone, not on the blanks before it or on what ends it.  So the
grammar of what a reader takes is exact: all that is spelled is read, and of the
other values none.
-/

namespace MessageStore.Json

variable {α : Type} {reader : Reader α} {text : List Char}

/-! ## Readers that decide -/

/-- A text is refused by a reader, behind any blanks and before anything that ends it. -/
def Refuses (reader : Reader α) (text : List Char) : Prop :=
  ∀ before rest : List Char, Blank before → Stops rest →
    ∃ fault, outcome reader (before ++ (text ++ rest)) = .error fault

/-- A text spells a value for a reader, or is refused. -/
def Settles (reader : Reader α) (text : List Char) : Prop :=
  (∃ value, Spells reader text value) ∨ Refuses reader text

/-- A grammar that says of every JSON value what a reader takes it for. -/
structure Decides (reader : Reader α) (decodes : List Char → α → Prop) : Prop where
  settles : ∀ {text}, Valid .value text → Settles reader text
  decodes_iff : ∀ {text value}, Valid .value text → (decodes text value ↔ Spells reader text value)

/-- Grammars that derive the same decide the same. -/
theorem Decides.congr {decodes other : List Char → α → Prop} (decides : Decides reader decodes)
    (same : ∀ {text value}, decodes text value ↔ other text value) : Decides reader other where
  settles := decides.settles
  decodes_iff valid := same.symm.trans (decides.decodes_iff valid)

theorem stops_nil : Stops [] :=
  nofun

/-- A text spells one value only. -/
theorem Spells.unique {value other : α} (spells : Spells reader text value)
    (otherSpells : Spells reader text other) : value = other := by
  have read := spells.reads blank_nil stops_nil
  have otherRead := otherSpells.reads blank_nil stops_nil
  exact (Prod.mk.inj (Except.ok.inj (read.symm.trans otherRead))).1

/-- A value is decoded in one way only. -/
theorem Decides.unique {decodes : List Char → α → Prop} (decides : Decides reader decodes)
    (valid : Valid .value text) {value other : α} (decoded : decodes text value)
    (otherDecoded : decodes text other) : value = other :=
  ((decides.decodes_iff valid).mp decoded).unique ((decides.decodes_iff valid).mp otherDecoded)

theorem Refuses.not_spells {value : α} (refuses : Refuses reader text) :
    ¬ Spells reader text value := by
  intro spells
  obtain ⟨fault, refused⟩ := refuses [] [] blank_nil stops_nil
  cases (spells.reads blank_nil stops_nil).symm.trans refused

/-- A grammar decides if all that it derives is read, and what it does not derive is refused. -/
theorem decides_of {decodes : List Char → α → Prop}
    (sound : ∀ {text value}, Valid .value text → decodes text value → Spells reader text value)
    (complete : ∀ {text}, Valid .value text → (∃ value, decodes text value) ∨ Refuses reader text) :
    Decides reader decodes where
  settles valid := (complete valid).imp_left fun ⟨value, decoded⟩ => ⟨value, sound valid decoded⟩
  decodes_iff valid := by
    refine ⟨sound valid, fun spells => ?_⟩
    rcases complete valid with ⟨other, decoded⟩ | refuses
    · rwa [spells.unique (sound valid decoded)]
    · exact absurd spells refuses.not_spells

/-- A text of which the reader makes the same wherever it stands. -/
theorem settles_of_outcome (begins : Begins text) (result : Except Fault α)
    (read : ∀ before rest : List Char, Blank before →
      outcome reader (before ++ (text ++ rest)) = result.map (·, rest)) : Settles reader text := by
  cases result with
  | error fault => exact .inr fun before rest blank _ => ⟨fault, read before rest blank⟩
  | ok value => exact .inl ⟨value, begins, fun blank _ => read _ _ blank⟩

/-- What a reader takes is changed, and what it refuses stays refused. -/
theorem Refuses.map {β : Type} (refuses : Refuses reader text) (change : α → β) :
    Refuses (Reader.map change reader) text := by
  intro before rest blank stops
  obtain ⟨fault, refused⟩ := refuses before rest blank stops
  refine ⟨fault, taken_eq_error_iff.mpr ?_⟩
  unfold Reader.map
  rw [taken_eq_error_iff.mp refused]

/-- A reader that cannot begin with a character refuses what begins with it. -/
theorem refuses_of_first {c : Char} {later : List Char} (solid : isSpace c = false)
    (refused : ∀ {text : List Char} {left : Rest text}, next? text = some (c, left) →
      ∃ fault, reader text = .error fault) : Refuses reader (c :: later) := by
  intro before rest blank _
  have next : Next (before ++ c :: (later ++ rest)) c (later ++ rest) := next_of_blank blank solid
  obtain ⟨left, found, -⟩ := next
  obtain ⟨fault, failed⟩ := refused found
  exact ⟨fault, taken_eq_error_iff.mpr failed⟩

/-- Only blanks have nothing behind them. -/
theorem next?_eq_none_iff {text : List Char} : next? text = none ↔ Blank text := by
  refine ⟨fun ended => ?_, next?_of_blank⟩
  unfold next? at ended
  split at ended
  · rename_i skipped
    exact List.dropWhile_eq_nil_iff.mp skipped
  · cases ended

/-- A whole text is what is taken from its front, if nothing but blanks is left. -/
theorem whole_ofList (reader : Reader α) (text : List Char) :
    whole reader (String.ofList text) = do
      let (value, rest) ← outcome reader text
      if (next? rest).isSome then throw .malformed else return value := by
  have whole_eq (text : String) : whole reader text = do
      let (value, rest) ← outcome reader text.toList
      if (next? rest).isSome then throw .malformed else return value := by
    unfold whole outcome
    cases reader text.toList <;> rfl
  rw [whole_eq, String.toList_ofList]

/-- Whether a value is read as a whole text or refused is settled by the reader. -/
theorem Settles.whole_eq_ok_iff {value : α} (settles : Settles reader text) :
    whole reader (String.ofList text) = .ok value ↔ Spells reader text value := by
  have bare (text : List Char) : [] ++ (text ++ []) = text := by simp
  constructor
  · intro read
    rcases settles with ⟨other, spells⟩ | refuses
    · have otherRead := spells.whole blank_nil blank_nil
      rw [bare, read] at otherRead
      rwa [Except.ok.inj otherRead]
    · obtain ⟨fault, refused⟩ := refuses [] [] blank_nil stops_nil
      rw [bare] at refused
      cases read.symm.trans (whole_of_error refused)
  · intro spells
    have read := spells.whole blank_nil blank_nil
    rwa [bare] at read

/-! ## Values by their first characters -/

section First

variable {later : List Char}

/-- A value begins with a character that is no blank. -/
theorem Valid.exists_first (valid : Valid .value text) :
    ∃ c later, text = c :: later ∧ isSpace c = false := by
  obtain ⟨c, later, same, solid, -⟩ := valid.begins
  exact ⟨c, later, same, solid⟩

/-- What a value is that begins with a character. -/
theorem Valid.of_first {c : Char} (valid : Valid .value (c :: later)) :
    (c = 'n' ∧ later = ['u', 'l', 'l']) ∨ c = 't' ∨ c = 'f' ∨
      (c = '"' ∧ ∃ inside, SkippedText inside ∧ later = inside ++ ['"']) ∨
      (beginsNumber c = true ∧ NumberSpelling (c :: later)) ∨
      ∃ (kind : Bracket) (body space : List Char), c = kind.opening ∧
        Valid (.entries kind true) body ∧ Blank space ∧
        later = body ++ (space ++ [kind.closing]) := by
  generalize same : c :: later = text at valid
  cases valid with
  | scalar spelling =>
      cases spelling with
      | null =>
          cases same
          exact .inl ⟨rfl, rfl⟩
      | true =>
          cases same
          exact .inr (.inl rfl)
      | false =>
          cases same
          exact .inr (.inr (.inl rfl))
      | string skipped =>
          cases same
          exact .inr (.inr (.inr (.inl ⟨rfl, _, skipped, rfl⟩)))
      | number spelling =>
          obtain ⟨first, more, rfl, begins⟩ := spelling.beginsNumber
          cases same
          exact .inr (.inr (.inr (.inr (.inl ⟨begins, spelling⟩))))
  | @bracket kind body space inside blank =>
      cases same
      exact .inr (.inr (.inr (.inr (.inr ⟨kind, body, space, rfl, inside, blank, rfl⟩))))

theorem Valid.of_null (valid : Valid .value ('n' :: later)) : later = ['u', 'l', 'l'] := by
  rcases valid.of_first with ⟨-, same⟩ | no | no | ⟨no, -⟩ | ⟨no, -⟩ | ⟨kind, _, _, no, -⟩
  · exact same
  · cases no
  · cases no
  · cases no
  · cases no
  · cases kind <;> cases no

theorem Valid.of_quote (valid : Valid .value ('"' :: later)) :
    ∃ inside, SkippedText inside ∧ later = inside ++ ['"'] := by
  rcases valid.of_first with ⟨no, -⟩ | no | no | ⟨-, string⟩ | ⟨no, -⟩ | ⟨kind, _, _, no, -⟩
  · cases no
  · cases no
  · cases no
  · exact string
  · cases no
  · cases kind <;> cases no

theorem Valid.of_digit {c : Char} (begins : beginsNumber c = true)
    (valid : Valid .value (c :: later)) : NumberSpelling (c :: later) := by
  rcases valid.of_first with ⟨rfl, -⟩ | rfl | rfl | ⟨rfl, -⟩ | ⟨-, number⟩ | ⟨kind, _, _, rfl, -⟩
  · cases begins
  · cases begins
  · cases begins
  · cases begins
  · exact number
  · cases kind <;> cases begins

theorem Valid.of_opening (kind : Bracket) (valid : Valid .value (kind.opening :: later)) :
    ∃ body space, Valid (.entries kind true) body ∧ Blank space ∧
      later = body ++ (space ++ [kind.closing]) := by
  rcases valid.of_first with
    ⟨no, -⟩ | no | no | ⟨no, -⟩ | ⟨no, -⟩ | ⟨other, body, space, same, parts⟩
  · cases kind <;> cases no
  · cases kind <;> cases no
  · cases kind <;> cases no
  · cases kind <;> cases no
  · cases kind <;> cases no
  · obtain rfl : kind = other := by cases kind <;> cases other <;> first | rfl | cases same
    exact ⟨body, space, parts⟩

end First

/-! ## Strings -/

section Strings

variable {digits rest : List Char} {unit : Nat}

/-- The second half of a pair cannot stand first. -/
theorem escape_of_trailing (hex : HexText digits unit) (trailing : isTrailing unit = true)
    (rest : List Char) : ∃ fault, outcome unicodeEscape (digits ++ rest) = .error fault := by
  obtain ⟨left, read, -⟩ := (hex.reads rest).exists_left
  refine ⟨.malformed, taken_eq_error_iff.mpr ?_⟩
  simp only [unicodeEscape, read, bind, Except.bind, trailing, if_true]
  rfl

/-- The first half of a pair needs the second one behind it. -/
theorem escape_of_leading (hex : HexText digits unit) (leading : isLeading unit = true)
    (lone : ∀ later, rest = '\\' :: 'u' :: later → ∀ second left,
      Reads hexUnit later second left → isTrailing second = false) :
    ∃ fault, outcome unicodeEscape (digits ++ rest) = .error fault := by
  obtain ⟨left, read, same⟩ := (hex.reads rest).exists_left
  suffices ∃ fault, unicodeEscape (digits ++ rest) = .error fault from
    this.imp fun _ => taken_eq_error_iff.mpr
  simp only [unicodeEscape, read, bind, Except.bind, isTrailing_of_isLeading leading, leading,
    Bool.false_eq_true, if_false, if_true]
  split
  · exact ⟨_, rfl⟩
  · exact ⟨_, rfl⟩
  · rename_i later found
    cases second : hexUnit later with
    | error fault => exact ⟨_, rfl⟩
    | ok result =>
        obtain ⟨unit, final⟩ := result
        have reads : Reads hexUnit later unit final.val := taken_eq_ok_iff.mpr ⟨final, second, rfl⟩
        have noTrailing := lone later (same.symm.trans found) unit _ reads
        simp only [noTrailing, Bool.false_eq_true, if_false]
        exact ⟨_, rfl⟩
  · exact ⟨_, rfl⟩

/-- The characters between quotes are read, or refused whatever stands behind the quote. -/
def StringSettles (text : List Char) : Prop :=
  (∃ chars, StringText text chars) ∨
    ∀ rest, ∃ fault, outcome stringRest (text ++ '"' :: rest) = .error fault

/-- What stands before the characters that are left is read with them, or refused with them. -/
theorem StringSettles.behind (front : List Char) (settles : StringSettles text)
    (spelled : ∀ chars, StringText text chars → ∃ more, StringText (front ++ text) more)
    (refused : ∀ rest fault, outcome stringRest (text ++ '"' :: rest) = .error fault →
      outcome stringRest (front ++ (text ++ '"' :: rest)) = .error fault) :
    StringSettles (front ++ text) := by
  rcases settles with ⟨chars, spelling⟩ | fails
  · exact .inl (spelled chars spelling)
  · refine .inr fun rest => ?_
    obtain ⟨fault, failed⟩ := fails rest
    rw [List.append_assoc]
    exact ⟨fault, refused rest fault failed⟩

/-- An escape that is read leaves it to the characters behind it. -/
theorem StringSettles.escape {c : Char} (settles : StringSettles text)
    (escape : EscapeText digits c) : StringSettles ('\\' :: 'u' :: (digits ++ text)) := by
  refine settles.behind ('\\' :: 'u' :: digits)
    (fun chars spelling => ⟨_, .unicode escape spelling⟩) fun rest fault failed => ?_
  obtain ⟨left, read, same⟩ := (escape.reads (text ++ '"' :: rest)).exists_left
  rw [← same] at failed
  simp only [List.cons_append]
  simp [outcome, stringRest, read, taken_eq_error_iff.mp failed]

/-- An escape that is refused is refused whatever stands behind it. -/
theorem stringSettles_of_escape
    (refused : ∀ rest, ∃ fault,
      outcome unicodeEscape (digits ++ (text ++ '"' :: rest)) = .error fault) :
    StringSettles ('\\' :: 'u' :: (digits ++ text)) := by
  refine .inr fun rest => ?_
  obtain ⟨fault, failed⟩ := refused rest
  refine ⟨fault, ?_⟩
  simp only [List.cons_append, List.append_assoc]
  simp [outcome, stringRest, taken_eq_error_iff.mp failed]

/-- A string that can be skipped is read, unless a surrogate lacks its partner. -/
theorem SkippedText.settles {text : List Char} (skipped : SkippedText text) :
    StringSettles text ∧ ∀ digits unit, HexText digits unit → isLeading unit = true →
      StringSettles ('\\' :: 'u' :: (digits ++ text)) := by
  -- A pair of surrogates takes two escapes at once, so the claim is also about what can be skipped
  -- behind the first half of a pair.
  induction skipped with
  | nil =>
      refine ⟨.inl ⟨[], .nil⟩, fun digits unit hex leading => ?_⟩
      refine stringSettles_of_escape fun rest => ?_
      exact escape_of_leading hex leading nofun
  | @plain c text noQuote noEscape visible more ih =>
      constructor
      · refine ih.1.behind [c]
          (fun chars spelling => ⟨_, .plain noQuote noEscape visible spelling⟩)
          fun rest fault failed => ?_
        simp [outcome, stringRest, noEscape, visible, taken_eq_error_iff.mp failed]
      · refine fun digits unit hex leading => stringSettles_of_escape fun rest => ?_
        refine escape_of_leading hex leading fun later same => ?_
        exact absurd (List.cons.inj same).1 noEscape
  | @letter letter c text known more ih =>
      constructor
      · refine ih.1.behind ['\\', letter]
          (fun chars spelling => ⟨_, .letter known spelling⟩) fun rest fault failed => ?_
        simp [outcome, stringRest, letter_ne_u known, known, taken_eq_error_iff.mp failed]
      · refine fun digits unit hex leading => stringSettles_of_escape fun rest => ?_
        refine escape_of_leading hex leading fun later same => ?_
        exact absurd (List.cons.inj (List.cons.inj same).2).1 (letter_ne_u known)
  | @unicode later second text hexLater more ih =>
      constructor
      · cases trailing : isTrailing second with
        | true =>
            exact stringSettles_of_escape fun rest => escape_of_trailing hexLater trailing _
        | false =>
            cases leading : isLeading second with
            | true => exact ih.2 later second hexLater leading
            | false => exact ih.1.escape (.single hexLater leading trailing)
      · intro digits unit hex leading
        cases trailing : isTrailing second with
        | true =>
            have pair := ih.1.escape (.pair hex leading hexLater trailing)
            simpa using pair
        | false =>
            refine stringSettles_of_escape fun rest => ?_
            refine escape_of_leading hex leading fun behind same found left read => ?_
            have follows : behind = later ++ (text ++ '"' :: rest) := by simpa using same.symm
            rw [follows, Reads, hexLater.reads (text ++ '"' :: rest)] at read
            rwa [← (Prod.mk.inj (Except.ok.inj read)).1]

/-- A text behind a quote is read as characters. -/
theorem string_of_quote {before : List Char} (blank : Blank before) (rest : List Char) :
    outcome string (before ++ '"' :: rest) =
      (outcome stringRest rest).map fun result => (String.ofList result.1, result.2) := by
  have next : Next (before ++ '"' :: rest) '"' rest := next_of_blank blank rfl
  obtain ⟨left, found, same⟩ := next
  have behind : outcome stringRest rest = outcome stringRest left.val := by rw [same]
  rw [behind]
  unfold outcome string
  rw [found]
  simp only [if_true]
  cases stringRest left.val with
  | error fault => rfl
  | ok result => rfl

/-- A string is spelled by its characters, and nothing else is a string. -/
theorem decides_string : Decides string StringSpelling := by
  refine decides_of (fun _ => StringSpelling.spells) fun valid => ?_
  obtain ⟨c, later, rfl, solid⟩ := valid.exists_first
  by_cases quote : c = '"'
  · subst quote
    obtain ⟨inside, skipped, rfl⟩ := valid.of_quote
    rcases skipped.settles.1 with ⟨chars, spelling⟩ | refused
    · refine .inl ⟨String.ofList chars, .quoted ?_⟩
      rwa [String.toList_ofList]
    · refine .inr fun before rest blank _ => ?_
      obtain ⟨fault, failed⟩ := refused rest
      have shape : before ++ ('"' :: (inside ++ ['"']) ++ rest) =
          before ++ '"' :: (inside ++ '"' :: rest) := by simp
      rw [shape, string_of_quote blank, failed]
      exact ⟨fault, rfl⟩
  · refine .inr (refuses_of_first solid fun {text left} found => ⟨wrongKind text, ?_⟩)
    unfold string
    rw [found]
    exact if_neg quote

/-- A string in which a surrogate lacks its partner is refused wherever it ends. -/
theorem string_of_lone (skipped : SkippedText text) (lone : ∀ chars, ¬ StringText text chars)
    {before : List Char} (blank : Blank before) (rest : List Char) :
    ∃ fault, outcome string (before ++ '"' :: (text ++ '"' :: rest)) = .error fault := by
  rcases skipped.settles.1 with ⟨chars, spelling⟩ | refused
  · exact absurd spelling (lone chars)
  · obtain ⟨fault, failed⟩ := refused rest
    rw [string_of_quote blank, failed]
    exact ⟨fault, rfl⟩

end Strings

end MessageStore.Json
