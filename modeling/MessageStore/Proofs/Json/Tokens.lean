import MessageStore.Json.Scalar

/-!
# Reading from the front of a text

What a reader makes of a text, apart from the proof that what is left is
shorter, and how blanks, single characters and the commas between entries are
read.
-/

namespace MessageStore.Json

variable {α : Type} {text rest : List Char}

/-! ## What is taken and what is left -/

/-- What has been taken from a text, and what is left of it. -/
def taken (outcome : Except Fault (α × Rest text)) : Except Fault (α × List Char) :=
  outcome.map fun result => (result.1, result.2.val)

/-- What is left of a text. -/
def remaining (outcome : Except Fault (Rest text)) : Except Fault (List Char) :=
  outcome.map (·.val)

/-- What a reader makes of a text. -/
def outcome (reader : Reader α) (text : List Char) : Except Fault (α × List Char) :=
  taken (reader text)

/-- A reader takes a value from the front of a text and leaves the rest. -/
def Reads (reader : Reader α) (text : List Char) (value : α) (rest : List Char) : Prop :=
  outcome reader text = .ok (value, rest)

/-- A reader that builds nothing passes over the front of a text and leaves the rest. -/
def Skips (skipper : (text : List Char) → Except Fault (Rest text)) (text rest : List Char) :
    Prop :=
  remaining (skipper text) = .ok rest

@[simp]
theorem taken_ok (value : α) (left : Rest text) :
    taken (.ok (value, left)) = .ok (value, left.val) :=
  rfl

@[simp]
theorem taken_error (fault : Fault) : taken (.error fault : Except Fault (α × Rest text)) =
    .error fault :=
  rfl

theorem taken_eq_ok_iff {outcome : Except Fault (α × Rest text)} {value : α} :
    taken outcome = .ok (value, rest) ↔
      ∃ left : Rest text, outcome = .ok (value, left) ∧ left.val = rest := by
  cases outcome with
  | error fault => simp
  | ok result =>
      obtain ⟨found, left⟩ := result
      simp only [taken_ok, Except.ok.injEq, Prod.mk.injEq]
      constructor
      · rintro ⟨rfl, same⟩
        exact ⟨left, ⟨rfl, rfl⟩, same⟩
      · rintro ⟨_, ⟨rfl, rfl⟩, same⟩
        exact ⟨rfl, same⟩

theorem taken_eq_error_iff {outcome : Except Fault (α × Rest text)} {fault : Fault} :
    taken outcome = .error fault ↔ outcome = .error fault := by
  cases outcome with
  | error other => simp
  | ok result => simp [taken, Except.map]

theorem remaining_eq_ok_iff {outcome : Except Fault (Rest text)} :
    remaining outcome = .ok rest ↔ ∃ left : Rest text, outcome = .ok left ∧ left.val = rest := by
  cases outcome with
  | error fault => simp [remaining, Except.map]
  | ok left => simp [remaining, Except.map]

theorem Reads.exists_left {reader : Reader α} {value : α} (reads : Reads reader text value rest) :
    ∃ left : Rest text, reader text = .ok (value, left) ∧ left.val = rest :=
  taken_eq_ok_iff.mp reads

theorem Skips.exists_left {skipper : (text : List Char) → Except Fault (Rest text)}
    (skips : Skips skipper text rest) :
    ∃ left : Rest text, skipper text = .ok left ∧ left.val = rest :=
  remaining_eq_ok_iff.mp skips

/-- What is read and changed is the changed value. -/
theorem Reads.map {β : Type} {reader : Reader α} {value : α} (change : α → β)
    (reads : Reads reader text value rest) : Reads (Reader.map change reader) text (change value) rest := by
  obtain ⟨left, read, rfl⟩ := reads.exists_left
  unfold Reads outcome Reader.map
  rw [read]
  rfl

/-- What is passed over gives back what was known before. -/
theorem Skips.keeping {skipper : (text : List Char) → Except Fault (Rest text)}
    (skips : Skips skipper text rest) (value : α) :
    Reads (fun text => (skipper text).map (value, ·)) text value rest := by
  obtain ⟨left, skipped, rfl⟩ := skips.exists_left
  simp only [Reads, outcome, skipped]
  rfl

/-! ## Blanks -/

/-- Blanks between tokens. -/
def Blank (text : List Char) : Prop :=
  ∀ c ∈ text, isSpace c = true

theorem blank_nil : Blank [] :=
  nofun

/-- After blanks, a text goes on with a character and the rest. -/
def Next (text : List Char) (c : Char) (rest : List Char) : Prop :=
  ∃ left : Rest text, next? text = some (c, left) ∧ left.val = rest

variable {before : List Char} {c : Char}

/-- Blanks are passed over. -/
theorem next_of_blank (blank : Blank before) (solid : isSpace c = false) :
    Next (before ++ c :: rest) c rest := by
  have skipped : skipSpace (before ++ c :: rest) = c :: rest := by
    unfold skipSpace
    rw [List.dropWhile_append_of_pos blank, List.dropWhile_cons_of_neg (by simp [solid])]
  unfold Next next?
  split
  · rename_i none
    rw [skipped] at none
    cases none
  · rename_i found
    rw [skipped] at found
    cases found
    exact ⟨_, rfl, rfl⟩

/-- Blanks at the end are nothing. -/
theorem next?_of_blank (blank : Blank text) : next? text = none := by
  have skipped : skipSpace text = [] := by
    have passed : (text ++ []).dropWhile isSpace = [] := List.dropWhile_append_of_pos blank
    rwa [List.append_nil] at passed
  unfold next?
  split
  · rfl
  · rename_i found
    rw [skipped] at found
    cases found

/-- The character that is wanted is taken. -/
theorem expect_of_next {wanted : Char} (next : Next text wanted rest) :
    Skips (expect wanted) text rest := by
  obtain ⟨left, found, rfl⟩ := next
  unfold Skips expect
  rw [found]
  simp only [if_true]
  rfl

/-- Another character than the one that is wanted is a fault. -/
theorem remaining_of_other {c wanted : Char} (next : Next text c rest) (other : c ≠ wanted) :
    remaining (expect wanted text) = .error .malformed := by
  obtain ⟨left, found, -⟩ := next
  unfold expect
  rw [found]
  simp only [if_neg other]
  rfl

/-! ## Where tokens begin and end -/

/-- A character that stands between two entries or closes a bracket. -/
def isDelimiter (c : Char) : Bool :=
  c == ',' || c == ']' || c == '\x7d'

/-- A value ends here, even if it is a number: with a blank, a delimiter or the text. -/
def Stops (text : List Char) : Prop :=
  ∀ c ∈ text.head?, isSpace c = true ∨ isDelimiter c = true

/-- A token begins here, and no delimiter stands in its place. -/
def Begins (text : List Char) : Prop :=
  ∃ c rest, text = c :: rest ∧ isSpace c = false ∧ isDelimiter c = false

theorem stops_of_delimiter (delimiter : isDelimiter c = true) : Stops (c :: rest) := by
  rintro _ ⟨⟩
  exact .inr delimiter

theorem Blank.stops (blank : Blank before) (stops : Stops rest) : Stops (before ++ rest) := by
  cases before with
  | nil => exact stops
  | cons c before =>
      rintro _ ⟨⟩
      exact .inl (blank c List.mem_cons_self)

theorem Begins.append (begins : Begins text) (rest : List Char) : Begins (text ++ rest) := by
  obtain ⟨c, later, rfl, solid, inside⟩ := begins
  exact ⟨c, later ++ rest, rfl, solid, inside⟩

/-- A text spells a value for a reader: behind any blanks, and before anything that ends it, the
reader takes the value from it. -/
structure Spells (reader : Reader α) (text : List Char) (value : α) : Prop where
  begins : Begins text
  reads : ∀ {before rest : List Char}, Blank before → Stops rest →
    Reads reader (before ++ (text ++ rest)) value rest

/-- What is spelled and changed is the changed value. -/
theorem Spells.map {β : Type} {reader : Reader α} {value : α} (change : α → β)
    (spells : Spells reader text value) : Spells (Reader.map change reader) text (change value) :=
  ⟨spells.begins, fun blank stops => (spells.reads blank stops).map change⟩

/-- A text that spells a value is read as the value, with blanks around it. -/
theorem Spells.whole {reader : Reader α} {value : α} {after : List Char}
    (spells : Spells reader text value) (blank : Blank before) (blankAfter : Blank after) :
    whole reader (String.ofList (before ++ (text ++ after))) = .ok value := by
  have stops : Stops after := by
    have stops : Stops (after ++ []) := blankAfter.stops nofun
    rwa [List.append_nil] at stops
  have reads := spells.reads blank stops
  rw [← String.toList_ofList (l := before ++ (text ++ after))] at reads
  obtain ⟨left, read, same⟩ := reads.exists_left
  have ended : next? left.val = none := by
    rw [same]
    exact next?_of_blank blankAfter
  unfold Json.whole
  rw [read]
  simp [ended]

/-- A text in which a fault is found is refused with it. -/
theorem whole_of_error {reader : Reader α} {fault : Fault}
    (refused : outcome reader text = .error fault) :
    whole reader (String.ofList text) = .error fault := by
  rw [← String.toList_ofList (l := text)] at refused
  unfold whole
  rw [taken_eq_error_iff.mp refused]

/-! ## Entries between brackets -/

/-- What stands before an entry: nothing before the first one, and a comma before the others. -/
inductive Lead : Bool → List Char → Prop
  | first : Lead true []
  | later {space : List Char} (blank : Blank space) : Lead false (space ++ [','])

/-- Entries between brackets with commas between them, and what each of them stands for.  They
are all the entries of the brackets, or those behind the first. -/
inductive Listed {β : Type} (entry : List Char → β → Prop) : Bool → List Char → List β → Prop
  | nil {first : Bool} : Listed entry first [] []
  | cons {first : Bool} {lead before text later : List Char} {value : β} {values : List β}
      (leads : Lead first lead) (blank : Blank before) (here : entry text value)
      (more : Listed entry false later values) :
      Listed entry first (lead ++ (before ++ (text ++ later))) (value :: values)

variable {bracket : Char} {first : Bool} {lead later space : List Char}

theorem solid_of_delimiter (delimiter : isDelimiter c = true) : isSpace c = false := by
  simp only [isDelimiter, Bool.or_eq_true, beq_iff_eq] at delimiter
  rcases delimiter with (rfl | rfl) | rfl <;> rfl

/-- A bracket closes a list of entries. -/
theorem turn_of_close (first : Bool) (blank : Blank before)
    (delimiter : isDelimiter bracket = true) (rest : List Char) :
    ∃ left : Rest (before ++ bracket :: rest),
      turn bracket first (before ++ bracket :: rest) = .ok (.close left) ∧ left.val = rest := by
  have next : Next (before ++ bracket :: rest) bracket rest :=
    next_of_blank blank (solid_of_delimiter delimiter)
  obtain ⟨left, found, same⟩ := next
  refine ⟨left, ?_, same⟩
  unfold turn
  rw [found]
  simp only [if_true]

/-- A token behind what leads to an entry is an entry. -/
theorem turn_of_entry (delimiter : isDelimiter bracket = true) (closing : bracket ≠ ',')
    (leads : Lead first lead) (blank : Blank before) (begins : Begins text) :
    ∃ begun : Suffix (lead ++ (before ++ text)),
      turn bracket first (lead ++ (before ++ text)) = .ok (.entry begun) ∧
        begun.val = before ++ text := by
  obtain ⟨c, rest, rfl, solid, inside⟩ := begins
  have entry : c ≠ bracket := by
    rintro rfl
    rw [delimiter] at inside
    cases inside
  have next : Next (before ++ c :: rest) c rest := next_of_blank blank solid
  cases leads with
  | first =>
      obtain ⟨left, found, -⟩ := next
      refine ⟨.all _, ?_, rfl⟩
      unfold turn
      rw [List.nil_append, found]
      simp only [if_neg entry, if_true]
  | @later space blankBefore =>
      have comma : Next ((space ++ [',']) ++ (before ++ c :: rest)) ',' (before ++ c :: rest) := by
        rw [List.append_assoc]
        exact next_of_blank blankBefore rfl
      obtain ⟨behind, commaFound, same⟩ := comma
      refine ⟨behind.toSuffix, ?_, same⟩
      rw [← same] at next
      obtain ⟨left, found, -⟩ := next
      unfold turn
      rw [commaFound]
      simp only [if_neg closing.symm, Bool.false_eq_true, if_false, if_true, found, if_neg entry]

/-- Where an entry stands, its bracket is not closed yet. -/
theorem next_of_entry (bracket : Char) (delimiter : isDelimiter bracket = true)
    (closing : bracket ≠ ',') (leads : Lead first lead) (blank : Blank before)
    (begins : Begins text) :
    ∃ c rest, Next (lead ++ (before ++ text)) c rest ∧ c ≠ bracket := by
  cases leads with
  | first =>
      obtain ⟨c, rest, rfl, solid, inside⟩ := begins
      refine ⟨c, rest, next_of_blank blank solid, ?_⟩
      rintro rfl
      cases delimiter.symm.trans inside
  | @later space blankSpace =>
      refine ⟨',', before ++ text, ?_, closing.symm⟩
      rw [List.append_assoc]
      exact next_of_blank blankSpace rfl

/-- A value before more entries, or before the closing bracket, ends there. -/
theorem Listed.stops {β : Type} {entry : List Char → β → Prop} {body : List Char}
    {values : List β} (listed : Listed entry false body values) (blank : Blank space)
    (delimiter : isDelimiter bracket = true) (rest : List Char) :
    Stops (body ++ (space ++ bracket :: rest)) := by
  cases listed with
  | nil => exact blank.stops (stops_of_delimiter delimiter)
  | cons leads _ _ _ =>
      cases leads with
      | later blankBefore =>
          simp only [List.append_assoc]
          exact blankBefore.stops (stops_of_delimiter rfl)

/-- An item is read, and then the items behind it. -/
theorem items_of_entry (item : Reader α) (leads : Lead first lead) (blank : Blank before)
    (begins : Begins text) :
    outcome (items item first) (lead ++ (before ++ text)) = do
      let (value, left) ← outcome item (before ++ text)
      let (values, rest) ← outcome (items item false) left
      return (value :: values, rest) := by
  have closing : isDelimiter ']' = true := rfl
  obtain ⟨begun, turns, begin⟩ := turn_of_entry closing (by decide) leads blank begins
  have here : outcome item (before ++ text) = outcome item begun.val := by rw [begin]
  rw [here, outcome, items]
  simp only [turns, outcome]
  cases read : item begun.val with
  | error fault => rfl
  | ok result =>
      obtain ⟨value, left⟩ := result
      simp only [taken_ok, bind, Except.bind, Suffix.val_rest]
      cases items item false left.val with
      | error fault => rfl
      | ok result => rfl

/-- Items that are spelled one by one are read one by one. -/
theorem Listed.items {reader : Reader α} {entry : List Char → α → Prop}
    (spells : ∀ {text value}, entry text value → Spells reader text value) {body : List Char}
    {values : List α} (listed : Listed entry first body values) (blank : Blank space)
    (rest : List Char) :
    Reads (items reader first) (body ++ (space ++ ']' :: rest)) values rest := by
  have closing : isDelimiter ']' = true := rfl
  induction listed with
  | @nil first =>
      obtain ⟨left, closes, same⟩ := turn_of_close first blank closing rest
      unfold Reads outcome
      rw [List.nil_append, Json.items, closes]
      simp only [taken_ok, same]
  | cons leads blankBefore here more ih =>
      have read : outcome reader _ = _ :=
        (spells here).reads blankBefore (more.stops blank closing rest)
      have readMore : outcome (Json.items reader false) _ = _ := ih
      simp only [List.append_assoc]
      rw [Reads, items_of_entry reader leads blankBefore ((spells here).begins.append _), read]
      simp only [bind, Except.bind, readMore]
      rfl

/-! ## Words -/

/-- The rest of a word is taken. -/
theorem word_of_append {ending : List Char} {first : Rest text}
    (same : first.val = ending ++ rest) : remaining (word ending first) = .ok rest := by
  have read : letters ending first.val = .ok rest := by
    rw [same]
    clear same
    induction ending with
    | nil => rfl
    | cons c ending ih => simp [letters, ih]
  unfold word
  split
  · rename_i failed
    rw [read] at failed
    cases failed
  · rename_i found
    rw [read] at found
    cases found
    rfl

end MessageStore.Json
