import MessageStore.Proofs.Json.Numbers
import MessageStore.Proofs.Json.Strings

/-!
# Values that are skipped

Every JSON value, however deep, is passed over as a whole.  The grammar of
values is one inductive family over whole values and over the entries of
brackets.  What carries the induction is that the entries of a bracket are
passed over whatever brackets are open around it.
-/

namespace MessageStore.Json

variable {text rest : List Char}

/-! ## The grammar of values -/

/-- The character that opens a bracket. -/
def Bracket.opening : Bracket → Char
  | array => '['
  | object => '\x7b'

/-- A value without brackets. -/
inductive ScalarText : List Char → Prop
  | null : ScalarText ['n', 'u', 'l', 'l']
  | true : ScalarText ['t', 'r', 'u', 'e']
  | false : ScalarText ['f', 'a', 'l', 's', 'e']
  | string {text : List Char} (skipped : SkippedText text) : ScalarText ('"' :: (text ++ ['"']))
  | number {text : List Char} (spelling : NumberSpelling text) : ScalarText text

/-- What stands before the value of an entry: the name and the colon of a member. -/
inductive NameText : Bracket → List Char → Prop
  | array : NameText .array []
  | object {name space gap : List Char} (skipped : SkippedText name) (blank : Blank space)
      (blankGap : Blank gap) : NameText .object ('"' :: (name ++ '"' :: (space ++ ':' :: gap)))

/-- A part of a text that is a whole value, or the entries of a bracket: all of them, or those
behind the first. -/
inductive Part
  | value
  | entries (kind : Bracket) (first : Bool)

/-- The texts of JSON values and of the entries inside them. -/
inductive Valid : Part → List Char → Prop
  | scalar {text : List Char} (spelling : ScalarText text) : Valid .value text
  | bracket {kind : Bracket} {body space : List Char} (inside : Valid (.entries kind true) body)
      (blank : Blank space) : Valid .value (kind.opening :: (body ++ (space ++ [kind.closing])))
  | done {kind : Bracket} {first : Bool} : Valid (.entries kind first) []
  | entry {kind : Bracket} {first : Bool} {lead before name text later : List Char}
      (leads : Lead first lead) (blank : Blank before) (named : NameText kind name)
      (value : Valid .value text) (more : Valid (.entries kind false) later) :
      Valid (.entries kind first) (lead ++ (before ++ (name ++ (text ++ later))))

theorem Bracket.delimiter (kind : Bracket) : isDelimiter kind.closing = true := by
  cases kind <;> rfl

theorem Bracket.closing_ne_comma (kind : Bracket) : kind.closing ≠ ',' := by
  cases kind <;> decide

theorem ScalarText.begins (spelling : ScalarText text) : Begins text := by
  cases spelling with
  | null => exact ⟨'n', _, rfl, rfl, rfl⟩
  | true => exact ⟨'t', _, rfl, rfl, rfl⟩
  | false => exact ⟨'f', _, rfl, rfl, rfl⟩
  | string _ => exact ⟨'"', _, rfl, rfl, rfl⟩
  | number spelling =>
      obtain ⟨c, later, same, begins⟩ := spelling.beginsNumber
      obtain ⟨solid, inside⟩ := solid_of_beginsNumber begins
      exact ⟨c, later, same, solid, inside⟩

theorem Valid.begins (valid : Valid .value text) : Begins text := by
  cases valid with
  | scalar spelling => exact spelling.begins
  | @bracket kind body space _ _ => cases kind <;> exact ⟨_, _, rfl, rfl, rfl⟩

theorem NameText.begins {kind : Bracket} {name : List Char} (named : NameText kind name)
    (begins : Begins text) : Begins (name ++ text) := by
  cases named with
  | array => exact begins
  | object _ _ _ => exact ⟨'"', _, rfl, rfl, rfl⟩

/-- A value before more entries, or before the closing bracket, ends there. -/
theorem Valid.stops {kind : Bracket} {body space : List Char}
    (valid : Valid (.entries kind false) body) (blank : Blank space) (rest : List Char) :
    Stops (body ++ (space ++ kind.closing :: rest)) := by
  cases valid with
  | done => exact blank.stops (stops_of_delimiter kind.delimiter)
  | entry leads _ _ _ _ =>
      cases leads with
      | later blankBefore =>
          simp only [List.append_assoc]
          exact blankBefore.stops (stops_of_delimiter rfl)

/-! ## Single tokens -/

/-- A token of the given kind stands behind blanks and leaves the rest. -/
def Token (text : List Char) (opening : Opening) (rest : List Char) : Prop :=
  ∀ before : List Char, Blank before → Reads skipOpening (before ++ text) opening rest

theorem token_of_word {c : Char} {ending : List Char} (solid : isSpace c = false)
    (known : (c, ending) ∈ [('n', ['u', 'l', 'l']), ('t', ['r', 'u', 'e']),
      ('f', ['a', 'l', 's', 'e'])]) (rest : List Char) :
    Token (c :: (ending ++ rest)) .scalar rest := by
  intro before blank
  have next : Next (before ++ c :: (ending ++ rest)) c (ending ++ rest) :=
    next_of_blank blank solid
  obtain ⟨left, found, same⟩ := next
  obtain ⟨final, read, ended⟩ := remaining_eq_ok_iff.mp (word_of_append same)
  unfold Reads outcome skipOpening
  rw [found]
  simp only [List.mem_cons, Prod.mk.injEq, List.not_mem_nil, or_false] at known
  rcases known with ⟨rfl, rfl⟩ | ⟨rfl, rfl⟩ | ⟨rfl, rfl⟩
  · simp [afterNull, read, Except.map, ended]
  · simp [afterTrue, read, Except.map, ended]
  · simp [afterFalse, read, Except.map, ended]

theorem token_of_string (skipped : SkippedText text) (rest : List Char) :
    Token ('"' :: (text ++ '"' :: rest)) .scalar rest := by
  intro before blank
  have next : Next (before ++ '"' :: (text ++ '"' :: rest)) '"' (text ++ '"' :: rest) :=
    next_of_blank blank rfl
  obtain ⟨left, found, same⟩ := next
  have skips := skipped.skips rest
  rw [← same] at skips
  obtain ⟨final, read, ended⟩ := skips.exists_left
  unfold Reads outcome skipOpening
  rw [found]
  simp [read, Except.map, ended]

theorem ne_of_beginsNumber {c : Char} (number : beginsNumber c = true) (letter : Char)
    (other : beginsNumber letter = false) : c ≠ letter := by
  rintro rfl
  rw [number] at other
  cases other

theorem token_of_number (spelling : NumberSpelling text) (stops : Stops rest) :
    Token (text ++ rest) .scalar rest := by
  intro before blank
  obtain ⟨c, later, rfl, begins⟩ := spelling.beginsNumber
  have next : Next (before ++ c :: (later ++ rest)) c (later ++ rest) :=
    next_of_blank blank (solid_of_beginsNumber begins).1
  obtain ⟨left, found, same⟩ := next
  have skips := spelling.skips stops
  rw [List.cons_append, ← same] at skips
  obtain ⟨final, read, ended⟩ := skips.exists_left
  rw [List.cons_append]
  unfold Reads outcome skipOpening
  rw [found]
  simp [ne_of_beginsNumber begins 'n' rfl, ne_of_beginsNumber begins 't' rfl,
    ne_of_beginsNumber begins 'f' rfl, ne_of_beginsNumber begins '"' rfl, begins, read, Except.map,
    ended]

/-- A value without brackets is one token. -/
theorem ScalarText.token (spelling : ScalarText text) (stops : Stops rest) :
    Token (text ++ rest) .scalar rest := by
  cases spelling with
  | null => exact token_of_word rfl (by simp) rest
  | true => exact token_of_word rfl (by simp) rest
  | false => exact token_of_word rfl (by simp) rest
  | string skipped =>
      rw [List.cons_append, List.append_assoc]
      exact token_of_string skipped rest
  | number spelling => exact token_of_number spelling stops

/-- An opening bracket is one token. -/
theorem token_of_bracket (kind : Bracket) (rest : List Char) :
    Token (kind.opening :: rest) (.bracket kind) rest := by
  intro before blank
  have next : Next (before ++ kind.opening :: rest) kind.opening rest :=
    next_of_blank blank (by cases kind <;> rfl)
  obtain ⟨left, found, same⟩ := next
  unfold Reads outcome skipOpening
  rw [found]
  cases kind <;> exact congrArg (fun later => Except.ok (_, later)) same

/-- What stands before the value of an entry is passed over. -/
theorem NameText.skips {kind : Bracket} {name before : List Char} (named : NameText kind name)
    (blank : Blank before) (rest : List Char) :
    ∃ value : Suffix (before ++ (name ++ rest)), ∃ gap,
      skipName kind (before ++ (name ++ rest)) = .ok value ∧ value.val = gap ++ rest ∧
        Blank gap := by
  cases named with
  | array => exact ⟨.all _, before, rfl, rfl, blank⟩
  | @object name space gap skipped blankSpace blankGap =>
      have next : Next (before ++ '"' :: (name ++ '"' :: (space ++ ':' :: (gap ++ rest)))) '"'
          (name ++ '"' :: (space ++ ':' :: (gap ++ rest))) := next_of_blank blank rfl
      obtain ⟨left, found, same⟩ := next
      have skips := skipped.skips (space ++ ':' :: (gap ++ rest))
      rw [← same] at skips
      obtain ⟨afterName, read, same⟩ := skips.exists_left
      have colon : Next (space ++ ':' :: (gap ++ rest)) ':' (gap ++ rest) :=
        next_of_blank blankSpace rfl
      rw [← same] at colon
      obtain ⟨afterColon, expected, ended⟩ := (expect_of_next colon).exists_left
      have shape : before ++ ('"' :: (name ++ '"' :: (space ++ ':' :: gap)) ++ rest) =
          before ++ '"' :: (name ++ '"' :: (space ++ ':' :: (gap ++ rest))) := by simp
      rw [shape]
      refine ⟨(left.ofRest (afterName.ofRest afterColon)).toSuffix, gap, ?_, ended, blankGap⟩
      unfold skipName
      rw [found]
      simp only [read, expected]

/-! ## Whole values -/

/-- The entries of an open bracket and the bracket that closes it are passed over, whatever other
brackets are open. -/
def Closes (kind : Bracket) (first : Bool) (body rest : List Char) : Prop :=
  ∀ (stack : List Bracket) {text : List Char} (left : Rest text), left.val = body →
    ∃ closed : Rest text, closed.val = rest ∧
      skipEntries (kind :: stack) first left = skipEntries stack false closed

/-- What is left of a value after its first token is passed over. -/
def Continues : Opening → List Char → List Char → Prop
  | .scalar, body, rest => body = rest
  | .bracket kind, body, rest => Closes kind true body rest

/-- A part of a text is passed over. -/
def Part.Passed : Part → List Char → Prop
  | .value, text => ∀ {rest : List Char}, Stops rest →
      ∃ opening body, Token (text ++ rest) opening body ∧ Continues opening body rest
  | .entries kind first, body => ∀ {space : List Char}, Blank space → ∀ rest : List Char,
      Closes kind first (body ++ (space ++ kind.closing :: rest)) rest

/-- A bracket without entries, or without more of them, is closed. -/
theorem closes_of_blank {kind : Bracket} {first : Bool} {space : List Char} (blank : Blank space)
    (rest : List Char) : Closes kind first (space ++ kind.closing :: rest) rest := by
  intro stack text left same
  have close := turn_of_close first blank kind.delimiter rest
  rw [← same] at close
  obtain ⟨closed, turns, ended⟩ := close
  refine ⟨left.ofRest closed, ended, ?_⟩
  rw [skipEntries]
  simp only [turns]

/-- One entry is passed over, and then the entries behind it. -/
theorem closes_of_entry {kind : Bracket} {first : Bool} {lead before name body : List Char}
    (leads : Lead first lead) (blank : Blank before) (named : NameText kind name)
    (begins : Begins text) {opening : Opening} (token : Token text opening body)
    {behind : List Char} (continues : Continues opening body behind)
    (more : Closes kind false behind rest) :
    Closes kind first (lead ++ (before ++ (name ++ text))) rest := by
  intro stack whole left same
  have entry := turn_of_entry kind.delimiter kind.closing_ne_comma leads blank
    (named.begins begins)
  rw [← same] at entry
  obtain ⟨begun, turns, begin⟩ := entry
  have nameRead := named.skips blank text
  rw [← begin] at nameRead
  obtain ⟨value, gap, passed, followed, blankGap⟩ := nameRead
  have opened := token gap blankGap
  rw [← followed] at opened
  obtain ⟨afterToken, read, ended⟩ := opened.exists_left
  let inner : Rest whole := left.ofRest (begun.rest (value.rest afterToken))
  have innerIs : inner.val = body := ended
  rw [skipEntries]
  simp only [turns, passed, read]
  cases opening with
  | scalar => exact more stack inner (innerIs.trans continues)
  | bracket nested =>
      -- The inner bracket is closed with this one on the stack, and then this one goes on.
      obtain ⟨closed, closedIs, skips⟩ := continues (kind :: stack) inner innerIs
      obtain ⟨final, finalIs, skipsMore⟩ := more stack closed closedIs
      exact ⟨final, finalIs, skips.trans skipsMore⟩

/-- Every valid part of a text is passed over. -/
theorem Valid.passed {part : Part} (valid : Valid part text) : part.Passed text := by
  induction valid with
  | scalar spelling => exact fun stops => ⟨.scalar, _, spelling.token stops, rfl⟩
  | @bracket kind body space _ blank ih =>
      intro rest _
      refine ⟨.bracket kind, body ++ (space ++ kind.closing :: rest), ?_, ih blank rest⟩
      simpa using token_of_bracket kind (body ++ (space ++ kind.closing :: rest))
  | done => exact fun blank rest => closes_of_blank blank rest
  | @entry kind first lead before name text later leads blankBefore named value more ih ihMore =>
      intro space blank rest
      obtain ⟨opening, body, token, continues⟩ := ih (more.stops blank rest)
      have closes := closes_of_entry leads blankBefore named (value.begins.append _) token continues
        (ihMore blank rest)
      simpa using closes

/-- Every JSON value is skipped as a whole. -/
theorem Valid.skips {before : List Char} (valid : Valid .value text) (blank : Blank before)
    (stops : Stops rest) : Skips skip (before ++ (text ++ rest)) rest := by
  obtain ⟨opening, body, token, continues⟩ := valid.passed stops
  obtain ⟨left, read, same⟩ := (token before blank).exists_left
  unfold Skips skip
  rw [read]
  cases opening with
  | scalar => exact congrArg Except.ok (same.trans continues)
  | bracket kind =>
      obtain ⟨closed, closedIs, skips⟩ := continues [] left same
      simp only [skips, skipEntries]
      exact congrArg Except.ok closedIs

end MessageStore.Json
