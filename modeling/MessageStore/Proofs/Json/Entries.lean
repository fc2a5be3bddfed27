import MessageStore.Proofs.Json.Integers
import MessageStore.Proofs.Json.RoundTrip

/-!
# Values with entries that are read or refused

Every array has items and every object has members, which are there before it is
known what they are read as.  An array is read if all its items are, and the
name of an enumeration may be the only member of an object.
-/

namespace MessageStore.Json

variable {α : Type} {text body before rest : List Char} {first : Bool}

/-! ## Arrays and objects by their entries -/

/-- An item of an array, which is any value. -/
inductive ItemText : List Char → List Char → Prop
  | value {text : List Char} (valid : Valid .value text) : ItemText text text

/-- A member of an object with its name and the text of its value.  A name in which a surrogate
lacks its partner is none. -/
inductive EntryText : List Char → Option String × List Char → Prop
  | named {name space gap text : List Char} {written : String}
      (named : StringSpelling name written) (blank : Blank space) (blankGap : Blank gap)
      (value : Valid .value text) :
      EntryText (name ++ (space ++ ':' :: (gap ++ text))) (some written, text)
  | nameless {name space gap text : List Char} (skipped : SkippedText name)
      (lone : ∀ chars, ¬ StringText name chars) (blank : Blank space) (blankGap : Blank gap)
      (value : Valid .value text) :
      EntryText ('"' :: (name ++ '"' :: (space ++ ':' :: (gap ++ text)))) (none, text)

/-- An object with its members in the order of the text. -/
inductive ObjectText : List Char → List (Option String × List Char) → Prop
  | braces {body space : List Char} {entries : List (Option String × List Char)}
      (listed : Listed EntryText true body entries) (blank : Blank space) :
      ObjectText ('\x7b' :: (body ++ (space ++ ['\x7d']))) entries

/-- The entries of brackets can be listed. -/
def Part.Lists : Part → List Char → Prop
  | .value, _ => True
  | .entries .array first, body => ∃ items, Listed ItemText first body items
  | .entries .object first, body => ∃ entries, Listed EntryText first body entries

theorem Valid.lists {part : Part} (valid : Valid part text) : part.Lists text := by
  induction valid with
  | scalar _ => trivial
  | bracket _ _ => trivial
  | @done kind first => cases kind <;> exact ⟨[], .nil⟩
  | @entry kind first lead before name text later leads blank named value more _ ih =>
      cases named with
      | array =>
          obtain ⟨items, listed⟩ := ih
          rw [List.nil_append]
          exact ⟨text :: items, Listed.cons leads blank (ItemText.value value) listed⟩
      | @object name space gap skipped blankSpace blankGap =>
          obtain ⟨entries, listed⟩ := ih
          have shape : '"' :: (name ++ '"' :: (space ++ ':' :: gap)) ++ (text ++ later) =
              '"' :: (name ++ '"' :: (space ++ ':' :: (gap ++ text))) ++ later := by simp
          rw [shape]
          rcases skipped.settles.1 with ⟨chars, spelling⟩ | refused
          · have spelled : StringSpelling ('"' :: (name ++ ['"'])) (String.ofList chars) :=
              .quoted (by rwa [String.toList_ofList])
            have entry := EntryText.named spelled blankSpace blankGap value
            simp only [List.cons_append, List.append_assoc, List.nil_append] at entry
            exact ⟨_, .cons leads blank entry listed⟩
          · have lone chars (spelling : StringText name chars) : False := by
              obtain ⟨fault, failed⟩ := refused []
              cases (spelling.reads []).symm.trans failed
            exact ⟨_, .cons leads blank (.nameless skipped lone blankSpace blankGap value) listed⟩

/-- Every array has items. -/
theorem Valid.exists_items (valid : Valid .value ('[' :: text)) :
    ∃ body space items, Listed ItemText true body items ∧ Blank space ∧
      text = body ++ (space ++ [']']) := by
  obtain ⟨body, space, inside, blank, same⟩ := valid.of_opening .array
  obtain ⟨items, listed⟩ := inside.lists
  exact ⟨body, space, items, listed, blank, same⟩

/-- Every object has members. -/
theorem Valid.exists_entries (valid : Valid .value ('\x7b' :: text)) :
    ∃ entries, ObjectText ('\x7b' :: text) entries := by
  obtain ⟨body, space, inside, blank, rfl⟩ := valid.of_opening .object
  obtain ⟨entries, listed⟩ := inside.lists
  exact ⟨entries, .braces listed blank⟩

theorem StringText.skipped {chars : List Char} (spelling : StringText text chars) :
    SkippedText text := by
  induction spelling with
  | nil => exact .nil
  | plain noQuote noEscape visible _ ih => exact .plain noQuote noEscape visible ih
  | letter known _ ih => exact .letter known ih
  | unicode escape _ ih =>
      cases escape with
      | single hex _ _ => exact .unicode hex ih
      | pair hex _ hexLater _ =>
          have skipped := SkippedText.unicode hex (.unicode hexLater ih)
          simpa using skipped

theorem EntryText.begins {entry : Option String × List Char} (spelling : EntryText text entry) :
    Begins text := by
  cases spelling with
  | named named _ _ _ => exact named.begins.append _
  | nameless _ _ _ _ _ => exact ⟨'"', _, rfl, rfl, rfl⟩

theorem EntryText.valid {entry : Option String × List Char} {later lead : List Char}
    (spelling : EntryText text entry) (leads : Lead first lead) (blank : Blank before)
    (more : Valid (.entries .object false) later) :
    Valid (.entries .object first) (lead ++ (before ++ (text ++ later))) := by
  have entry {name space gap value : List Char} (skipped : SkippedText name)
      (blankSpace : Blank space) (blankGap : Blank gap) (valid : Valid .value value) :
      Valid (.entries .object first) (lead ++ (before ++
        ('"' :: (name ++ '"' :: (space ++ ':' :: (gap ++ value))) ++ later))) := by
    have whole := Valid.entry leads blank (.object skipped blankSpace blankGap) valid more
    simpa using whole
  cases spelling with
  | named named blankSpace blankGap valid =>
      cases named with
      | quoted spelling =>
          have whole := entry spelling.skipped blankSpace blankGap valid
          simpa using whole
  | nameless skipped _ blankSpace blankGap valid => exact entry skipped blankSpace blankGap valid

theorem Listed.valid {entries : List (Option String × List Char)}
    (listed : Listed EntryText first body entries) : Valid (.entries .object first) body := by
  induction listed with
  | nil => exact .done
  | cons leads blank here _ ih => exact here.valid leads blank ih

theorem StringSpelling.valid {written : String} (spelling : StringSpelling text written) :
    Valid .value text := by
  cases spelling with
  | quoted spelling => exact .scalar (.string spelling.skipped)

theorem valid_writeInteger (value : Int) : Valid .value (writeInteger value) := by
  obtain ⟨sign, signed, written⟩ := writeInteger_eq value
  have spelling := NumberSpelling.parts signed (wholeText_toDigits value.natAbs) .absent .absent
  rw [written]
  exact .scalar (.number (by simpa using spelling))

/-- An object that is written has the members that are written. -/
theorem objectText_writeObject {members : List (String × List Char)}
    (valid : ∀ member ∈ members, Valid .value member.2) :
    ObjectText (writeObject members) (members.map fun member => (some member.1, member.2)) := by
  refine .braces (listed_joined fun member inside => ?_) blank_nil
  exact .named (stringSpelling_writeString member.1) blank_nil blank_nil (valid member inside)

/-- The values of members are values. -/
theorem Listed.forall_valid {entries : List (Option String × List Char)}
    (listed : Listed EntryText first body entries) : ∀ entry ∈ entries, Valid .value entry.2 := by
  induction listed with
  | nil => nofun
  | cons _ _ here _ ih =>
      refine List.forall_mem_cons.mpr ⟨?_, ih⟩
      cases here with
      | named _ _ _ valid => exact valid
      | nameless _ _ _ _ valid => exact valid

theorem ObjectText.forall_valid {entries : List (Option String × List Char)}
    (object : ObjectText text entries) : ∀ entry ∈ entries, Valid .value entry.2 := by
  cases object with
  | braces listed _ => exact listed.forall_valid

/-- What has members is a JSON object, and every JSON object has members. -/
theorem exists_objectText_iff :
    (∃ entries, ObjectText text entries) ↔ Valid .value text ∧ text.head? = some '\x7b' := by
  constructor
  · rintro ⟨entries, object⟩
    cases object with
    | braces listed blank => exact ⟨Valid.bracket listed.valid blank, rfl⟩
  · rintro ⟨valid, begins⟩
    cases text with
    | nil => cases begins
    | cons c text =>
        cases Option.some.inj begins
        exact valid.exists_entries

/-! ## Items -/

section Items

variable {item : Reader α} {lead : List Char} {decodes : List Char → α → Prop}

/-- Items are read one by one, or one of them is refused. -/
theorem items_or_refused (decides : Decides item decodes) {texts : List (List Char)}
    (listed : Listed ItemText first body texts) :
    (∃ values, Listed decodes first body values) ∨
      ∀ space rest : List Char, Blank space →
        ∃ fault, outcome (items item first) (body ++ (space ++ ']' :: rest)) = .error fault := by
  induction listed with
  | nil => exact .inl ⟨[], .nil⟩
  | @cons first lead before text later _ _ leads blank here more ih =>
      cases here with
      | value valid =>
          have step (space rest : List Char) := items_of_entry item leads blank
            (valid.begins.append (later ++ (space ++ ']' :: rest)))
          have stops {space : List Char} (blankSpace : Blank space) (rest : List Char) :
              Stops (later ++ (space ++ ']' :: rest)) := more.stops blankSpace rfl rest
          simp only [List.append_assoc]
          rcases decides.settles valid with ⟨value, spells⟩ | refuses
          · rcases ih with ⟨values, listed⟩ | refused
            · exact .inl ⟨_, .cons leads blank ((decides.decodes_iff valid).mpr spells) listed⟩
            · refine .inr fun space rest blankSpace => ?_
              obtain ⟨fault, failed⟩ := refused space rest blankSpace
              have reads : outcome item _ = _ := spells.reads blank (stops blankSpace rest)
              rw [step, reads]
              exact ⟨fault, by simp only [bind, Except.bind, failed]⟩
          · refine .inr fun space rest blankSpace => ?_
            obtain ⟨fault, failed⟩ := refuses before _ blank (stops blankSpace rest)
            rw [step, failed]
            exact ⟨fault, rfl⟩

/-- An array is read if its items are, one by one, and no other value is an array. -/
theorem decides_array (decides : Decides item decodes)
    (sound : ∀ {text value}, decodes text value → Spells item text value) :
    Decides (array item) (ArrayText decodes) := by
  refine decides_of (fun _ => ArrayText.spells sound) fun valid => ?_
  obtain ⟨c, later, rfl, solid⟩ := valid.exists_first
  by_cases bracket : c = '['
  · subst bracket
    obtain ⟨body, space, texts, listed, blank, rfl⟩ := valid.exists_items
    rcases items_or_refused decides listed with ⟨values, listed⟩ | refused
    · exact .inl ⟨values, .listed listed blank⟩
    · refine .inr fun before rest blankBefore _ => ?_
      simp only [List.cons_append, List.append_assoc, List.nil_append]
      rw [array_of_bracket item blankBefore]
      exact refused space rest blank
  · refine .inr (refuses_of_first solid fun {text left} found => ⟨wrongKind text, ?_⟩)
    unfold array
    rw [found]
    exact if_neg bracket

end Items

/-! ## Values that may be missing -/

section Optional

variable {reader : Reader α} {decodes : List Char → α → Prop}

/-- A spelling of a value that may be missing. -/
inductive OptionalText (decodes : List Char → α → Prop) : List Char → Option α → Prop
  | absent : OptionalText decodes nullText none
  | present {text : List Char} {value : α} (decoded : decodes text value) :
      OptionalText decodes text (some value)

theorem valid_nullText : Valid .value nullText :=
  .scalar .null

theorem Valid.cases_null (valid : Valid .value text) :
    text = nullText ∨ text.head? ≠ some 'n' := by
  obtain ⟨c, later, rfl, -⟩ := valid.exists_first
  by_cases word : c = 'n'
  · subst word
    exact .inl (congrArg _ valid.of_null)
  · exact .inr fun same => word (Option.some.inj same)

/-- What is refused, and is not the word for a missing value, is no value that may be missing. -/
theorem Refuses.optional (refuses : Refuses reader text) (begins : Begins text)
    (present : text.head? ≠ some 'n') : Refuses (optional reader) text := by
  intro before rest blank stops
  rw [optional_of_present reader begins present blank]
  exact refuses.map some before rest blank stops

/-- A value that may be missing is nothing for the word of that, and else as it is read. -/
theorem decides_optional (decides : Decides reader decodes) (noNull : Refuses reader nullText) :
    Decides (optional reader) (OptionalText decodes) := by
  refine decides_of (fun valid spelling => ?_) fun valid => ?_
  · cases spelling with
    | absent => exact spells_null reader
    | present decoded =>
        have spells := (decides.decodes_iff valid).mp decoded
        refine spells.optional ?_
        rcases valid.cases_null with rfl | present
        · exact absurd spells noNull.not_spells
        · exact present
  · rcases valid.cases_null with rfl | present
    · exact .inl ⟨none, .absent⟩
    · rcases decides.settles valid with ⟨value, spells⟩ | refuses
      · exact .inl ⟨some value, .present ((decides.decodes_iff valid).mpr spells)⟩
      · exact .inr (refuses.optional valid.begins present)

end Optional

/-! ## Names of enumerations -/

section Variant

variable {names : List (String × α)}

/-- A spelling of a name of an enumeration: the string, or an object whose only member has that
name and no value. -/
inductive VariantText : List Char → String → Prop
  | plain {text : List Char} {name : String} (spelling : StringSpelling text name) :
      VariantText text name
  | keyed {text : List Char} {name : String} (object : ObjectText text [(some name, nullText)]) :
      VariantText text name

theorem decides_null : Decides null fun text _ => text = nullText := by
  refine decides_of (fun _ same => ?_) fun valid => ?_
  · subst same
    refine ⟨valid_nullText.begins, @fun before rest blank _ => ?_⟩
    have next : Next (before ++ 'n' :: (['u', 'l', 'l'] ++ rest)) 'n' (['u', 'l', 'l'] ++ rest) :=
      next_of_blank blank rfl
    obtain ⟨left, found, same⟩ := next
    obtain ⟨final, read, ended⟩ := remaining_eq_ok_iff.mp (word_of_append same)
    change Reads null (before ++ 'n' :: (['u', 'l', 'l'] ++ rest)) () rest
    unfold Reads outcome null
    rw [found]
    simp only [if_true, afterNull, read, taken_ok, ended]
  · rcases valid.cases_null with same | present
    · exact .inl ⟨(), same⟩
    · obtain ⟨c, later, rfl, solid⟩ := valid.exists_first
      have other : c ≠ 'n' := fun same => present (congrArg some same)
      refine .inr (refuses_of_first solid fun {text left} found => ⟨wrongKind text, ?_⟩)
      unfold null
      rw [found]
      exact if_neg other

/-- Behind a brace stand a name, which is looked up, a colon, `null` and another brace. -/
theorem variant_of_brace (blank : Blank before) (rest : List Char) :
    outcome (variant names) (before ++ '\x7b' :: rest) = do
      let (name, afterName) ← outcome string rest
      let value ← variant.known names name
      let afterColon ← remaining (expect ':' afterName)
      let (_, afterValue) ← outcome null afterColon
      let final ← remaining (expect '\x7d' afterValue)
      return (value, final) := by
  have next : Next (before ++ '\x7b' :: rest) '\x7b' rest := next_of_blank blank rfl
  obtain ⟨left, found, same⟩ := next
  have behind : outcome string rest = outcome string left.val := by rw [same]
  have noQuote : '\x7b' ≠ '"' := by decide
  rw [behind]
  unfold outcome variant
  rw [found]
  simp only [if_neg noQuote, if_true, bind, Except.bind]
  cases string left.val with
  | error fault => rfl
  | ok result =>
      simp only [taken, Except.map]
      cases variant.known names result.1 with
      | error fault => rfl
      | ok value =>
          dsimp only
          cases expect ':' result.2.val with
          | error fault => rfl
          | ok afterColon =>
              simp only [remaining, Except.map]
              cases null afterColon.val with
              | error fault => rfl
              | ok afterValue =>
                  dsimp only
                  cases expect '\x7d' afterValue.2.val with
                  | error fault => rfl
                  | ok final => rfl

variable {name space gap value later : List Char} {written : String}

/-- A name that stands for something leaves it to its value. -/
theorem variant_of_member {found : α} (blank : Blank before) {lead : List Char}
    (blankLead : Blank lead) (named : StringSpelling name written) (blankSpace : Blank space)
    (known : names.lookup written = some found) (rest : List Char) :
    outcome (variant names) (before ++ '\x7b' :: (lead ++ (name ++ (space ++ ':' :: rest)))) = do
      let (_, afterValue) ← outcome null rest
      let final ← remaining (expect '\x7d' afterValue)
      return (found, final) := by
  have reads : outcome string _ = _ := named.reads blankLead (space ++ ':' :: rest)
  have colon : Next (space ++ ':' :: rest) ':' rest := next_of_blank blankSpace rfl
  have expected : remaining (expect ':' (space ++ ':' :: rest)) = .ok rest := expect_of_next colon
  rw [variant_of_brace blank, reads]
  simp only [bind, Except.bind, variant.known, known, expected]

/-- A member whose name stands for something is read with `null` behind it. -/
theorem VariantText.spells {found : α} (spelling : VariantText text written)
    (known : names.lookup written = some found) : Spells (variant names) text found := by
  cases spelling with
  | plain spelling => exact spelling.variant known
  | keyed object =>
      cases object with
      | @braces body spaceAfter _ listed blankAfter =>
          cases listed with
          | cons leads blankLead here more =>
              cases leads
              cases more
              cases here with
              | named named blankSpace blankGap _ =>
                  refine ⟨⟨'\x7b', _, rfl, rfl, rfl⟩, @fun before rest blank _ => ?_⟩
                  have stops : Stops (spaceAfter ++ '\x7d' :: rest) :=
                    blankAfter.stops (stops_of_delimiter rfl)
                  have spells : Spells null nullText () :=
                    (decides_null.decodes_iff valid_nullText).mp rfl
                  have absent : outcome null _ = _ := spells.reads blankGap stops
                  have brace : Next (spaceAfter ++ '\x7d' :: rest) '\x7d' rest :=
                    next_of_blank blankAfter rfl
                  have closed : remaining (expect '\x7d' _) = .ok rest := expect_of_next brace
                  simp only [List.nil_append, List.cons_append, List.append_assoc]
                  rw [Reads, variant_of_member blank blankLead named blankSpace known, absent]
                  simp only [bind, Except.bind, closed, pure, Except.pure]

/-- Behind a name stands `null` and no other member, or what stands there is refused. -/
theorem variant_value_or_refused {entries : List (Option String × List Char)} {space : List Char}
    (more : Listed EntryText false later entries) (valid : Valid .value value)
    (blankGap : Blank gap) (blank : Blank space) :
    (value = nullText ∧ entries = []) ∨
      ∀ (rest : List Char) (found : α), ∃ fault, (do
        let (_, afterValue) ← outcome null (gap ++ (value ++ (later ++ (space ++ '\x7d' :: rest))))
        let final ← remaining (expect '\x7d' afterValue)
        return (found, final)) = .error fault := by
  have stops (rest : List Char) : Stops (later ++ (space ++ '\x7d' :: rest)) :=
    more.stops blank rfl rest
  rcases decides_null.settles valid with ⟨_, spells⟩ | refuses
  · have same : value = nullText := (decides_null.decodes_iff valid).mpr spells
    cases more with
    | nil => exact .inl ⟨same, rfl⟩
    | @cons _ lead before text later _ _ leads blankLead here more =>
        refine .inr fun rest found => ⟨.malformed, ?_⟩
        have absent : outcome null _ = _ := spells.reads blankGap (stops rest)
        simp only [List.append_assoc] at absent ⊢
        obtain ⟨c, behind, next, other⟩ := next_of_entry '\x7d' rfl (by decide) leads blankLead
          (here.begins.append (later ++ (space ++ '\x7d' :: rest)))
        rw [absent]
        simp only [bind, Except.bind, remaining_of_other next other]
  · refine .inr fun rest found => ?_
    obtain ⟨fault, refused⟩ := refuses gap _ blankGap (stops rest)
    rw [refused]
    exact ⟨fault, rfl⟩

/-- An object that is no name of an enumeration is refused. -/
theorem variant_or_refused {entries : List (Option String × List Char)}
    (object : ObjectText text entries) :
    (∃ found written, VariantText text written ∧ names.lookup written = some found) ∨
      Refuses (variant names) text := by
  have whole := object
  cases object with
  | @braces body spaceAfter _ listed blankAfter =>
      cases listed with
      | nil =>
          refine .inr fun before rest blank _ => ?_
          have next : Next (spaceAfter ++ '\x7d' :: rest) '\x7d' rest :=
            next_of_blank blankAfter rfl
          obtain ⟨left, found, -⟩ := next
          have refused : outcome string (spaceAfter ++ '\x7d' :: rest) =
              .error (wrongKind (spaceAfter ++ '\x7d' :: rest)) := by
            refine taken_eq_error_iff.mpr ?_
            unfold string
            rw [found]
            rfl
          simp only [List.nil_append, List.cons_append, List.append_assoc]
          rw [variant_of_brace blank, refused]
          exact ⟨_, rfl⟩
      | @cons _ _ lead _ _ _ _ leads blankLead here more =>
          cases leads
          cases here with
          | @nameless name space gap text skipped lone blankSpace blankGap valid =>
              refine .inr fun before rest blank _ => ?_
              simp only [List.nil_append, List.cons_append, List.append_assoc]
              obtain ⟨fault, refused⟩ := string_of_lone skipped lone blankLead _
              rw [variant_of_brace blank, refused]
              exact ⟨fault, rfl⟩
          | @named name space gap text written named blankSpace blankGap valid =>
              cases known : names.lookup written with
              | none =>
                  refine .inr fun before rest blank _ => ?_
                  simp only [List.nil_append, List.cons_append, List.append_assoc]
                  have reads rest : outcome string (lead ++ (name ++ rest)) = .ok (written, rest) :=
                    named.reads blankLead rest
                  refine ⟨.mismatch (.unknownVariant written (names.map Prod.fst)), ?_⟩
                  rw [variant_of_brace blank, reads]
                  simp only [bind, Except.bind, variant.known, known]
              | some found =>
                  rcases variant_value_or_refused more valid blankGap blankAfter with
                    ⟨rfl, rfl⟩ | refused
                  · exact .inl ⟨found, written, .keyed whole, known⟩
                  · refine .inr fun before rest blank _ => ?_
                    simp only [List.nil_append, List.cons_append, List.append_assoc]
                    rw [variant_of_member blank blankLead named blankSpace known]
                    exact refused rest found

/-- A name of an enumeration is read in either spelling, and nothing else is read as one. -/
theorem decides_variant : Decides (variant names) fun text found =>
    ∃ name, VariantText text name ∧ names.lookup name = some found := by
  refine decides_of (fun _ ⟨name, spelling, known⟩ => spelling.spells known) fun valid => ?_
  obtain ⟨c, later, rfl, solid⟩ := valid.exists_first
  by_cases quote : c = '"'
  · subst quote
    obtain ⟨inside, -, rfl⟩ := valid.of_quote
    have read (before rest : List Char) (blank : Blank before) :=
      variant_of_quote names blank (inside ++ '"' :: rest)
    have shape (before rest : List Char) : before ++ ('"' :: (inside ++ ['"']) ++ rest) =
        before ++ '"' :: (inside ++ '"' :: rest) := by simp
    rcases decides_string.settles valid with ⟨name, spells⟩ | refuses
    · have spelling := (decides_string.decodes_iff valid).mpr spells
      cases known : names.lookup name with
      | some found => exact .inl ⟨found, name, .plain spelling, known⟩
      | none =>
          refine .inr fun before rest blank _ => ?_
          have reads : outcome string _ = _ := spelling.reads blank rest
          rw [shape] at reads ⊢
          refine ⟨.mismatch (.unknownVariant name (names.map Prod.fst)), ?_⟩
          rw [read before rest blank, reads]
          simp only [bind, Except.bind, variant.known, known]
    · refine .inr fun before rest blank stops => ?_
      obtain ⟨fault, refused⟩ := refuses before rest blank stops
      rw [shape] at refused ⊢
      rw [read before rest blank, refused]
      exact ⟨fault, rfl⟩
  by_cases brace : c = '\x7b'
  · subst brace
    obtain ⟨entries, object⟩ := valid.exists_entries
    exact variant_or_refused object
  · refine .inr (refuses_of_first solid fun found => ⟨.malformed, ?_⟩)
    unfold variant
    rw [found]
    simp only [if_neg quote, if_neg brace]

end Variant

end MessageStore.Json
