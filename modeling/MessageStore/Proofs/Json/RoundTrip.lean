import MessageStore.Proofs.Json.Records

/-!
# Records that are written and records that are read

Values that are written with commas between them are the entries of a bracket,
so a record is spelled by the object of its fields, of which those that hold
their defaults may be left out.  The other way round, a record that is read
holds nothing but values that were read for its fields, and defaults.
-/

namespace MessageStore.Json

open Text (joined)

/-! ## Written records -/

theorem joined_cons {α : Type} (mark : α) (text : List α) (texts : List (List α)) :
    joined mark (text :: texts) = text ++ texts.flatMap (mark :: ·) := by
  induction texts generalizing text with
  | nil => simp
  | cons next texts ih => rw [Text.joined_cons_cons, ih, List.flatMap_cons, List.cons_append]

theorem map_filter_cons {ι β : Type} (keeps : ι → Bool) (change : ι → β) (value : ι)
    (values : List ι) : ((value :: values).filter keeps).map change =
      (if keeps value then [change value] else []) ++ (values.filter keeps).map change := by
  rw [List.filter_cons]
  split <;> rfl

/-- Entries that are written with commas between them are listed. -/
theorem listed_joined {ι β : Type} {entry : List Char → β → Prop} {write : ι → List Char}
    {value : ι → β} {sources : List ι}
    (here : ∀ source ∈ sources, entry (write source) (value source)) :
    Listed entry true (joined ',' (sources.map write)) (sources.map value) := by
  have later {sources : List ι} (here : ∀ source ∈ sources, entry (write source) (value source)) :
      Listed entry false ((sources.map write).flatMap (',' :: ·)) (sources.map value) := by
    induction sources with
    | nil => exact .nil
    | cons source sources ih =>
        have first := here source List.mem_cons_self
        have more := ih fun source inside => here source (List.mem_cons_of_mem _ inside)
        simpa using Listed.cons (.later blank_nil) blank_nil first more
  cases sources with
  | nil => exact .nil
  | cons source sources =>
      have first := here source List.mem_cons_self
      have more := later fun source inside => here source (List.mem_cons_of_mem _ inside)
      rw [List.map_cons, joined_cons, List.map_cons]
      simpa using Listed.cons .first blank_nil first more

namespace Form

variable {Field α : Type} [DecidableEq Field] {form : Form Field α}
  {spelled : (field : Field) → List Char → form.Value field → Prop}

omit [DecidableEq Field] in
/-- Members that are written one after the other give their fields. -/
theorem listed_members {values : (field : Field) → form.Value field} {write : Field → List Char}
    (written : ∀ field, spelled field (write field) (values field)) (fields : List Field) :
    ∃ given : List (Option form.Given), Listed (form.MemberText spelled) true
        (joined ',' ((fields.map fun field => (form.name field, write field)).map writeMember))
        given ∧ fieldsOf given = fields ∧ ∀ one, some one ∈ given → one.2 = values one.1 := by
  refine ⟨fields.map fun field => some ⟨field, values field⟩, ?_, ?_, ?_⟩
  · rw [List.map_map]
    refine listed_joined fun field _ => ?_
    have known := MemberText.known (stringSpelling_writeString (form.name field)) blank_nil
      blank_nil (written field)
    simpa [writeMember] using known
  · rw [fieldsOf, List.filterMap_map]
    exact List.filterMap_some
  · simp only [List.mem_map, Option.some.injEq, forall_exists_index, and_imp]
    rintro _ field _ rfl
    rfl

omit [DecidableEq Field] in
/-- A record is spelled by the object of its fields, without some that hold their defaults. -/
theorem recordText_writeObject {values : (field : Field) → form.Value field}
    {write : Field → List Char} (written : ∀ field, spelled field (write field) (values field))
    {shown : List Field} (distinct : shown.Nodup)
    (left : ∀ field ∉ shown, form.default? field = some (values field)) :
    form.RecordText spelled values
      (writeObject (shown.map fun field => (form.name field, write field))) := by
  obtain ⟨given, listed, fields, agree⟩ := listed_members written shown
  exact .object listed blank_nil (fields.symm ▸ distinct) agree (fields.symm ▸ left)

/-! ## What a record is made of -/

/-- A value for a field that is its default, or that was read for it. -/
def Sourced (form : Form Field α) (field : Field) (value : form.Value field) : Prop :=
  form.default? field = some value ∨
    ∃ (text : List Char) (rest : Rest text), form.reader field text = .ok (value, rest)

/-- What members are read into keeps what every member that is read keeps. -/
theorem members_preserves {σ : Type} {member : MemberReader σ} {kept : σ → Prop}
    (step : ∀ {state name reader}, kept state → member state name = .ok reader →
      ∀ {text grown} {rest : Rest text}, reader text = .ok (grown, rest) → kept grown)
    {first : Bool} {state final : σ} {text : List Char} {rest : Rest text} (start : kept state)
    (read : members member first state text = .ok (final, rest)) : kept final := by
  -- Of the ways out of a member, all but closing the bracket and reading the value are faults.
  fun_induction members member first state text generalizing final with
  | case1 => cases read
  | case2 =>
      cases read
      exact start
  | case3 => cases read
  | case4 => cases read
  | case5 => cases read
  | case6 => cases read
  | case7 => cases read
  | case8 =>
      rename_i accepted _ _ _ _ valueRead _ _ _ more ih
      cases read
      exact ih (step start accepted valueRead) more

/-- What has been read for fields is sourced. -/
def Kept (draft : form.Draft) : Prop :=
  ∀ field value, draft field = some value → Sourced form field value

theorem Kept.put {draft : form.Draft} (kept : Kept draft) {field : Field}
    {value : form.Value field} (sourced : Sourced form field value) :
    Kept (form.put draft field value) := by
  intro other found held
  by_cases same : field = other
  · subst same
    rw [put_self] at held
    cases held
    exact sourced
  · rw [put_of_ne draft same] at held
    exact kept other found held

/-- One member keeps what has been read sourced. -/
theorem Kept.member {draft grown : form.Draft} (kept : Kept draft) {name : String}
    {reader : Reader form.Draft} (accepted : form.member draft name = .ok reader)
    {text : List Char} {rest : Rest text} (read : reader text = .ok (grown, rest)) : Kept grown := by
  unfold Form.member at accepted
  split at accepted
  · cases accepted
    cases skipped : skip text with
    | error fault => simp [skipped, Except.map] at read
    | ok left =>
        simp only [skipped, Except.map, Except.ok.injEq, Prod.mk.injEq] at read
        exact read.1 ▸ kept
  · rename_i field _
    split at accepted
    · cases accepted
    · cases accepted
      unfold Reader.map at read
      split at read
      · cases read
      · rename_i value left valueRead
        cases read
        exact kept.put (.inr ⟨text, _, valueRead⟩)

/-- Values that are read in order are sourced. -/
theorem Kept.inOrder {fields : List Field} {draft final : form.Draft} (kept : Kept draft)
    {first : Bool} {text : List Char} {rest : Rest text}
    (read : form.inOrder draft first fields text = .ok (final, rest)) : Kept final := by
  induction fields generalizing draft first text with
  | nil =>
      unfold Form.inOrder at read
      cases closed : expect ']' text with
      | error fault => simp [closed, Except.map] at read
      | ok left =>
          simp only [closed, Except.map, Except.ok.injEq, Prod.mk.injEq] at read
          exact read.1 ▸ kept
  | cons field fields ih =>
      unfold Form.inOrder at read
      split at read
      · cases read
      · split at read
        · cases read
          exact kept
        · cases read
      · split at read
        · cases read
        · rename_i valueRead
          split at read
          · cases read
          · rename_i more
            cases read
            exact ih (kept.put (.inr ⟨_, _, valueRead⟩)) more

omit [DecidableEq Field] in
theorem Kept.filled {draft : form.Draft} (kept : Kept draft) {field : Field}
    {value : form.Value field} (filled : form.filled draft field = some value) :
    Sourced form field value := by
  rcases Option.or_eq_some_iff.mp filled with held | ⟨_, isDefault⟩
  · exact kept field value held
  · exact .inl isDefault

omit [DecidableEq Field] in
theorem Kept.complete {draft : form.Draft} (kept : Kept draft) {record : α}
    (completed : form.complete draft = .ok record) :
    ∃ values, record = form.make values ∧ ∀ field, Sourced form field (values field) := by
  obtain ⟨values, filled, same⟩ := complete_eq_ok completed
  exact ⟨values, same, fun field => kept.filled (filled field)⟩

/-- A record that is read is made of values that were read for its fields, and of defaults. -/
theorem read_sourced {text : List Char} {record : α} {rest : Rest text}
    (read : form.read text = .ok (record, rest)) :
    ∃ values, record = form.make values ∧ ∀ field, Sourced form field (values field) := by
  have start : Kept form.blank := nofun
  unfold Form.read at read
  split at read
  · cases read
  · rename_i left _
    have made {draft : form.Draft} (kept : Kept draft) {final : Rest left.val}
        (built : (do
          let record ← form.complete draft
          return (record, left.ofRest final)) = Except.ok (record, rest)) :
        ∃ values, record = form.make values ∧ ∀ field, Sourced form field (values field) := by
      cases completed : form.complete draft with
      | error fault =>
          rw [completed] at built
          cases built
      | ok made =>
          rw [completed] at built
          cases built
          exact kept.complete completed
    split at read
    · cases items : form.inOrder form.blank true form.fields left.val with
      | error fault =>
          rw [items] at read
          cases read
      | ok result =>
          rw [items] at read
          exact made (start.inOrder items) read
    · split at read
      · cases given : members form.member true form.blank left.val with
        | error fault =>
            rw [given] at read
            cases read
        | ok result =>
            rw [given] at read
            exact made (members_preserves (fun kept accepted => kept.member accepted) start given) read
      · cases read

end Form

/-! ## Whole texts -/

/-- A value that is read as a whole text is read from its front. -/
theorem read_of_whole {α : Type} {reader : Reader α} {text : String} {value : α}
    (found : whole reader text = .ok value) :
    ∃ rest : Rest text.toList, reader text.toList = .ok (value, rest) := by
  unfold whole at found
  split at found
  · cases found
  · rename_i rest read
    split at found
    · cases found
    · cases found
      exact ⟨rest, read⟩

/-- A value that is there is one that the reader takes. -/
theorem read_of_optional {α : Type} {reader : Reader α} {text : List Char} {value : α}
    {rest : Rest text} (found : optional reader text = .ok (some value, rest)) :
    ∃ left : Rest text, reader text = .ok (value, left) := by
  unfold optional at found
  split at found
  · split at found
    · cases found
    · cases found
  · unfold Reader.map at found
    split at found
    · cases found
    · rename_i read
      cases found
      exact ⟨_, read⟩

/-- Values are written alike exactly if they are the same without what is not written, for that is
what is read again. -/
theorem written_alike_iff {α : Type} {reader : Reader α} {write : α → List Char} {bare : α → α}
    (returns : ∀ value, whole reader (String.ofList (write value)) = .ok (bare value))
    (keeps : ∀ value, write (bare value) = write value) {first second : α} :
    String.ofList (write first) = String.ofList (write second) ↔ bare first = bare second := by
  constructor
  · intro same
    have read := returns first
    rw [same, returns second] at read
    exact (Except.ok.inj read).symm
  · intro same
    rw [← keeps first, same, keeps second]

end MessageStore.Json
