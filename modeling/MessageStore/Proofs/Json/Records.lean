import MessageStore.Json.Record
import MessageStore.Proofs.Json.Skipping

/-!
# Spellings of records

A record is spelled as an object whose members stand in any order, among others
that are no fields, or as the array of its field values.  Reading the members
of an object gathers the fields they give, so what an object means depends on
nothing but these, and a field that is given twice is a fault wherever its
members stand.
-/

namespace MessageStore.Json

/-! ## One member -/

section Member

variable {σ : Type} {member : MemberReader σ} {state grown : σ} {first : Bool}
  {lead before name space gap text rest : List Char} {written : String}

theorem closing : isDelimiter '\x7d' = true :=
  rfl

/-- A name is read as a string. -/
theorem memberName_of_quote (blank : Blank before) (rest : List Char) :
    outcome memberName (before ++ '"' :: rest) = outcome string (before ++ '"' :: rest) := by
  have next : Next (before ++ '"' :: rest) '"' rest := next_of_blank blank rfl
  obtain ⟨left, found, -⟩ := next
  unfold outcome memberName string
  rw [found]
  rfl

/-- A member is read from its name to its value, and then those behind it. -/
theorem members_of_entry (leads : Lead first lead) (blank : Blank before) (rest : List Char) :
    outcome (members member first state) (lead ++ (before ++ '"' :: rest)) = (do
      let (name, afterName) ← outcome string (before ++ '"' :: rest)
      let reader ← member state name
      let afterColon ← remaining (expect ':' afterName)
      let (grown, afterValue) ← outcome reader afterColon
      outcome (members member false grown) afterValue) := by
  obtain ⟨begun, turns, begin⟩ := turn_of_entry closing (by decide) leads blank
    ⟨'"', rest, rfl, rfl, rfl⟩
  have named : outcome string (before ++ '"' :: rest) = outcome memberName begun.val := by
    rw [begin, memberName_of_quote blank]
  rw [named, outcome, members]
  simp only [turns, outcome]
  cases memberName begun.val with
  | error fault => rfl
  | ok result =>
      obtain ⟨name, afterName⟩ := result
      simp only [taken_ok, bind, Except.bind]
      cases member state name with
      | error fault => rfl
      | ok reader =>
          dsimp only
          cases expect ':' afterName.val with
          | error fault => rfl
          | ok afterColon =>
              simp only [remaining, Except.map]
              cases reader afterColon.val with
              | error fault => rfl
              | ok result =>
                  obtain ⟨grown, afterValue⟩ := result
                  simp only [taken_ok, Suffix.val_rest, Rest.val_ofRest]
                  cases members member false grown afterValue.val with
                  | error fault => rfl
                  | ok result => rfl

/-- A member whose name is a string is read as its name has it. -/
theorem members_of_named (leads : Lead first lead) (blank : Blank before)
    (named : StringSpelling name written) (rest : List Char) :
    outcome (members member first state) (lead ++ (before ++ (name ++ rest))) = (do
      let reader ← member state written
      let afterColon ← remaining (expect ':' rest)
      let (grown, afterValue) ← outcome reader afterColon
      outcome (members member false grown) afterValue) := by
  have reads : outcome string _ = _ := named.reads blank rest
  cases named with
  | quoted _ =>
      simp only [List.cons_append] at reads ⊢
      rw [members_of_entry leads blank, reads]
      rfl

/-- A member that is refused for its name is a fault, whatever stands behind the name. -/
theorem members_of_refused (leads : Lead first lead) (blank : Blank before)
    (named : StringSpelling name written) {fault : Fault}
    (refused : member state written = .error fault) (rest : List Char) :
    outcome (members member first state) (lead ++ (before ++ (name ++ rest))) = .error fault := by
  rw [members_of_named leads blank named, refused]
  rfl

/-- A member that is accepted leaves it to the reader of its value. -/
theorem members_of_accepted (leads : Lead first lead) (blank : Blank before)
    (named : StringSpelling name written) (blankSpace : Blank space) {reader : Reader σ}
    (accepted : member state written = .ok reader) (rest : List Char) :
    outcome (members member first state)
        (lead ++ (before ++ (name ++ (space ++ ':' :: rest)))) = (do
      let (grown, afterValue) ← outcome reader rest
      outcome (members member false grown) afterValue) := by
  have colon : Next (space ++ ':' :: rest) ':' rest := next_of_blank blankSpace rfl
  have expected : remaining (expect ':' (space ++ ':' :: rest)) = .ok rest := expect_of_next colon
  rw [members_of_named leads blank named, accepted]
  simp only [bind, Except.bind, expected]

/-- A member that is read leaves it to those behind it. -/
theorem members_of_read (leads : Lead first lead) (blank : Blank before)
    (named : StringSpelling name written) (blankSpace : Blank space) {reader : Reader σ}
    (accepted : member state written = .ok reader)
    (reads : Reads reader (gap ++ (text ++ rest)) grown rest) :
    outcome (members member first state)
        (lead ++ (before ++ (name ++ (space ++ ':' :: (gap ++ (text ++ rest)))))) =
      outcome (members member false grown) rest := by
  have read : outcome reader _ = _ := reads
  rw [members_of_accepted leads blank named blankSpace accepted, read]
  rfl

end Member

namespace Form

variable {Field α : Type} {form : Form Field α}

/-! ## What members give -/

/-- A field with a value. -/
abbrev Given (form : Form Field α) :=
  (field : Field) × form.Value field

/-- The fields that members give, in their order.  Members that are no fields give none. -/
def fieldsOf (members : List (Option form.Given)) : List Field :=
  members.filterMap fun member => member.map (·.1)

@[simp]
theorem fieldsOf_nil : fieldsOf ([] : List (Option form.Given)) = [] :=
  rfl

@[simp]
theorem fieldsOf_none (members : List (Option form.Given)) :
    fieldsOf (none :: members) = fieldsOf members :=
  rfl

@[simp]
theorem fieldsOf_some (given : form.Given) (members : List (Option form.Given)) :
    fieldsOf (some given :: members) = given.1 :: fieldsOf members :=
  rfl

variable [DecidableEq Field]

/-- Gather what members give, up to the first field that is given again. -/
def gathered (draft : form.Draft) : List (Option form.Given) → Except Fault form.Draft
  | [] => .ok draft
  | none :: members => gathered draft members
  | some given :: members =>
      if (draft given.1).isSome then .error (.mismatch (.duplicateField (form.name given.1)))
      else gathered (form.put draft given.1 given.2) members

/-- A draft with the values of some more fields. -/
def noting (draft : form.Draft) (values : (field : Field) → form.Value field)
    (fields : List Field) : form.Draft :=
  fun field => if field ∈ fields then some (values field) else draft field

theorem put_self (draft : form.Draft) (field : Field) (value : form.Value field) :
    form.put draft field value field = some value := by
  simp [put]

theorem put_of_ne (draft : form.Draft) {field other : Field} (apart : field ≠ other)
    (value : form.Value field) : form.put draft field value other = draft other := by
  simp [put, apart]

theorem noting_put (draft : form.Draft) (values : (field : Field) → form.Value field)
    (field : Field) (fields : List Field) :
    noting (form.put draft field (values field)) values fields =
      noting draft values (field :: fields) := by
  funext other
  by_cases same : field = other
  · subst same
    simp [noting, put_self]
  · simp [noting, put_of_ne draft same, Ne.symm same]

/-- Fields that are given once each are all gathered. -/
theorem gathered_of_distinct {draft : form.Draft} {members : List (Option form.Given)}
    {values : (field : Field) → form.Value field} (distinct : (fieldsOf members).Nodup)
    (fresh : ∀ field ∈ fieldsOf members, draft field = none)
    (agree : ∀ given, some given ∈ members → given.2 = values given.1) :
    gathered draft members = .ok (noting draft values (fieldsOf members)) := by
  induction members generalizing draft with
  | nil =>
      have unchanged : noting draft values [] = draft := by
        funext field
        simp [noting]
      rw [fieldsOf_nil, unchanged]
      rfl
  | cons member members ih =>
      have agreeMore given (inside : some given ∈ members) :=
        agree given (List.mem_cons_of_mem _ inside)
      cases member with
      | none => exact ih distinct fresh agreeMore
      | some given =>
          obtain ⟨field, value⟩ := given
          rw [fieldsOf_some] at distinct
          obtain ⟨apart, distinctMore⟩ := List.nodup_cons.mp distinct
          have unset : draft field = none := fresh field List.mem_cons_self
          have isValue : value = values field := agree ⟨field, value⟩ List.mem_cons_self
          subst isValue
          have freshMore : ∀ other ∈ fieldsOf members,
              form.put draft field (values field) other = none := by
            intro other inside
            have different : field ≠ other := fun same => apart (same ▸ inside)
            rw [put_of_ne draft different]
            exact fresh other (List.mem_cons_of_mem _ inside)
          rw [gathered, fieldsOf_some, ← noting_put, ← ih distinctMore freshMore agreeMore]
          simp [unset]

/-- How often a field is given, by what has been read and by members that follow. -/
def timesGiven (draft : form.Draft) (members : List (Option form.Given)) (field : Field) : Nat :=
  (fieldsOf members).count field + if (draft field).isSome then 1 else 0

/-- A member that is read counts as it did before. -/
theorem timesGiven_put {draft : form.Draft} {given : form.Given} (unset : draft given.1 = none)
    (members : List (Option form.Given)) (field : Field) :
    timesGiven (form.put draft given.1 given.2) members field =
      timesGiven draft (some given :: members) field := by
  unfold timesGiven
  by_cases same : given.1 = field
  · subst same
    simp [put_self, unset]
  · rw [put_of_ne draft same, fieldsOf_some, List.count_cons_of_ne same]

/-- A field that is given again is a fault, if it is the only one. -/
theorem gathered_of_repeated {draft : form.Draft} {members : List (Option form.Given)}
    {field : Field} (repeated : 2 ≤ timesGiven draft members field)
    (others : ∀ other ≠ field, timesGiven draft members other ≤ 1) :
    gathered draft members = .error (.mismatch (.duplicateField (form.name field))) := by
  induction members generalizing draft with
  | nil =>
      unfold timesGiven at repeated
      split at repeated <;> simp at repeated
  | cons member members ih =>
      cases member with
      | none => exact ih repeated others
      | some given =>
          cases unset : draft given.1 with
          | some value =>
              have again : given.1 = field := by
                refine Decidable.byContradiction fun apart => ?_
                have once := others given.1 apart
                simp [timesGiven, unset] at once
              rw [gathered, if_pos (by simp [unset]), again]
          | none =>
              -- What a field has been given counts with what is still to come.
              rw [← timesGiven_put unset] at repeated
              have othersMore other (apart : other ≠ field) :
                  timesGiven (form.put draft given.1 given.2) members other ≤ 1 := by
                rw [timesGiven_put unset]
                exact others other apart
              rw [gathered, ← ih repeated othersMore]
              simp [unset]

/-! ## The texts of members -/

variable (form) (spelled : (field : Field) → List Char → form.Value field → Prop)

/-- A member of an object: a field with a value, or a member that is no field. -/
inductive MemberText : List Char → Option form.Given → Prop
  | known {field : Field} {value : form.Value field} {name space gap text : List Char}
      (named : StringSpelling name (form.name field)) (blank : Blank space) (blankGap : Blank gap)
      (spelling : spelled field text value) :
      MemberText (name ++ (space ++ ':' :: (gap ++ text))) (some ⟨field, value⟩)
  | unknown {written : String} {name space gap text : List Char}
      (named : StringSpelling name written) (noField : form.named? written = none)
      (blank : Blank space) (blankGap : Blank gap) (value : Valid .value text) :
      MemberText (name ++ (space ++ ':' :: (gap ++ text))) none

/-- A form that tells its fields apart by their names, and reads what is spelled. -/
structure Honours : Prop where
  named : ∀ field, form.named? (form.name field) = some field
  spells : ∀ {field text value}, spelled field text value → Spells (form.reader field) text value

variable {form spelled} {first : Bool} {body space rest text : List Char}

section Member

variable {field : Field} {draft : form.Draft} {written : String}

/-- A field that has been read is refused by its name. -/
theorem member_of_present (found : form.named? written = some field)
    (present : (draft field).isSome = true) :
    form.member draft written = .error (.mismatch (.duplicateField written)) := by
  simp [member, found, present]

/-- A field that has not been read is put into the draft. -/
theorem member_of_unset (found : form.named? written = some field)
    (unset : ¬ (draft field).isSome = true) :
    form.member draft written = .ok (Reader.map (form.put draft field) (form.reader field)) := by
  simp [member, found, unset]

end Member

/-- Reading one member gathers what it gives. -/
theorem members_of_member (honours : form.Honours spelled) {one : Option form.Given}
    {lead before : List Char} (leads : Lead first lead) (blank : Blank before)
    (here : form.MemberText spelled text one) (stops : Stops rest) (draft : form.Draft) :
    outcome (members form.member first draft) (lead ++ (before ++ (text ++ rest))) = (do
      let grown ← gathered draft [one]
      outcome (members form.member false grown) rest) := by
  cases here with
  | @known field value name gapName gap text named blankName blankGap spelling =>
      simp only [List.append_assoc, List.cons_append] at *
      by_cases present : (draft field).isSome = true
      · rw [members_of_refused leads blank named (member_of_present (honours.named field) present)]
        simp only [gathered, present, if_true]
        rfl
      · have accepted := member_of_unset (honours.named field) present
        have reads := ((honours.spells spelling).map (form.put draft field)).reads blankGap stops
        rw [members_of_read leads blank named blankName accepted reads]
        simp only [gathered, present, Bool.false_eq_true, if_false]
        rfl
  | @unknown written name gapName gap text named noField blankName blankGap value =>
      simp only [List.append_assoc, List.cons_append] at *
      have accepted : form.member draft written = .ok fun text => (skip text).map (draft, ·) := by
        simp [member, noField]
      have reads : Reads (fun text => (skip text).map (draft, ·)) _ draft _ :=
        (value.skips blankGap stops).keeping draft
      rw [members_of_read leads blank named blankName accepted reads]
      rfl

/-- What members give is gathered one by one. -/
theorem gathered_cons (draft : form.Draft) (one : Option form.Given)
    (given : List (Option form.Given)) :
    gathered draft (one :: given) = (do
      let grown ← gathered draft [one]
      gathered grown given) := by
  cases one with
  | none => rfl
  | some one =>
      simp only [gathered]
      split <;> rfl

/-- Reading the members of an object gathers what they give. -/
theorem members_of_listed (honours : form.Honours spelled) {given : List (Option form.Given)}
    (listed : Listed (form.MemberText spelled) first body given) (blank : Blank space)
    (rest : List Char) (draft : form.Draft) :
    outcome (members form.member first draft) (body ++ (space ++ '\x7d' :: rest)) =
      (gathered draft given).map fun final => (final, rest) := by
  -- The draft grows with each member, so the claim is about every draft to begin with.
  induction listed generalizing draft with
  | @nil first =>
      obtain ⟨left, closes, same⟩ := turn_of_close first blank closing rest
      rw [List.nil_append, outcome, members]
      simp only [closes, taken_ok, same]
      rfl
  | @cons _ _ _ _ _ one given leads blankBefore here more ih =>
      simp only [List.append_assoc]
      rw [gathered_cons,
        members_of_member honours leads blankBefore here (more.stops blank closing rest)]
      cases gathered draft [one] with
      | error fault => rfl
      | ok grown => exact ih grown

/-- A text between brackets that gives the values of the given fields, one after the other. -/
abbrev ListedValues (form : Form Field α)
    (spelled : (field : Field) → List Char → form.Value field → Prop)
    (values : (field : Field) → form.Value field) (first : Bool) (body : List Char)
    (fields : List Field) : Prop :=
  Listed (fun text field => spelled field text (values field)) first body fields

/-- The value of a field is read, and then those of the fields behind it. -/
theorem inOrder_of_entry {lead before : List Char} (leads : Lead first lead) (blank : Blank before)
    (begins : Begins text) (draft : form.Draft) (field : Field) (fields : List Field) :
    outcome (form.inOrder draft first (field :: fields)) (lead ++ (before ++ text)) = (do
      let (value, left) ← outcome (form.reader field) (before ++ text)
      outcome (form.inOrder (form.put draft field value) false fields) left) := by
  have closing : isDelimiter ']' = true := rfl
  obtain ⟨begun, turns, begin⟩ := turn_of_entry closing (by decide) leads blank begins
  have here : outcome (form.reader field) (before ++ text) =
      outcome (form.reader field) begun.val := by rw [begin]
  rw [here, outcome, inOrder]
  simp only [turns, outcome]
  cases form.reader field begun.val with
  | error fault => rfl
  | ok result =>
      obtain ⟨value, left⟩ := result
      simp only [taken_ok, bind, Except.bind]
      cases form.inOrder (form.put draft field value) false fields left.val with
      | error fault => rfl
      | ok result => rfl

/-- Reading the values of fields notes all of them. -/
theorem inOrder_of_listed (honours : form.Honours spelled)
    {values : (field : Field) → form.Value field} {fields : List Field}
    (listed : form.ListedValues spelled values first body fields) (blank : Blank space)
    (rest : List Char) (draft : form.Draft) :
    Reads (form.inOrder draft first fields) (body ++ (space ++ ']' :: rest))
      (noting draft values fields) rest := by
  have closing : isDelimiter ']' = true := rfl
  induction listed generalizing draft with
  | @nil first =>
      have unchanged : noting draft values [] = draft := by
        funext field
        simp [noting]
      have next : Next (space ++ ']' :: rest) ']' rest := next_of_blank blank rfl
      rw [List.nil_append, unchanged]
      exact (expect_of_next next).keeping draft
  | @cons first lead before text later field fields leads blankBefore here more ih =>
      have spells := honours.spells here
      have reads : outcome (form.reader field) _ = _ :=
        spells.reads blankBefore (more.stops blank closing rest)
      have readsMore := ih (form.put draft field (values field))
      rw [noting_put] at readsMore
      simp only [List.append_assoc]
      rw [Reads, inOrder_of_entry leads blankBefore (spells.begins.append _), reads]
      exact readsMore

/-! ## Whole records -/

omit [DecidableEq Field] in
/-- A draft that has all values that are no defaults is the record of the values. -/
theorem complete_of_filled {draft : form.Draft} {values : (field : Field) → form.Value field}
    (filled : ∀ field, form.filled draft field = some (values field)) :
    form.complete draft = .ok (form.make values) := by
  unfold complete
  split
  · rename_i field missing
    have absent := List.find?_some missing
    simp [filled] at absent
  · congr
    funext field
    simp [filled]

omit [DecidableEq Field] in
/-- A draft is the record of its values and of the defaults for the others. -/
theorem complete_eq_ok {record : α} (completed : form.complete draft = .ok record) :
    ∃ values, (∀ field, form.filled draft field = some (values field)) ∧
      record = form.make values := by
  unfold complete at completed
  split at completed
  · cases completed
  · cases completed
    exact ⟨_, fun field => (Option.some_get _).symm, rfl⟩

omit [DecidableEq Field] in
/-- A draft misses the first field that has neither a value nor a default. -/
theorem complete_of_missing {field : Field}
    (missing : (form.fields.find? fun field => (form.filled draft field).isNone) = some field) :
    form.complete draft = .error (.mismatch (.missingField (form.name field))) := by
  unfold complete
  split
  · rename_i found
    rw [missing] at found
    cases found
    rfl
  · rename_i found
    rw [missing] at found
    cases found

theorem filled_noting {values : (field : Field) → form.Value field} {fields : List Field}
    (left : ∀ field ∉ fields, form.default? field = some (values field)) (field : Field) :
    form.filled (noting form.blank values fields) field = some (values field) := by
  by_cases inside : field ∈ fields
  · simp [Form.filled, noting, inside]
  · simp [Form.filled, noting, inside, Form.blank, left field inside]

variable (form spelled) in
/-- A spelling of a record.  An object gives every field at most once and every field whose value
is no default, among members that are no fields; an array gives every field in order. -/
inductive RecordText (values : (field : Field) → form.Value field) : List Char → Prop
  | object {body space : List Char} {given : List (Option form.Given)}
      (listed : Listed (form.MemberText spelled) true body given) (blank : Blank space)
      (distinct : (fieldsOf given).Nodup)
      (agree : ∀ one, some one ∈ given → one.2 = values one.1)
      (left : ∀ field ∉ fieldsOf given, form.default? field = some (values field)) :
      RecordText values ('\x7b' :: (body ++ (space ++ ['\x7d'])))
  | array {body space : List Char}
      (listed : form.ListedValues spelled values true body form.fields) (blank : Blank space) :
      RecordText values ('[' :: (body ++ (space ++ [']'])))

/-- Behind a brace stand members, and what they give is completed. -/
theorem read_of_brace {before : List Char} (blank : Blank before) (rest : List Char) :
    outcome form.read (before ++ '\x7b' :: rest) = do
      let (draft, left) ← outcome (members form.member true form.blank) rest
      let record ← form.complete draft
      return (record, left) := by
  have next : Next (before ++ '\x7b' :: rest) '\x7b' rest := next_of_blank blank rfl
  obtain ⟨left, found, same⟩ := next
  have behind : outcome (members form.member true form.blank) rest =
      outcome (members form.member true form.blank) left.val := by rw [same]
  have noArray : '\x7b' ≠ '[' := by decide
  rw [behind]
  unfold outcome Form.read
  rw [found]
  simp only [if_neg noArray, if_true, bind, Except.bind]
  cases members form.member true form.blank left.val with
  | error fault => rfl
  | ok result =>
      simp only [taken, Except.map]
      cases form.complete result.1 with
      | error fault => rfl
      | ok record => rfl

/-- Behind a bracket stand the values of fields in their order, and they are completed. -/
theorem read_of_bracket {before : List Char} (blank : Blank before) (rest : List Char) :
    outcome form.read (before ++ '[' :: rest) = do
      let (draft, left) ← outcome (form.inOrder form.blank true form.fields) rest
      let record ← form.complete draft
      return (record, left) := by
  have next : Next (before ++ '[' :: rest) '[' rest := next_of_blank blank rfl
  obtain ⟨left, found, same⟩ := next
  have behind : outcome (form.inOrder form.blank true form.fields) rest =
      outcome (form.inOrder form.blank true form.fields) left.val := by rw [same]
  rw [behind]
  unfold outcome Form.read
  rw [found]
  simp only [if_true, bind, Except.bind]
  cases form.inOrder form.blank true form.fields left.val with
  | error fault => rfl
  | ok result =>
      simp only [taken, Except.map]
      cases form.complete result.1 with
      | error fault => rfl
      | ok record => rfl

/-- An object is read as the record of what its members give, if they give one. -/
theorem read_of_object (honours : form.Honours spelled) {before : List Char}
    {given : List (Option form.Given)} (listed : Listed (form.MemberText spelled) true body given)
    (blankBefore : Blank before) (blank : Blank space) (rest : List Char) :
    outcome form.read (before ++ '\x7b' :: (body ++ (space ++ '\x7d' :: rest))) = do
      let draft ← gathered form.blank given
      let record ← form.complete draft
      return (record, rest) := by
  rw [read_of_brace blankBefore, members_of_listed honours listed blank]
  cases gathered form.blank given <;> rfl

/-- Every spelling of a record is read as the record. -/
theorem RecordText.spells (honours : form.Honours spelled)
    {values : (field : Field) → form.Value field} (spelling : form.RecordText spelled values text) :
    Spells form.read text (form.make values) := by
  cases spelling with
  | @object body space given listed blank distinct agree left =>
      refine ⟨⟨'\x7b', _, rfl, rfl, rfl⟩, @fun before rest blankBefore _ => ?_⟩
      have all : gathered form.blank given = .ok (noting form.blank values (fieldsOf given)) :=
        gathered_of_distinct distinct (fun _ _ => rfl) agree
      have shape : before ++ ('\x7b' :: (body ++ (space ++ ['\x7d'])) ++ rest) =
          before ++ '\x7b' :: (body ++ (space ++ '\x7d' :: rest)) := by simp
      rw [shape]
      unfold Reads
      rw [read_of_object honours listed blankBefore blank rest, all]
      simp only [bind, Except.bind, complete_of_filled (filled_noting left)]
      rfl
  | @array body space listed blank =>
      refine ⟨⟨'[', _, rfl, rfl, rfl⟩, @fun before rest blankBefore _ => ?_⟩
      have reads : outcome _ _ = _ := inOrder_of_listed honours listed blank rest form.blank
      have shape : before ++ ('[' :: (body ++ (space ++ [']'])) ++ rest) =
          before ++ '[' :: (body ++ (space ++ ']' :: rest)) := by simp
      have filled : ∀ field, form.filled (noting form.blank values form.fields) field =
          some (values field) :=
        filled_noting fun field outside => absurd (form.every field) outside
      rw [shape]
      unfold Reads
      rw [read_of_bracket blankBefore, reads]
      simp only [bind, Except.bind, complete_of_filled filled]
      rfl

/-- An object that gives one field again is refused for that field, whatever follows it. -/
theorem whole_of_repeated (honours : form.Honours spelled) {before after : List Char}
    {given : List (Option form.Given)} (listed : Listed (form.MemberText spelled) true body given)
    (blankBefore : Blank before) (blank : Blank space) {field : Field}
    (repeated : 2 ≤ (fieldsOf given).count field)
    (others : ∀ other ≠ field, (fieldsOf given).count other ≤ 1) :
    whole form.read (String.ofList (before ++ '\x7b' :: (body ++ (space ++ '\x7d' :: after)))) =
      .error (.mismatch (.duplicateField (form.name field))) := by
  have refused : gathered form.blank given =
      .error (.mismatch (.duplicateField (form.name field))) := by
    refine gathered_of_repeated ?_ fun other apart => ?_
    · simpa [timesGiven, Form.blank] using repeated
    · simpa [timesGiven, Form.blank] using others other apart
  have reads := read_of_object honours listed blankBefore blank after
  rw [refused] at reads
  exact whole_of_error reads

end Form

end MessageStore.Json
