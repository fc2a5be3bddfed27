import Mathlib.Data.List.Nodup
import MessageStore.Proofs.Json.Entries

/-!
# Objects that are read as records

What an object is read as is settled by its members: it is a record exactly if
every member has a name, no field is given twice, every value that is given for a
field is one of its values, and no field is missing that has no default.  The
values of the record are those that are given, and defaults for the others.
-/

namespace MessageStore.Json.Form

variable {Field α : Type} {form : Form Field α}
  {decodes : (field : Field) → List Char → form.Value field → Prop}
  {entries : List (Option String × List Char)} {text body before space : List Char} {first : Bool}

/-- A form that tells its fields apart by their names, with the values that the readers of its
fields take from texts. -/
structure Judges (form : Form Field α)
    (decodes : (field : Field) → List Char → form.Value field → Prop) : Prop where
  named : ∀ field, form.named? (form.name field) = some field
  decides : ∀ field, Decides (form.reader field) (decodes field)

/-- What a member gives: a value of a field, or nothing if its name is no field's. -/
inductive Gives (form : Form Field α)
    (decodes : (field : Field) → List Char → form.Value field → Prop) :
    Option String × List Char → Option form.Given → Prop
  | field {field : Field} {text : List Char} {value : form.Value field}
      (decoded : decodes field text value) :
      Gives form decodes (some (form.name field), text) (some ⟨field, value⟩)
  | other {written : String} {text : List Char} (noField : form.named? written = none) :
      Gives form decodes (some written, text) none

/-- The names of the members. -/
abbrev names (entries : List (Option String × List Char)) : List (Option String) :=
  entries.map Prod.fst

/-! ## What members give -/

theorem Judges.name_injective (judges : form.Judges decodes) {field other : Field}
    (same : form.name field = form.name other) : field = other := by
  have named := judges.named field
  rw [same, judges.named other] at named
  exact (Option.some.inj named).symm

/-- A name is that of a field, or of none. -/
theorem named?_cases (form : Form Field α) (written : String) :
    (∃ field, form.named? written = some field ∧ written = form.name field) ∨
      form.named? written = none := by
  cases found : form.named? written with
  | none => exact .inr rfl
  | some field =>
      have same := List.find?_some found
      exact .inl ⟨field, rfl, (beq_iff_eq.mp same).symm⟩

section Given

variable {given : List (Option form.Given)}

/-- Every member gives something if it has a name and a value for the field of that name. -/
theorem exists_given (named : none ∉ names entries)
    (typed : ∀ field text, (some (form.name field), text) ∈ entries →
      ∃ value, decodes field text value) :
    ∃ given, List.Forall₂ (form.Gives decodes) entries given := by
  induction entries with
  | nil => exact ⟨[], .nil⟩
  | cons entry entries ih =>
      obtain ⟨name, text⟩ := entry
      obtain ⟨apart, namedMore⟩ := not_or.mp (mt List.mem_cons.mpr named)
      obtain ⟨given, gives⟩ := ih namedMore fun field text inside =>
        typed field text (List.mem_cons_of_mem _ inside)
      cases name with
      | none => exact absurd rfl apart
      | some written =>
          rcases form.named?_cases written with ⟨field, -, rfl⟩ | noField
          · obtain ⟨value, decoded⟩ := typed field text List.mem_cons_self
            exact ⟨_, .cons (.field decoded) gives⟩
          · exact ⟨_, .cons (.other noField) gives⟩

theorem named_of_gives (gives : List.Forall₂ (form.Gives decodes) entries given) :
    none ∉ names entries := by
  induction gives with
  | nil => nofun
  | cons here _ ih =>
      cases here <;> simpa using ih

/-- A value that is given is the value of a member. -/
theorem exists_entry (gives : List.Forall₂ (form.Gives decodes) entries given) {one : form.Given}
    (inside : some one ∈ given) :
    ∃ text, (some (form.name one.1), text) ∈ entries ∧ decodes one.1 text one.2 := by
  induction gives with
  | nil => cases inside
  | cons here _ ih =>
      cases inside with
      | head =>
          cases here with
          | field decoded => exact ⟨_, List.mem_cons_self, decoded⟩
      | tail _ inside =>
          obtain ⟨text, member, decoded⟩ := ih inside
          exact ⟨text, List.mem_cons_of_mem _ member, decoded⟩

/-- The member of a field gives a value of the field. -/
theorem exists_value (judges : form.Judges decodes)
    (gives : List.Forall₂ (form.Gives decodes) entries given) {field : Field}
    (inside : (some (form.name field), text) ∈ entries) :
    ∃ value, some ⟨field, value⟩ ∈ given ∧ decodes field text value := by
  induction gives with
  | nil => cases inside
  | @cons entry one entries given here _ ih =>
      cases inside with
      | tail _ inside =>
          obtain ⟨value, member, decoded⟩ := ih inside
          exact ⟨value, List.mem_cons_of_mem _ member, decoded⟩
      | head =>
          generalize same : (some (form.name field), text) = entry at here
          cases here with
          | @field other _ value decoded =>
              obtain ⟨name, rfl⟩ := Prod.mk.inj same
              cases judges.name_injective (Option.some.inj name)
              exact ⟨value, List.mem_cons_self, decoded⟩
          | other noField =>
              rw [← Option.some.inj (Prod.mk.inj same).1, judges.named] at noField
              cases noField

/-- A field is given as often as its name occurs. -/
theorem count_fieldsOf [DecidableEq Field] (judges : form.Judges decodes)
    (gives : List.Forall₂ (form.Gives decodes) entries given) (field : Field) :
    (fieldsOf given).count field = (names entries).count (some (form.name field)) := by
  induction gives with
  | nil => rfl
  | cons here _ ih =>
      cases here with
      | @field other _ _ _ =>
          have same : form.name other = form.name field ↔ other = field :=
            ⟨judges.name_injective, congrArg form.name⟩
          simp only [fieldsOf_some, List.map_cons, List.count_cons, ih, beq_iff_eq,
            Option.some.injEq, same]
      | @other written _ noField =>
          have apart : written ≠ form.name field := by
            rintro rfl
            rw [judges.named] at noField
            cases noField
          simp only [fieldsOf_none, List.map_cons, ih]
          rw [List.count_cons_of_ne fun same => apart (Option.some.inj same)]

end Given

/-! ## Reading what members give -/

section Reading

/-- The texts of a field's value are those from which its reader takes one. -/
abbrev Taken (form : Form Field α) (field : Field) (text : List Char) (value : form.Value field) :
    Prop :=
  Spells (form.reader field) text value

theorem Judges.honours (judges : form.Judges decodes) : form.Honours form.Taken :=
  ⟨judges.named, id⟩

theorem memberText_of_gives (judges : form.Judges decodes) {entry : Option String × List Char}
    {one : Option form.Given} (here : EntryText text entry) (gives : form.Gives decodes entry one) :
    form.MemberText form.Taken text one := by
  cases here with
  | nameless _ _ _ _ _ => cases gives
  | named named blank blankGap valid =>
      cases gives with
      | field decoded =>
          exact .known named blank blankGap (((judges.decides _).decodes_iff valid).mp decoded)
      | other noField => exact .unknown named noField blank blankGap valid

theorem listed_of_gives (judges : form.Judges decodes) {given : List (Option form.Given)}
    (listed : Listed EntryText first body entries)
    (gives : List.Forall₂ (form.Gives decodes) entries given) :
    Listed (form.MemberText form.Taken) first body given := by
  induction listed generalizing given with
  | nil =>
      cases gives
      exact .nil
  | cons leads blank here _ ih =>
      cases gives with
      | cons gives givesMore =>
          exact .cons leads blank (memberText_of_gives judges here gives) (ih givesMore)

variable [DecidableEq Field]

/-- A member that gives nothing to go on with is refused. -/
theorem gives_or_refused (judges : form.Judges decodes) {entry : Option String × List Char}
    (here : EntryText text entry) :
    (∃ one, form.Gives decodes entry one) ∨
      ∀ {first : Bool} {lead before rest : List Char}, Lead first lead → Blank before → Stops rest →
        ∀ draft, ∃ fault,
          outcome (members form.member first draft) (lead ++ (before ++ (text ++ rest))) =
            .error fault := by
  cases here with
  | @nameless name space gap text skipped lone blankSpace blankGap valid =>
      refine .inr fun {first lead before rest} leads blank _ draft => ?_
      obtain ⟨fault, refused⟩ :=
        string_of_lone skipped lone blank (space ++ ':' :: (gap ++ (text ++ rest)))
      refine ⟨fault, ?_⟩
      simp only [List.cons_append, List.append_assoc]
      rw [members_of_entry leads blank, refused]
      rfl
  | @named name space gap text written named blankSpace blankGap valid =>
      rcases form.named?_cases written with ⟨field, found, rfl⟩ | noField
      · rcases (judges.decides field).settles valid with ⟨value, spells⟩ | refuses
        · exact .inl ⟨_, .field (((judges.decides field).decodes_iff valid).mpr spells)⟩
        · refine .inr fun {first lead before rest} leads blank stops draft => ?_
          simp only [List.cons_append, List.append_assoc]
          by_cases present : (draft field).isSome = true
          · have refused := member_of_present found present
            exact ⟨_, members_of_refused leads blank named refused _⟩
          · have accepted := member_of_unset found present
            obtain ⟨fault, refused⟩ := refuses.map (form.put draft field) gap rest blankGap stops
            refine ⟨fault, ?_⟩
            rw [members_of_accepted leads blank named blankSpace accepted, refused]
            rfl
      · exact .inl ⟨none, .other noField⟩

/-- Members that give nothing to go on with are refused, whatever stands before and behind them. -/
theorem given_or_refused (judges : form.Judges decodes)
    (listed : Listed EntryText first body entries) :
    (∃ given, List.Forall₂ (form.Gives decodes) entries given) ∨
      ∀ space rest : List Char, Blank space → ∀ draft, ∃ fault,
        outcome (members form.member first draft) (body ++ (space ++ '\x7d' :: rest)) =
          .error fault := by
  induction listed with
  | nil => exact .inl ⟨[], .nil⟩
  | @cons first lead before text later entry entries leads blank here more ih =>
      have stops {space : List Char} (blankSpace : Blank space) (rest : List Char) :
          Stops (later ++ (space ++ '\x7d' :: rest)) := more.stops blankSpace rfl rest
      simp only [List.append_assoc]
      rcases gives_or_refused judges here with ⟨one, gives⟩ | refused
      · rcases ih with ⟨given, givesMore⟩ | refused
        · exact .inl ⟨one :: given, .cons gives givesMore⟩
        · refine .inr fun space rest blankSpace draft => ?_
          have member := memberText_of_gives judges here gives
          rw [members_of_member judges.honours leads blank member (stops blankSpace rest)]
          cases gathered draft [one] with
          | error fault => exact ⟨fault, rfl⟩
          | ok grown => exact refused space rest blankSpace grown
      · refine .inr fun space rest blankSpace draft => ?_
        exact refused leads blank (stops blankSpace rest) draft

variable {before : List Char}

/-- An object is read as the record of what its members give. -/
theorem read_of_given (judges : form.Judges decodes) (object : ObjectText text entries)
    {given : List (Option form.Given)} (gives : List.Forall₂ (form.Gives decodes) entries given)
    (blank : Blank before) (rest : List Char) :
    outcome form.read (before ++ (text ++ rest)) = do
      let draft ← gathered form.blank given
      let record ← form.complete draft
      return (record, rest) := by
  cases object with
  | @braces body space _ listed blankSpace =>
      have read := read_of_object judges.honours (listed_of_gives judges listed gives) blank
        blankSpace rest
      simpa using read

/-- An object whose members give nothing to go on with is refused. -/
theorem read_or_refused (judges : form.Judges decodes) (object : ObjectText text entries) :
    (∃ given, List.Forall₂ (form.Gives decodes) entries given) ∨
      ∀ before rest : List Char, Blank before →
        ∃ fault, outcome form.read (before ++ (text ++ rest)) = .error fault := by
  cases object with
  | @braces body space _ listed blankSpace =>
      refine (given_or_refused judges listed).imp_right fun refused before rest blank => ?_
      obtain ⟨fault, failed⟩ := refused space rest blankSpace form.blank
      refine ⟨fault, ?_⟩
      simp only [List.cons_append, List.append_assoc, List.nil_append]
      rw [read_of_brace blank, failed]
      rfl

end Reading

/-! ## Records of what is given -/

section Records

variable [DecidableEq Field] {given : List (Option form.Given)} {draft final : form.Draft}

theorem put_eq_some_iff {field other : Field} {value : form.Value field} {known : form.Value other}
    (unset : draft field = none) : form.put draft field value other = some known ↔
      draft other = some known ∨ (⟨other, known⟩ : form.Given) = ⟨field, value⟩ := by
  by_cases same : field = other
  · subst same
    simp [put_self, unset, eq_comm]
  · simp [put_of_ne draft same, Ne.symm same]

/-- What has been gathered is what was known and what is given, and no field of it twice. -/
theorem gathered_eq_ok (all : gathered draft given = .ok final) :
    (fieldsOf given).Nodup ∧ (∀ field ∈ fieldsOf given, draft field = none) ∧
      ∀ field value, final field = some value ↔
        draft field = some value ∨ some ⟨field, value⟩ ∈ given := by
  induction given generalizing draft with
  | nil =>
      cases all
      simp
  | cons one given ih =>
      cases one with
      | none => simpa using ih all
      | some one =>
          obtain ⟨field, value⟩ := one
          rw [gathered] at all
          split at all
          · cases all
          · rename_i free
            have unset : draft field = none := by simpa using free
            obtain ⟨distinct, fresh, values⟩ := ih all
            have apart : field ∉ fieldsOf given := by
              intro inside
              have none := fresh field inside
              rw [put_self] at none
              cases none
            refine ⟨List.nodup_cons.mpr ⟨apart, distinct⟩, ?_, fun other known => ?_⟩
            · refine List.forall_mem_cons.mpr ⟨unset, fun other inside => ?_⟩
              have different : field ≠ other := fun same => apart (same ▸ inside)
              rw [← put_of_ne draft different value]
              exact fresh other inside
            · rw [values, put_eq_some_iff unset, or_assoc, List.mem_cons, Option.some.injEq]

/-- Fields that are given once each are gathered. -/
theorem exists_gathered (distinct : (fieldsOf given).Nodup)
    (fresh : ∀ field ∈ fieldsOf given, draft field = none) :
    ∃ final, gathered draft given = .ok final := by
  induction given generalizing draft with
  | nil => exact ⟨draft, rfl⟩
  | cons one given ih =>
      cases one with
      | none => exact ih distinct fresh
      | some one =>
          obtain ⟨unset, freshMore⟩ := List.forall_mem_cons.mp fresh
          obtain ⟨apart, distinctMore⟩ := List.nodup_cons.mp distinct
          rw [gathered, if_neg (by simp [unset])]
          refine ih distinctMore fun other inside => ?_
          have different : one.1 ≠ other := by
            rintro rfl
            exact apart inside
          rw [put_of_ne draft different]
          exact freshMore other inside

/-! ## Objects and their records -/

/-- Nothing is wrong with the members of an object: every one has a name, no field is given twice,
and what is given for a field is one of its values. -/
structure Suits (form : Form Field α)
    (decodes : (field : Field) → List Char → form.Value field → Prop)
    (entries : List (Option String × List Char)) : Prop where
  named : none ∉ names entries
  once : ∀ field, (names entries).count (some (form.name field)) ≤ 1
  typed : ∀ field text, (some (form.name field), text) ∈ entries → ∃ value, decodes field text value

/-- What the members of an object decode to: every one has a name, no field is given twice, what
is given is a value of its field, and a field that is not given has its default. -/
structure Decoded (form : Form Field α)
    (decodes : (field : Field) → List Char → form.Value field → Prop)
    (entries : List (Option String × List Char)) (values : (field : Field) → form.Value field) :
    Prop where
  named : none ∉ names entries
  once : ∀ field, (names entries).count (some (form.name field)) ≤ 1
  given : ∀ field text, (some (form.name field), text) ∈ entries → decodes field text (values field)
  left : ∀ field, some (form.name field) ∉ names entries →
    form.default? field = some (values field)

variable {before after : List Char}

/-- What is gathered of the members of an object. -/
theorem gathered_of_entries (judges : form.Judges decodes)
    (gives : List.Forall₂ (form.Gives decodes) entries given)
    (once : ∀ field, (names entries).count (some (form.name field)) ≤ 1) :
    ∃ final, gathered form.blank given = .ok final := by
  refine exists_gathered (List.nodup_iff_count_le_one.mpr fun field => ?_) fun _ _ => rfl
  rw [count_fieldsOf judges gives]
  exact once field

section Draft

variable (judges : form.Judges decodes) (valid : ∀ entry ∈ entries, Valid .value entry.2)
  (gives : List.Forall₂ (form.Gives decodes) entries given)
  (all : gathered form.blank given = .ok final) {field : Field}

include judges valid gives all

/-- What is gathered for a field is what its member decodes to. -/
theorem draft_eq_some_iff {value : form.Value field} : final field = some value ↔
    ∃ text, (some (form.name field), text) ∈ entries ∧ decodes field text value := by
  have known := (gathered_eq_ok all).2.2 field value
  rw [known, Form.blank]
  constructor
  · rintro (none | isGiven)
    · cases none
    · exact exists_entry gives isGiven
  · rintro ⟨text, inside, decoded⟩
    obtain ⟨other, isGiven, here⟩ := exists_value judges gives inside
    rw [(judges.decides field).unique (valid _ inside) decoded here]
    exact .inr isGiven

/-- Nothing is gathered for a field that no member names. -/
theorem draft_eq_none_iff : final field = none ↔ some (form.name field) ∉ names entries := by
  constructor
  · intro none inside
    obtain ⟨⟨_, text⟩, member, rfl⟩ := List.mem_map.mp inside
    obtain ⟨value, -, decoded⟩ := exists_value judges gives member
    have found := (draft_eq_some_iff judges valid gives all).mpr ⟨text, member, decoded⟩
    cases none.symm.trans found
  · refine fun outside => Option.eq_none_iff_forall_ne_some.mpr fun value found => ?_
    obtain ⟨text, inside, -⟩ := (draft_eq_some_iff judges valid gives all).mp found
    exact outside (List.mem_map_of_mem inside)

/-- A draft of what is given is filled with what the members decode to, and with nothing else. -/
theorem filled_iff_decoded {values : (field : Field) → form.Value field} :
    (∀ field, form.filled final field = some (values field)) ↔
      form.Decoded decodes entries values := by
  constructor
  · intro filled
    refine ⟨named_of_gives gives, fun field => ?_, fun field text inside => ?_,
      fun field outside => ?_⟩
    · rw [← count_fieldsOf judges gives]
      exact List.nodup_iff_count_le_one.mp (gathered_eq_ok all).1 field
    · obtain ⟨value, -, decoded⟩ := exists_value judges gives inside
      have found := (draft_eq_some_iff judges valid gives all).mpr ⟨text, inside, decoded⟩
      have same := filled field
      rw [Form.filled, found] at same
      rwa [← Option.some.inj same]
    · have same := filled field
      rwa [Form.filled, (draft_eq_none_iff judges valid gives all).mpr outside] at same
  · intro decoded field
    by_cases inside : some (form.name field) ∈ names entries
    · obtain ⟨⟨_, text⟩, member, rfl⟩ := List.mem_map.mp inside
      have here := decoded.given field text member
      rw [Form.filled, (draft_eq_some_iff judges valid gives all).mpr ⟨text, member, here⟩]
      rfl
    · rw [Form.filled, (draft_eq_none_iff judges valid gives all).mpr inside]
      exact decoded.left field inside

/-- A field is missing if no member names it and it has no default. -/
theorem isNone_filled (field : Field) : (form.filled final field).isNone =
    decide (form.default? field = none ∧ some (form.name field) ∉ names entries) := by
  rw [Bool.eq_iff_iff, Option.isNone_iff_eq_none, Form.filled, Option.or_eq_none_iff,
    draft_eq_none_iff judges valid gives all, decide_eq_true_iff, and_comm]

end Draft

/-- Members decode to something if nothing is wrong with them and no field is missing. -/
theorem exists_decoded_iff (judges : form.Judges decodes)
    (valid : ∀ entry ∈ entries, Valid .value entry.2) :
    (∃ values, form.Decoded decodes entries values) ↔
      form.Suits decodes entries ∧
        ∀ field, form.default? field = none → some (form.name field) ∈ names entries := by
  constructor
  · rintro ⟨values, decoded⟩
    refine ⟨⟨decoded.named, decoded.once, fun field text inside => ?_⟩, fun field required => ?_⟩
    · exact ⟨values field, decoded.given field text inside⟩
    · refine Decidable.byContradiction fun outside => ?_
      cases required.symm.trans (decoded.left field outside)
  · rintro ⟨suits, required⟩
    obtain ⟨given, gives⟩ := exists_given suits.named suits.typed
    obtain ⟨draft, all⟩ := gathered_of_entries judges gives suits.once
    have filled (field : Field) : (form.filled draft field).isSome = true := by
      have present := isNone_filled judges valid gives all field
      rw [decide_eq_false fun ⟨noDefault, outside⟩ => outside (required field noDefault)] at present
      exact Option.isNone_eq_false_iff.mp present
    exact ⟨fun field => (form.filled draft field).get (filled field),
      (filled_iff_decoded judges valid gives all).mp fun field => (Option.some_get _).symm⟩

/-- An object is read as the record that its members decode to, and as nothing if they do not. -/
theorem whole_eq_ok_iff (judges : form.Judges decodes) (object : ObjectText text entries)
    (blank : Blank before) (blankAfter : Blank after) {record : α} :
    whole form.read (String.ofList (before ++ (text ++ after))) = .ok record ↔
      ∃ values, form.Decoded decodes entries values ∧ record = form.make values := by
  have valid := object.forall_valid
  have ended : (next? after).isSome = false := by rw [next?_of_blank blankAfter]; rfl
  rw [whole_ofList]
  constructor
  · intro read
    rcases read_or_refused judges object with ⟨given, gives⟩ | refused
    · rw [read_of_given judges object gives blank] at read
      cases all : gathered form.blank given with
      | error fault =>
          rw [all] at read
          cases read
      | ok draft =>
          cases completed : form.complete draft with
          | error fault =>
              simp only [all, bind, Except.bind, completed] at read
              cases read
          | ok other =>
              simp only [all, bind, Except.bind, completed, pure, Except.pure, ended,
                Bool.false_eq_true, if_false, Except.ok.injEq] at read
              obtain ⟨values, filled, rfl⟩ := complete_eq_ok completed
              exact ⟨values, (filled_iff_decoded judges valid gives all).mp filled, read.symm⟩
    · obtain ⟨fault, failed⟩ := refused before after blank
      rw [failed] at read
      cases read
  · rintro ⟨values, decoded, rfl⟩
    obtain ⟨given, gives⟩ := exists_given decoded.named fun field text inside =>
      ⟨values field, decoded.given field text inside⟩
    obtain ⟨draft, all⟩ := gathered_of_entries judges gives decoded.once
    have filled := (filled_iff_decoded judges valid gives all).mpr decoded
    rw [read_of_given judges object gives blank]
    simp only [all, bind, Except.bind, complete_of_filled filled, pure, Except.pure, ended,
      Bool.false_eq_true, if_false]

/-- An object without anything wrong but that fields are missing is refused for the first of
them. -/
theorem whole_of_missing (judges : form.Judges decodes) (object : ObjectText text entries)
    (blank : Blank before) (suits : form.Suits decodes entries) {field : Field}
    (missing : (form.fields.find? fun field =>
      form.default? field = none ∧ some (form.name field) ∉ names entries) = some field)
    (after : List Char) :
    whole form.read (String.ofList (before ++ (text ++ after))) =
      .error (.mismatch (.missingField (form.name field))) := by
  obtain ⟨given, gives⟩ := exists_given suits.named suits.typed
  obtain ⟨draft, all⟩ := gathered_of_entries judges gives suits.once
  simp only [← isNone_filled judges object.forall_valid gives all] at missing
  refine whole_of_error ?_
  rw [read_of_given judges object gives blank, all]
  simp only [bind, Except.bind, complete_of_missing missing]

/-- An object with anything but blanks behind it is refused. -/
theorem whole_of_tail (judges : form.Judges decodes) (object : ObjectText text entries)
    (blank : Blank before) (solid : ¬ Blank after) :
    ∃ fault, whole form.read (String.ofList (before ++ (text ++ after))) = .error fault := by
  have more : (next? after).isSome = true := by
    exact Option.isSome_iff_ne_none.mpr (mt next?_eq_none_iff.mp solid)
  rw [whole_ofList]
  rcases read_or_refused judges object with ⟨given, gives⟩ | refused
  · rw [read_of_given judges object gives blank]
    cases gathered form.blank given with
    | error fault => exact ⟨fault, rfl⟩
    | ok draft =>
        simp only [bind, Except.bind]
        cases form.complete draft with
        | error fault => exact ⟨fault, rfl⟩
        | ok record => exact ⟨.malformed, if_pos more⟩
  · obtain ⟨fault, failed⟩ := refused before after blank
    rw [failed]
    exact ⟨fault, rfl⟩

end Records

/-! ## Forms that decide -/

section Deciding

variable [DecidableEq Field] {texts : List (List Char)}

theorem inOrder_nil (draft : form.Draft) (first : Bool) (text : List Char) :
    outcome (form.inOrder draft first []) text = (remaining (expect ']' text)).map (draft, ·) := by
  unfold outcome inOrder
  cases expect ']' text <;> rfl

/-- Values of fields are read one by one, or refused whatever stands behind them. -/
theorem inOrder_or_refused (judges : form.Judges decodes)
    (listed : Listed ItemText first body texts) (draft : form.Draft) (fields : List Field) :
    (∃ final, ∀ space rest : List Char, Blank space →
      outcome (form.inOrder draft first fields) (body ++ (space ++ ']' :: rest)) =
        .ok (final, rest)) ∨
      ∀ space rest : List Char, Blank space → ∃ fault,
        outcome (form.inOrder draft first fields) (body ++ (space ++ ']' :: rest)) =
          .error fault := by
  -- The fields that are left grow fewer with the items, and the draft is filled with them.
  induction listed generalizing draft fields with
  | @nil first =>
      cases fields with
      | nil =>
          refine .inl ⟨draft, fun space rest blank => ?_⟩
          have next : Next (space ++ ']' :: rest) ']' rest := next_of_blank blank rfl
          exact (expect_of_next next).keeping draft
      | cons field fields =>
          have closing : isDelimiter ']' = true := rfl
          have closes (space rest : List Char) (blank : Blank space) :=
            turn_of_close first blank closing rest
          cases omitted : (field :: fields).all fun field => (form.default? field).isSome with
          | true =>
              refine .inl ⟨draft, fun space rest blank => ?_⟩
              obtain ⟨left, turns, same⟩ := closes space rest blank
              rw [List.nil_append, outcome, inOrder]
              simp only [turns, omitted, if_true, taken_ok, same]
          | false =>
              refine .inr fun space rest blank => ⟨.mismatch .invalidLength, ?_⟩
              obtain ⟨left, turns, same⟩ := closes space rest blank
              rw [List.nil_append, outcome, inOrder]
              simp only [turns, omitted, Bool.false_eq_true, if_false, taken_error]
  | @cons first lead before text later _ texts leads blankBefore here more ih =>
      cases here with
      | value valid =>
          simp only [List.append_assoc]
          cases fields with
          | nil =>
              refine .inr fun space rest blank => ⟨.malformed, ?_⟩
              obtain ⟨c, behind, next, other⟩ := next_of_entry ']' rfl (by decide) leads
                blankBefore (valid.begins.append (later ++ (space ++ ']' :: rest)))
              rw [inOrder_nil, remaining_of_other next other]
              rfl
          | cons field fields =>
              have stops {space : List Char} (blank : Blank space) (rest : List Char) :
                  Stops (later ++ (space ++ ']' :: rest)) := more.stops blank rfl rest
              have step (space rest : List Char) := inOrder_of_entry leads blankBefore
                (valid.begins.append (later ++ (space ++ ']' :: rest))) draft field fields
              rcases (judges.decides field).settles valid with ⟨value, spells⟩ | refuses
              · have reads {space : List Char} (blank : Blank space) (rest : List Char) :
                    outcome (form.reader field) _ = _ := spells.reads blankBefore (stops blank rest)
                refine (ih (form.put draft field value) fields).imp ?_ ?_
                · rintro ⟨final, readsMore⟩
                  refine ⟨final, fun space rest blank => ?_⟩
                  rw [step, reads blank]
                  exact readsMore space rest blank
                · refine fun refused space rest blank => ?_
                  rw [step, reads blank]
                  exact refused space rest blank
              · refine .inr fun space rest blank => ?_
                obtain ⟨fault, failed⟩ := refuses before _ blankBefore (stops blank rest)
                rw [step, failed]
                exact ⟨fault, rfl⟩

/-- A record is read from its object or from its array, and other values are no record. -/
theorem settles (judges : form.Judges decodes) (valid : Valid .value text) :
    Settles form.read text := by
  obtain ⟨c, later, rfl, solid⟩ := valid.exists_first
  by_cases brace : c = '\x7b'
  · subst brace
    obtain ⟨entries, object⟩ := valid.exists_entries
    rcases read_or_refused judges object with ⟨given, gives⟩ | refused
    · refine settles_of_outcome ⟨'\x7b', later, rfl, rfl, rfl⟩
        ((gathered form.blank given).bind form.complete) fun before rest blank => ?_
      rw [read_of_given judges object gives blank]
      cases gathered form.blank given <;> rfl
    · exact .inr fun before rest blank _ => refused before rest blank
  by_cases bracket : c = '['
  · subst bracket
    obtain ⟨body, space, texts, listed, blankSpace, rfl⟩ := valid.exists_items
    have shape (before rest : List Char) : before ++ ('[' :: (body ++ (space ++ [']'])) ++ rest) =
        before ++ '[' :: (body ++ (space ++ ']' :: rest)) := by simp
    rcases inOrder_or_refused judges listed form.blank form.fields with ⟨final, reads⟩ | refused
    · refine settles_of_outcome ⟨'[', _, rfl, rfl, rfl⟩ (form.complete final)
        fun before rest blank => ?_
      rw [shape, read_of_bracket blank, reads space rest blankSpace]
      rfl
    · refine .inr fun before rest blank _ => ?_
      obtain ⟨fault, failed⟩ := refused space rest blankSpace
      rw [shape, read_of_bracket blank, failed]
      exact ⟨fault, rfl⟩
  · refine .inr (refuses_of_first solid fun {text left} found => ⟨wrongKind text, ?_⟩)
    unfold Form.read
    rw [found]
    simp only [if_neg brace, if_neg bracket]

end Deciding

end MessageStore.Json.Form
