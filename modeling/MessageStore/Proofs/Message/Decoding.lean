import MessageStore.Proofs.Json.Decoding
import MessageStore.Proofs.Message.Spelling

/-!
# Messages that are read

An object is read as a message exactly if its members are one: no field is given
twice, the fields without default are given, and every value that is given is
one of its field.  The message is then what the members say and nothing else.
-/

namespace MessageStore

open Json

theorem Event.name_of_lookup {name : String} {event : Event}
    (known : named.lookup name = some event) : event.name = name := by
  obtain ⟨front, behind, same, -⟩ := List.lookup_eq_some_iff.mp known
  have member : (name, event) ∈ named := by
    rw [same]
    exact List.mem_append_right _ List.mem_cons_self
  obtain ⟨_, -, isNamed⟩ := List.mem_map.mp member
  cases isNamed
  rfl

namespace Attachment

theorem judges : form.Judges Spelled where
  named := honours.named
  decides field := by
    cases field with
    | name | type | url => exact decides_string
    | size | expires => exact decides_int64

/-- An attachment is read from a value that is one as a whole text. -/
theorem decides : Decides read fun text attachment =>
    whole read (String.ofList text) = .ok attachment where
  settles valid := Form.settles judges valid
  decodes_iff valid := (Form.settles judges valid).whole_eq_ok_iff

/-- The word for a missing attachment is no attachment. -/
theorem refuses_null : Refuses read nullText := by
  refine refuses_of_first rfl fun {text left} found => ⟨wrongKind text, ?_⟩
  unfold read Form.read
  rw [found]
  rfl

end Attachment

namespace Message

/-- The values that texts are for a field: strings, integers that are written as such, the name of
an event, an array of strings, and an attachment or none. -/
def Decodes : (field : Field) → List Char → form.Value field → Prop
  | .id | .topic | .message | .title | .click | .encoding => StringSpelling
  | .time | .updated => fun text value => text = writeInteger (Int64.toInt value)
  | .event => fun text value => VariantText text (Event.name value)
  | .priority => fun text value => text = writeInteger (UInt8.toNat value)
  | .tags => ArrayText StringSpelling
  | .attachment => OptionalText fun text attachment =>
      whole Attachment.read (String.ofList text) = .ok attachment

/-- The value of a field of a message. -/
def fieldValue (message : Message) : (field : Field) → form.Value field
  | .id => message.id
  | .time => message.time
  | .updated => message.updated
  | .event => message.event
  | .topic => message.topic
  | .message => message.body
  | .title => message.title
  | .priority => message.priority
  | .tags => message.tags
  | .click => message.click
  | .attachment => message.attachment
  | .encoding => message.encoding

/-- The fields without default, in the order of declaration. -/
def required : List Field :=
  [.id, .time, .event, .topic]

theorem mem_required_iff {field : Field} : field ∈ required ↔ form.default? field = none := by
  cases field <;> simp [required, form]

theorem required_eq : required = form.fields.filter fun field => (form.default? field).isNone :=
  rfl

theorem fieldValue_make (values : (field : Field) → form.Value field) :
    (form.make values).fieldValue = values := by
  funext field
  cases field <;> rfl

theorem judges : form.Judges Decodes where
  named := honours.named
  decides field := by
    cases field with
    | id | topic | message | title | click | encoding => exact decides_string
    | time | updated => exact decides_int64
    | event =>
        refine decides_variant.congr fun {text event} => ⟨?_, fun spelling => ?_⟩
        · rintro ⟨name, spelling, known⟩
          cases Event.name_of_lookup known
          exact spelling
        · exact ⟨_, spelling, Event.lookup_named event⟩
    | priority => exact decides_uint8
    | tags => exact decides_array decides_string StringSpelling.spells
    | attachment => exact decides_optional Attachment.decides Attachment.refuses_null

variable {text before : List Char} {entries : List (Option String × List Char)}

/-- An object, with blanks around it, is read as a message exactly if every member has a name, no
field is given twice, what is given for a field is a value of it, and no field without default is
missing.  The message then holds what is given, and the defaults for the rest.  If fields are
missing and nothing else is wrong, the first of them is reported, and whatever stands behind the
object must be blank. -/
theorem decoding_exact (object : ObjectText text entries) (blank : Blank before) :
    (∀ after, Blank after →
      ((∃ message, whole read (String.ofList (before ++ (text ++ after))) = .ok message) ↔
        form.Suits Decodes entries ∧
          ∀ field ∈ required, some (form.name field) ∈ Form.names entries) ∧
      ∀ message, whole read (String.ofList (before ++ (text ++ after))) = .ok message →
        ∀ field,
          (∀ member, (some (form.name field), member) ∈ entries →
            Decodes field member (message.fieldValue field)) ∧
          (some (form.name field) ∉ Form.names entries →
            form.default? field = some (message.fieldValue field))) ∧
    (∀ after, form.Suits Decodes entries → ∀ field,
      (required.find? fun field => some (form.name field) ∉ Form.names entries) = some field →
        whole read (String.ofList (before ++ (text ++ after))) =
          .error (.mismatch (.missingField (form.name field)))) ∧
    ∀ after, ¬ Blank after →
      ∃ fault, whole read (String.ofList (before ++ (text ++ after))) = .error fault := by
  refine ⟨fun after blankAfter => ⟨?_, fun message read field => ?_⟩, ?_, ?_⟩
  · have decoded := Form.exists_decoded_iff judges object.forall_valid
    simp only [← mem_required_iff] at decoded
    rw [← decoded]
    constructor
    · rintro ⟨message, read⟩
      obtain ⟨values, decoded, -⟩ :=
        (Form.whole_eq_ok_iff judges object blank blankAfter).mp read
      exact ⟨values, decoded⟩
    · rintro ⟨values, decoded⟩
      exact ⟨_, (Form.whole_eq_ok_iff judges object blank blankAfter).mpr ⟨values, decoded, rfl⟩⟩
  · obtain ⟨values, decoded, rfl⟩ :=
      (Form.whole_eq_ok_iff judges object blank blankAfter).mp read
    rw [fieldValue_make]
    exact ⟨decoded.given field, decoded.left field⟩
  · intro after suits field missing
    rw [required_eq, List.find?_filter] at missing
    simp only [Option.isNone_iff_eq_none] at missing
    refine Form.whole_of_missing judges object blank suits ?_ after
    simpa using missing
  · exact fun after solid => Form.whole_of_tail judges object blank solid

/-- The members of an object with the event as an object and a member that is no field. -/
def bulletin : List (String × List Char) :=
  [("time", writeInteger (Int64.toInt 5)), ("note", nullText),
    ("event", writeObject [("message", nullText)]), ("topic", writeString "weather"),
    ("id", writeString "h7Qp")]

theorem valid_null_member : ∀ member ∈ [("message", nullText)], Valid .value member.2 := by
  simp [valid_nullText]

theorem object_bulletin :
    ObjectText (writeObject bulletin) (bulletin.map fun member => (some member.1, member.2)) := by
  refine objectText_writeObject ?_
  have event := (exists_objectText_iff.mp ⟨_, objectText_writeObject valid_null_member⟩).1
  simp [bulletin, valid_writeInteger, valid_nullText, event, (stringSpelling_writeString _).valid]

theorem suits_bulletin :
    form.Suits Decodes (bulletin.map fun member => (some member.1, member.2)) where
  named := by decide
  once field := by cases field <;> decide
  typed field text inside := by
    simp only [bulletin, List.map_cons, List.map_nil, List.mem_cons, Prod.mk.injEq,
      Option.some.injEq, List.not_mem_nil, or_false] at inside
    rcases inside with ⟨name, rfl⟩ | ⟨name, -⟩ | ⟨name, rfl⟩ | ⟨name, rfl⟩ | ⟨name, rfl⟩
    · obtain rfl : field = .time := judges.name_injective name
      exact ⟨(5 : Int64), rfl⟩
    · exact absurd name (by cases field <;> decide)
    · obtain rfl : field = .event := judges.name_injective name
      exact ⟨.message, .keyed (objectText_writeObject valid_null_member)⟩
    · obtain rfl : field = .topic := judges.name_injective name
      exact ⟨_, stringSpelling_writeString _⟩
    · obtain rfl : field = .id := judges.name_injective name
      exact ⟨_, stringSpelling_writeString _⟩

/-- The bulletin is read with blanks around it, with its ID and the default for its priority, and
refused with a letter behind it. -/
theorem decoding_exact_bulletin :
    ObjectText (writeObject bulletin) (bulletin.map fun member => (some member.1, member.2)) ∧
      Blank [' '] ∧ Blank ['\n'] ∧
      (∃ message, whole read (String.ofList ([' '] ++ (writeObject bulletin ++ ['\n']))) =
        .ok message ∧ message.id = "h7Qp" ∧ message.priority = 0) ∧
      ∃ fault, whole read (String.ofList ([' '] ++ (writeObject bulletin ++ ['x']))) =
        .error fault := by
  have blank : Blank [' '] := by simp [Blank, isSpace]
  have blankAfter : Blank ['\n'] := by simp [Blank, isSpace]
  have exact := decoding_exact object_bulletin blank
  obtain ⟨message, read⟩ := (exact.1 ['\n'] blankAfter).1.mpr ⟨suits_bulletin, by decide⟩
  have held := (exact.1 ['\n'] blankAfter).2 message read
  have id : StringSpelling (writeString "h7Qp") message.id :=
    (held .id).1 _ (by simp [bulletin, form])
  have priority : some 0 = some message.priority := (held .priority).2 (by decide)
  refine ⟨object_bulletin, blank, blankAfter, ⟨message, read, ?_, (Option.some.inj priority).symm⟩,
    exact.2.2 ['x'] (by simp [Blank, isSpace])⟩
  have spelling := stringSpelling_writeString "h7Qp"
  exact decides_string.unique spelling.valid id spelling

end Message

end MessageStore
