import MessageStore.Message.Json
import MessageStore.Proofs.Json.RoundTrip
import MessageStore.Proofs.Json.Scalars

/-!
# Spellings of messages

A message can be spelled in many ways: with its members in any order, blanks
between the tokens, members that are no fields, defaults written out, and the
message, its attachment or both as arrays.  All spellings are read as the same
message, and an object that gives a field again is refused.
-/

namespace MessageStore

open Json

theorem textMember_eq (name value : String) :
    textMember name value = if value != "" then [(name, writeString value)] else [] := by
  by_cases empty : value = "" <;> simp [textMember, empty]

theorem integerMember_eq (name : String) (value : Int64) :
    integerMember name value.toInt =
      if value != 0 then [(name, writeInteger value.toInt)] else [] := by
  have zero : value.toInt = 0 ↔ value = 0 := Int64.toInt_inj (y := 0)
  by_cases isZero : value = 0 <;> simp [integerMember, isZero, zero]

namespace Attachment

/-- The attachment without its owner, who is neither written nor read. -/
def unowned (attachment : Attachment) : Attachment :=
  { attachment with owner := "" }

/-- The values of the fields of an attachment. -/
def values (attachment : Attachment) : (field : Field) → form.Value field
  | .name => attachment.name
  | .type => attachment.type
  | .size => attachment.size
  | .expires => attachment.expires
  | .url => attachment.url

/-- The spellings of a field's value. -/
def Spelled : (field : Field) → List Char → form.Value field → Prop
  | .name | .type | .url => StringSpelling
  | .size | .expires => fun text value => text = writeInteger (Int64.toInt value)

/-- The spellings of an attachment. -/
abbrev Spelling (attachment : Attachment) : List Char → Prop :=
  form.RecordText Spelled attachment.values

theorem honours : form.Honours Spelled where
  named field := by cases field <;> rfl
  spells {field text value} spelling := by
    cases field with
    | name | type | url => exact StringSpelling.spells spelling
    | size | expires =>
        cases spelling
        exact spells_int64 value

/-- Every spelling of an attachment is read as the attachment without its owner. -/
theorem Spelling.spells {attachment : Attachment} {text : List Char}
    (spelling : attachment.Spelling text) : Spells read text attachment.unowned :=
  Form.RecordText.spells honours spelling

/-- The text that is written for the value of a field. -/
def written (attachment : Attachment) : Field → List Char
  | .name => writeString attachment.name
  | .type => writeString attachment.type
  | .size => writeInteger attachment.size.toInt
  | .expires => writeInteger attachment.expires.toInt
  | .url => writeString attachment.url

/-- Whether a field is written, as one without default or with another value. -/
def shows (attachment : Attachment) : Field → Bool
  | .name | .url => true
  | .type => attachment.type != ""
  | .size => attachment.size != 0
  | .expires => attachment.expires != 0

theorem spelled_written (attachment : Attachment) (field : Field) :
    Spelled field (attachment.written field) (attachment.values field) := by
  cases field with
  | name | type | url => exact stringSpelling_writeString _
  | size | expires => rfl

/-- The members that are written are the fields that are no defaults. -/
theorem members_eq (attachment : Attachment) :
    attachment.members = (form.fields.filter attachment.shows).map fun field =>
      (form.name field, attachment.written field) := by
  simp only [members, form, map_filter_cons, List.filter_nil, List.map_nil, shows, textMember_eq,
    integerMember_eq, written, List.append_nil, if_true, List.append_assoc]
  rfl

/-- What is written for an attachment is one of its spellings. -/
theorem spelling_write (attachment : Attachment) : attachment.Spelling attachment.write := by
  unfold write
  rw [members_eq]
  refine Form.recordText_writeObject attachment.spelled_written ?_ fun field hidden => ?_
  · exact List.Sublist.nodup List.filter_sublist (by decide)
  · have same : attachment.shows field = false := by
      simpa [form.every field] using hidden
    cases field with
    | name | url => cases same
    | type | size | expires => exact congrArg some (bne_eq_false_iff_eq.mp same).symm

end Attachment

namespace Message

/-- The message without the owner of its attachment. -/
def unowned (message : Message) : Message :=
  { message with attachment := message.attachment.map Attachment.unowned }

/-- The values of the fields of a message. -/
def values (message : Message) : (field : Field) → form.Value field
  | .id => message.id
  | .time => message.time
  | .updated => message.updated
  | .event => message.event
  | .topic => message.topic
  | .message => message.body
  | .title => message.title
  | .priority => message.priority
  | .tags => message.tags
  | .click => message.click
  | .attachment => message.attachment.map Attachment.unowned
  | .encoding => message.encoding

/-- The spellings of the attachment of a message. -/
inductive AttachmentText : List Char → Option Attachment → Prop
  | absent : AttachmentText nullText none
  | present {attachment : Attachment} {text : List Char} (spelling : attachment.Spelling text) :
      AttachmentText text (some attachment.unowned)

/-- The spellings of a field's value. -/
def Spelled : (field : Field) → List Char → form.Value field → Prop
  | .id | .topic | .message | .title | .click | .encoding => StringSpelling
  | .time | .updated => fun text value => text = writeInteger (Int64.toInt value)
  | .event => fun text value => StringSpelling text (Event.name value)
  | .priority => fun text value => text = writeInteger (UInt8.toNat value)
  | .tags => ArrayText StringSpelling
  | .attachment => AttachmentText

/-- The spellings of a message, with blanks around it. -/
inductive Spelling (message : Message) : List Char → Prop
  | around {before text after : List Char} (blank : Blank before)
      (spelling : form.RecordText Spelled message.values text) (blankAfter : Blank after) :
      Spelling message (before ++ (text ++ after))

/-- The objects that give one field of a message more than once, and no other. -/
inductive Repeating (field : Field) : List Char → Prop
  | object {before body space after : List Char} {given : List (Option form.Given)}
      (blankBefore : Blank before) (listed : Listed (form.MemberText Spelled) true body given)
      (blank : Blank space) (again : 2 ≤ (Form.fieldsOf given).count field)
      (others : ∀ other ≠ field, (Form.fieldsOf given).count other ≤ 1) :
      Repeating field (before ++ '\x7b' :: (body ++ (space ++ '\x7d' :: after)))

theorem unowned_of_owner {message : Message}
    (free : ∀ attachment ∈ message.attachment, attachment.owner = "") :
    message.unowned = message := by
  obtain ⟨id, time, updated, event, topic, body, title, priority, tags, click, attachment,
    encoding⟩ := message
  cases attachment with
  | none => rfl
  | some attachment =>
      have owner : attachment.owner = "" := free attachment rfl
      simp [unowned, Attachment.unowned, ← owner]

theorem AttachmentText.spells {text : List Char} {attachment : Option Attachment}
    (spelling : AttachmentText text attachment) :
    Spells (optional Attachment.read) text attachment := by
  cases spelling with
  | absent => exact spells_null Attachment.read
  | present spelling =>
      refine Spells.optional spelling.spells ?_
      cases spelling <;> simp

theorem honours : form.Honours Spelled where
  named field := by cases field <;> rfl
  spells {field text value} spelling := by
    cases field with
    | id | topic | message | title | click | encoding => exact StringSpelling.spells spelling
    | time | updated =>
        cases spelling
        exact spells_int64 value
    | event => exact StringSpelling.variant spelling (Event.lookup_named value)
    | priority =>
        cases spelling
        exact spells_uint8 value
    | tags => exact ArrayText.spells StringSpelling.spells spelling
    | attachment => exact AttachmentText.spells spelling

/-! ## What is written -/

/-- The text that is written for the value of a field. -/
def written (message : Message) : Field → List Char
  | .id => writeString message.id
  | .time => writeInteger message.time.toInt
  | .updated => writeInteger message.updated.toInt
  | .event => message.event.write
  | .topic => writeString message.topic
  | .message => writeString message.body
  | .title => writeString message.title
  | .priority => writeInteger message.priority.toNat
  | .tags => writeArray (message.tags.map writeString)
  | .click => writeString message.click
  | .attachment => (message.attachment.map Attachment.write).getD nullText
  | .encoding => writeString message.encoding

/-- Whether a field is written, as one without default or with another value. -/
def shows (message : Message) : Field → Bool
  | .id | .time | .event | .topic => true
  | .updated => message.updated != 0
  | .message => message.body != ""
  | .title => message.title != ""
  | .priority => message.priority != 0
  | .tags => message.tags != []
  | .click => message.click != ""
  | .attachment => message.attachment.isSome
  | .encoding => message.encoding != ""

theorem spelled_written (message : Message) (field : Field) :
    Spelled field (message.written field) (message.values field) := by
  cases field with
  | id | topic | message | title | click | encoding | event => exact stringSpelling_writeString _
  | time | updated | priority => rfl
  | tags =>
      have items : Listed StringSpelling true (Text.joined ',' (message.tags.map writeString))
          (message.tags.map fun tag => tag) :=
        listed_joined fun tag _ => stringSpelling_writeString tag
      rw [List.map_id'] at items
      exact .listed items blank_nil
  | attachment =>
      change AttachmentText ((message.attachment.map Attachment.write).getD nullText)
        (message.attachment.map Attachment.unowned)
      cases message.attachment with
      | none => exact .absent
      | some attachment => exact .present attachment.spelling_write

/-- The members that are written are the fields that are no defaults. -/
theorem members_eq (message : Message) :
    message.members = (form.fields.filter message.shows).map fun field =>
      (form.name field, message.written field) := by
  have priority : integerMember "priority" message.priority.toNat =
      if message.priority != 0 then [("priority", writeInteger message.priority.toNat)] else [] := by
    have zero : message.priority.toNat = 0 ↔ message.priority = 0 := UInt8.toNat_inj (b := 0)
    by_cases isZero : message.priority = 0 <;> simp [integerMember, isZero, zero]
  have tags : (if message.tags = [] then []
      else [("tags", writeArray (message.tags.map writeString))]) =
      if message.tags != [] then [("tags", writeArray (message.tags.map writeString))] else [] := by
    by_cases empty : message.tags = [] <;> simp [empty]
  have attachment : (message.attachment.toList.map fun attachment => ("attachment", attachment.write)) =
      if message.attachment.isSome then
        [("attachment", (message.attachment.map Attachment.write).getD nullText)]
      else [] := by
    cases message.attachment <;> rfl
  simp only [members, form, map_filter_cons, List.filter_nil, List.map_nil, shows, textMember_eq,
    integerMember_eq, priority, tags, attachment, written, List.append_nil, if_true,
    List.append_assoc]
  rfl

/-- What is written for a message is one of its spellings. -/
theorem spelling_write (message : Message) : message.Spelling message.write := by
  have spelling : form.RecordText Spelled message.values message.write := by
    unfold write
    rw [members_eq]
    refine Form.recordText_writeObject message.spelled_written ?_ fun field hidden => ?_
    · exact List.Sublist.nodup List.filter_sublist (by decide)
    · have same : message.shows field = false := by
        simpa [form.every field] using hidden
      cases field with
      | id | time | event | topic => cases same
      | updated | message | title | priority | tags | click | encoding =>
          exact congrArg some (bne_eq_false_iff_eq.mp same).symm
      | attachment =>
          have absent : message.attachment = none :=
            Option.isNone_iff_eq_none.mp (Option.isSome_eq_false_iff.mp same)
          change some none = some (message.attachment.map Attachment.unowned)
          rw [absent]
          rfl
  simpa using Spelling.around blank_nil spelling blank_nil

/-- The array of all values of a message is one of its spellings. -/
theorem spelling_writeArray (message : Message) :
    message.Spelling (writeArray (form.fields.map message.written)) := by
  have listed : form.ListedValues Spelled message.values true
      (Text.joined ',' (form.fields.map message.written)) (form.fields.map fun field => field) :=
    listed_joined fun field _ => message.spelled_written field
  rw [List.map_id'] at listed
  have spelling := Spelling.around blank_nil (.array listed blank_nil) blank_nil
  simpa [writeArray] using spelling

/-- An object that is written with one field again is a repetition of it. -/
theorem repeating_writeObject (message : Message) {fields : List Field} {field : Field}
    (again : 2 ≤ fields.count field) (others : ∀ other ≠ field, fields.count other ≤ 1) :
    Repeating field
      (writeObject (fields.map fun field => (form.name field, message.written field))) := by
  obtain ⟨given, listed, same, -⟩ := Form.listed_members message.spelled_written fields
  subst same
  exact .object blank_nil listed blank_nil again others

/-! ## What is read -/

/-- Every spelling of a message is read as the message without the owner of its attachment. -/
theorem read_of_spelling {message : Message} {text : List Char} (spelling : message.Spelling text) :
    whole read (String.ofList text) = .ok message.unowned := by
  cases spelling with
  | around blank spelling blankAfter =>
      exact (spelling.spells honours).whole blank blankAfter

theorem read_of_repeating {field : Field} {text : List Char} (repeating : Repeating field text) :
    whole read (String.ofList text) = .error (.mismatch (.duplicateField (form.name field))) := by
  cases repeating with
  | object blankBefore listed blank again others =>
      exact Form.whole_of_repeated honours listed blankBefore blank again others

/-- All spellings of a message whose attachment has no owner are read as exactly that message, and
an object that gives one of its fields again is refused for it. -/
theorem spellings_read_alike (message : Message)
    (free : ∀ attachment ∈ message.attachment, attachment.owner = "") :
    (∀ text, message.Spelling text → whole read (String.ofList text) = .ok message) ∧
      ∀ field text, Repeating field text → whole read (String.ofList text) =
        .error (.mismatch (.duplicateField (form.name field))) := by
  refine ⟨fun text spelling => ?_, fun field text repeating => read_of_repeating repeating⟩
  rw [read_of_spelling spelling, unowned_of_owner free]

/-- A message with an attachment and defaults to leave out. -/
def forecast : Message :=
  { id := "h7Qp", time := 1700000000, updated := 0, event := .message, topic := "weather",
    body := "\"Rain\"\n", title := "", priority := 4, tags := ["umbrella", ""], click := "",
    attachment := some (.bare "map.png" "https://example.com/map.png"), encoding := "" }

/-- The forecast is read from the object and from the array that are written for it, and refused
with its ID written again. -/
theorem spellings_read_alike_forecast :
    (∀ attachment ∈ forecast.attachment, attachment.owner = "") ∧
      whole read (String.ofList forecast.write) = .ok forecast ∧
      whole read (String.ofList (writeArray (form.fields.map forecast.written))) = .ok forecast ∧
      whole read (String.ofList (writeObject ([.id, .time, .id].map fun field =>
        (form.name field, forecast.written field)))) =
        .error (.mismatch (.duplicateField "id")) := by
  have free : ∀ attachment ∈ forecast.attachment, attachment.owner = "" := by
    rintro _ ⟨⟩
    rfl
  have alike := spellings_read_alike forecast free
  have again : 2 ≤ [Field.id, .time, .id].count .id := by decide
  have others (other : Field) (apart : other ≠ .id) : [Field.id, .time, .id].count other ≤ 1 := by
    revert apart
    cases other <;> decide
  exact ⟨free, alike.1 _ forecast.spelling_write, alike.1 _ forecast.spelling_writeArray,
    alike.2 .id _ (forecast.repeating_writeObject again others)⟩

end Message

end MessageStore
