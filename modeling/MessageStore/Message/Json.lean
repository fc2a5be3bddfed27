import MessageStore.Json.Printer
import MessageStore.Json.Record
import MessageStore.Message.Basic
import MessageStore.Topic

/-!
# The JSON forms of messages

How events, attachments, topics and messages are read and written.  Fields that
hold the empty text, zero, no tags or no attachment are not written, and may be
left out of what is read.  The owner of an attachment is neither written nor
read.
-/

namespace MessageStore

open Json
  (Form Reader integerMember textMember writeArray writeInteger writeObject writeString)

namespace Event

/-- Read an event by its name. -/
def read : Reader Event :=
  Json.variant named

/-- The JSON text of an event. -/
def write (event : Event) : List Char :=
  writeString event.name

end Event

namespace Attachment

/-- The fields of an attachment that are written, in the order of declaration. -/
inductive Field
  | name
  | type
  | size
  | expires
  | url
  deriving DecidableEq, Repr

/-- The type of a field's values. -/
abbrev Field.Value : Field → Type
  | name | type | url => String
  | size | expires => Int64

/-- The form of an attachment: a name and a URL are required. -/
def form : Form Field Attachment where
  fields := [.name, .type, .size, .expires, .url]
  every field := by cases field <;> simp
  name
    | .name => "name"
    | .type => "type"
    | .size => "size"
    | .expires => "expires"
    | .url => "url"
  Value := Field.Value
  reader
    | .name | .type | .url => Json.string
    | .size | .expires => Json.int64
  default?
    | .name | .url => none
    | .type => some ""
    | .size | .expires => some 0
  make value :=
    { name := value .name
      type := value .type
      size := value .size
      expires := value .expires
      url := value .url
      owner := "" }

/-- Read an attachment. -/
def read : Reader Attachment :=
  form.read

/-- The members of an attachment, in the order of declaration. -/
def members (attachment : Attachment) : List (String × List Char) :=
  [("name", writeString attachment.name)] ++
    textMember "type" attachment.type ++
    integerMember "size" attachment.size.toInt ++
    integerMember "expires" attachment.expires.toInt ++
    [("url", writeString attachment.url)]

/-- The JSON text of an attachment. -/
def write (attachment : Attachment) : List Char :=
  writeObject attachment.members

end Attachment

namespace Topic

/-- The form of a topic: its name is its only field. -/
def form : Form Unit Topic where
  fields := [()]
  every _ := List.mem_singleton.mpr rfl
  name _ := "id"
  Value _ := String
  reader _ := Json.string
  default? _ := none
  make value := ⟨value ()⟩

/-- Read a topic. -/
def read : Reader Topic :=
  form.read

/-- The JSON text of a topic. -/
def write (topic : Topic) : List Char :=
  writeObject [("id", writeString topic.id)]

end Topic

namespace Message

/-- The fields of a message, in the order of declaration. -/
inductive Field
  | id
  | time
  | updated
  | event
  | topic
  | message
  | title
  | priority
  | tags
  | click
  | attachment
  | encoding
  deriving DecidableEq, Repr

/-- The type of a field's values. -/
abbrev Field.Value : Field → Type
  | id | topic | message | title | click | encoding => String
  | time | updated => Int64
  | event => Event
  | priority => UInt8
  | tags => List String
  | attachment => Option Attachment

/-- The form of a message: an ID, a time, an event and a topic are required. -/
def form : Form Field Message where
  fields :=
    [.id, .time, .updated, .event, .topic, .message, .title, .priority, .tags, .click,
      .attachment, .encoding]
  every field := by cases field <;> simp
  name
    | .id => "id"
    | .time => "time"
    | .updated => "updated"
    | .event => "event"
    | .topic => "topic"
    | .message => "message"
    | .title => "title"
    | .priority => "priority"
    | .tags => "tags"
    | .click => "click"
    | .attachment => "attachment"
    | .encoding => "encoding"
  Value := Field.Value
  reader
    | .id | .topic | .message | .title | .click | .encoding => Json.string
    | .time | .updated => Json.int64
    | .event => Event.read
    | .priority => Json.uint8
    | .tags => Json.array Json.string
    | .attachment => Json.optional Attachment.read
  default?
    | .id | .time | .event | .topic => none
    | .message | .title | .click | .encoding => some ""
    | .updated => some 0
    | .priority => some 0
    | .tags => some []
    | .attachment => some none
  make value :=
    { id := value .id
      time := value .time
      updated := value .updated
      event := value .event
      topic := value .topic
      body := value .message
      title := value .title
      priority := value .priority
      tags := value .tags
      click := value .click
      attachment := value .attachment
      encoding := value .encoding }

/-- Read a message. -/
def read : Reader Message :=
  form.read

/-- The members of a message, in the order of declaration. -/
def members (message : Message) : List (String × List Char) :=
  [("id", writeString message.id), ("time", writeInteger message.time.toInt)] ++
    integerMember "updated" message.updated.toInt ++
    [("event", message.event.write), ("topic", writeString message.topic)] ++
    textMember "message" message.body ++
    textMember "title" message.title ++
    integerMember "priority" message.priority.toNat ++
    (if message.tags = [] then [] else [("tags", writeArray (message.tags.map writeString))]) ++
    textMember "click" message.click ++
    (message.attachment.toList.map fun attachment => ("attachment", attachment.write)) ++
    textMember "encoding" message.encoding

/-- The JSON text of a message. -/
def write (message : Message) : List Char :=
  writeObject message.members

end Message

end MessageStore
