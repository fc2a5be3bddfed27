import MessageStore.Instant.Basic
import MessageStore.Message.Event
import MessageStore.Text.Digits

/-!
# Messages

A message is a notification published on a topic, perhaps with a file attached.
Its time may lie in the future: then it is scheduled, and due once the clock
has reached its time.  A draft is a message whose ID and times may still be
open; they are filled in from the clock and from random bits.
-/

namespace MessageStore

/-- A file attached to a message. -/
structure Attachment where
  name : String
  /-- The MIME type, such as `image/png`. -/
  type : String
  /-- The size in bytes. -/
  size : Int64
  /-- The second after which the file may be deleted; 0 stands for never. -/
  expires : Int64
  url : String
  /-- Whose storage quota the file counts against. -/
  owner : String
  deriving DecidableEq, Repr

namespace Attachment

/-- An attachment of which only the name and the place are known. -/
def bare (name url : String) : Attachment :=
  ⟨name, "", 0, 0, url, ""⟩

/-- What stands for the attachment of a message that has none. -/
def absent : Attachment :=
  bare "" ""

end Attachment

/-- A notification published on a topic. -/
structure Message where
  /-- The publisher's identifier, unique within a topic by convention only. -/
  id : String
  /-- The second of delivery. -/
  time : Int64
  /-- The second of the last modification. -/
  updated : Int64
  event : Event
  topic : String
  body : String
  title : String
  priority : UInt8
  tags : List String
  click : String
  attachment : Option Attachment
  /-- How the body is encoded, such as `base64`. -/
  encoding : String
  deriving DecidableEq, Repr

namespace Message

/-- Whether a message is due at the given second. -/
def isDue (message : Message) (second : Int) : Bool :=
  message.time.toInt ≤ second

/-- The number of hexadecimal digits in a generated ID. -/
def idLength : Nat := 12

/-- The ID made of random bits: their last forty-eight in hexadecimal digits. -/
def idOfBits (bits : Nat) : String :=
  String.ofList (Text.lastHexDigits idLength bits)

/-- A message whose ID and times may still be open. -/
structure Draft where
  topic : String
  id : Option String := none
  time : Option Int64 := none
  updated : Option Int64 := none
  event : Event := .message
  body : String := ""
  title : String := ""
  priority : UInt8 := 0
  tags : List String := []
  click : String := ""
  attachment : Option Attachment := none
  encoding : String := ""
  deriving DecidableEq, Repr

/-- The message of a draft.  Without a time it is delivered now, and without a time of
modification it was modified when it is delivered. -/
def Draft.finish (draft : Draft) (now : Instant) (bits : Nat) : Message :=
  let time := draft.time.getD (Int64.ofInt now.seconds)
  { id := draft.id.getD (idOfBits bits)
    time
    updated := draft.updated.getD time
    event := draft.event
    topic := draft.topic
    body := draft.body
    title := draft.title
    priority := draft.priority
    tags := draft.tags
    click := draft.click
    attachment := draft.attachment
    encoding := draft.encoding }

/-- A control frame for a topic. -/
def ofEvent (event : Event) (topic : String) (now : Instant) (bits : Nat) : Message :=
  ({ topic, event } : Draft).finish now bits

end Message

end MessageStore
