/-!
# Events

The kinds of frames that travel over a subscriber's connection.  Only messages
are stored; the other three live as long as the connection.
-/

namespace MessageStore

/-- The kind of a frame. -/
inductive Event
  | open
  | keepalive
  | message
  | pollRequest
  deriving DecidableEq, Repr

namespace Event

/-- The name of an event. -/
def name : Event → String
  | «open» => "open"
  | keepalive => "keepalive"
  | message => "message"
  | pollRequest => "poll_request"

/-- All events. -/
def all : List Event :=
  [.open, .keepalive, .message, .pollRequest]

/-- The events with their names. -/
def named : List (String × Event) :=
  all.map fun event => (event.name, event)

/-- Every event is found under its name. -/
theorem lookup_named (event : Event) : named.lookup event.name = some event := by
  cases event <;> rfl

end Event

end MessageStore
