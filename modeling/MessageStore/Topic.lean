import MessageStore.Repeats

/-!
# Topics

A topic is a named channel that messages are published under.  It has no record
of its own: it exists as the topic of the messages that are stored.  Topics are
ordered by the code points of their names.
-/

namespace MessageStore

/-- A named channel. -/
structure Topic where
  id : String
  deriving DecidableEq, Repr

namespace Topic

/-- Topics in the order of their names. -/
def sorted (topics : List Topic) : List Topic :=
  topics.mergeSort fun first second => decide (first.id ≤ second.id)

/-- The topics of a list, each once, in the order of their names. -/
def distinct (topics : List Topic) : List Topic :=
  withoutRepeats (· == ·) (sorted topics)

end Topic

end MessageStore
