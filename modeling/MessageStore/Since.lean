import MessageStore.Instant.Basic
import MessageStore.Text.Blank
import MessageStore.Text.Digits

/-!
# Replay markers

A subscriber that catches up on a topic says what it has already seen with a
marker: nothing is wanted, everything is, the messages from an instant on, or
the messages stored after one that it names.  This module holds the markers and
the text that subscribers write for them: an empty word or `none`, `all`, a
Unix timestamp, a look-back such as `10m`, and else the ID of a message.
-/

namespace MessageStore

open Text (isDigit digitsValue strip)

/-- What a subscriber wants replayed. -/
inductive Since
  /-- No replay. -/
  | nothing
  /-- The whole history of the topic. -/
  | everything
  /-- The messages of an instant and later. -/
  | time (instant : Instant)
  /-- The messages stored after the one with this ID. -/
  | message (id : String)
  deriving DecidableEq, Repr

namespace Since

/-- Whether the marker asks for no replay. -/
def isNothing : Since → Bool
  | nothing => true
  | _ => false

/-- The marker for a Unix timestamp.  A timestamp that no instant has stands for everything. -/
def ofUnix (seconds : Int) : Since :=
  match Instant.of? seconds 0 with
  | some instant => time instant
  | none => everything

/-- The greatest number that a timestamp or the count of a look-back can be. -/
def greatestCount : Nat := 9223372036854775807

/-- The longest look-back, in seconds. -/
def longestLookBack : Nat := 9223372036854775

/-- The seconds in the unit of a look-back: seconds, minutes, hours or days. -/
def unitSeconds? : Char → Option Nat
  | 's' => some 1
  | 'm' => some 60
  | 'h' => some 3600
  | 'd' => some 86400
  | _ => none

/-- The seconds that a look-back spans: a count in digits, followed by its unit. -/
def lookBack? (word : List Char) : Option Nat := do
  let unit ← word.getLast?
  let digits := word.dropLast
  if digits = [] ∨ ¬ digits.all isDigit then none
  else
    let count := digitsValue digits
    let seconds ← unitSeconds? unit
    if count ≤ greatestCount ∧ count * seconds ≤ longestLookBack then
      some (count * seconds)
    else
      none

/-- The marker that a word without blanks around it stands for at the given time. -/
def ofWord (now : Instant) (word : List Char) : Since :=
  if word = [] ∨ word = ['n', 'o', 'n', 'e'] then nothing
  else if word = ['a', 'l', 'l'] then everything
  else if word.all isDigit then
    if digitsValue word ≤ greatestCount then ofUnix (digitsValue word)
    else message (String.ofList word)
  else
    match lookBack? word with
    | some seconds =>
        -- Reaching back past the first instant means everything.
        match now.minus? seconds with
        | some instant => time instant
        | none => everything
    | none => message (String.ofList word)

/-- The marker that a subscriber's text stands for; blanks around it do not count. -/
def parse (now : Instant) (text : String) : Since :=
  ofWord now (strip text.toList)

end Since

end MessageStore
