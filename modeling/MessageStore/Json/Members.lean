import MessageStore.Json.Scalar

/-!
# Members of objects, and values that nobody wants

The loop through the members of an object, and skipping over a value of any
kind.  Skipping keeps the stack of the brackets that are open and does not
bound its depth.
-/

namespace MessageStore.Json

/-- What a known key does to the state that is gathered from the members: it fails before
the value is looked at, or tells how to read the value. -/
abbrev MemberReader (σ : Type) :=
  σ → String → Except Fault (Reader σ)

/-- The name of a member and what is left after it. -/
def memberName (text : List Char) : Except Fault (String × Rest text) :=
  match next? text with
  | some ('"', rest) =>
      match stringRest rest.val with
      | .error fault => .error fault
      | .ok (chars, final) => .ok (String.ofList chars, rest.ofRest final)
  | _ => .error .malformed

/-- Gather the members of an object whose opening bracket has been read. -/
def members {σ : Type} (member : MemberReader σ) (first : Bool) (state : σ) (text : List Char) :
    Except Fault (σ × Rest text) :=
  match turn '}' first text with
  | .error fault => .error fault
  | .ok (.close rest) => .ok (state, rest)
  | .ok (.entry later) =>
      match memberName later.val with
      | .error fault => .error fault
      | .ok (name, afterName) =>
          match member state name with
          | .error fault => .error fault
          | .ok reader =>
              match expect ':' afterName.val with
              | .error fault => .error fault
              | .ok afterColon =>
                  match reader afterColon.val with
                  | .error fault => .error fault
                  | .ok (grown, afterValue) =>
                      let upToHere :=
                        later.rest (afterName.ofRest (afterColon.ofRest afterValue))
                      match members member false grown upToHere.val with
                      | .error fault => .error fault
                      | .ok (final, rest) => .ok (final, upToHere.ofRest rest)
termination_by text.length
decreasing_by exact (later.rest (afterName.ofRest (afterColon.ofRest afterValue))).property

/-- The kind of an open bracket. -/
inductive Bracket
  | array
  | object
  deriving DecidableEq, Repr

/-- The character that closes a bracket. -/
def Bracket.closing : Bracket → Char
  | array => ']'
  | object => '}'

/-- The first token of a value: a value that is complete, or an opening bracket. -/
inductive Opening
  | scalar
  | bracket (kind : Bracket)
  deriving DecidableEq, Repr

/-- Skip the first token of a value. -/
def skipOpening (text : List Char) : Except Fault (Opening × Rest text) :=
  match next? text with
  | none => .error .truncated
  | some (c, rest) =>
      if c = 'n' then (afterNull rest).map (Opening.scalar, ·)
      else if c = 't' then (afterTrue rest).map (Opening.scalar, ·)
      else if c = 'f' then (afterFalse rest).map (Opening.scalar, ·)
      else if c = '"' then
        (skipString rest.val).map fun final => (Opening.scalar, rest.ofRest final)
      else if beginsNumber c then
        (skipNumber (c :: rest.val)).map fun final => (Opening.scalar, rest.ofFront c final)
      else if c = '[' then .ok (.bracket .array, rest)
      else if c = '{' then .ok (.bracket .object, rest)
      else .error .malformed

/-- Skip what stands before the value of an entry: the name and the colon of a member. -/
def skipName (kind : Bracket) (text : List Char) : Except Fault (Suffix text) :=
  match kind with
  | .array => .ok (.all text)
  | .object =>
      match next? text with
      | some ('"', rest) =>
          match skipString rest.val with
          | .error fault => .error fault
          | .ok afterName =>
              match expect ':' afterName.val with
              | .error fault => .error fault
              | .ok afterColon =>
                  .ok (rest.ofRest (afterName.ofRest afterColon)).toSuffix
      | _ => .error .malformed

/-- Skip the entries of the open brackets, innermost first, and the brackets that close them. -/
def skipEntries {text : List Char} (stack : List Bracket) (first : Bool) (rest : Rest text) :
    Except Fault (Rest text) :=
  match stack with
  | [] => .ok rest
  | kind :: outer =>
      match turn kind.closing first rest.val with
      | .error fault => .error fault
      | .ok (.close closed) => skipEntries outer false (rest.ofRest closed)
      | .ok (.entry later) =>
          match skipName kind later.val with
          | .error fault => .error fault
          | .ok value =>
              match skipOpening value.val with
              | .error fault => .error fault
              | .ok (opening, opened) =>
                  let inner := rest.ofRest (later.rest (value.rest opened))
                  match opening with
                  | .scalar => skipEntries (kind :: outer) false inner
                  | .bracket nested => skipEntries (nested :: kind :: outer) true inner
termination_by rest.val.length
decreasing_by
  · exact closed.property
  · exact (later.rest (value.rest opened)).property
  · exact (later.rest (value.rest opened)).property

/-- Skip a value of any kind. -/
def skip (text : List Char) : Except Fault (Rest text) :=
  match skipOpening text with
  | .error fault => .error fault
  | .ok (.scalar, rest) => .ok rest
  | .ok (.bracket kind, rest) => skipEntries [kind] true rest

end MessageStore.Json
