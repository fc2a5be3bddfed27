import MessageStore.Json.Members

/-!
# JSON values

Texts that are read before it is known what they mean become values.  Brackets
may be nested only to a bounded depth here.
-/

namespace MessageStore.Json

/-- A JSON value.  An object keeps its members in the order of the text, repeated names
included. -/
inductive Value
  | null
  | bool (value : Bool)
  | number (value : Number)
  | string (value : String)
  | array (items : List Value)
  | object (members : List (String × Value))

/-- The greatest depth of nested brackets. -/
def greatestDepth : Nat := 127

/-- Read the members of an object in order.  Those that have been read stand in reverse. -/
def namedValues (reader : Reader Value) : MemberReader (List (String × Value)) :=
  fun before name => .ok (Reader.map (fun value => (name, value) :: before) reader)

/-- Read a value inside which at most the given number of brackets are open at once. -/
def value : Nat → Reader Value
  | room, text =>
      match next? text with
      | none => .error .truncated
      | some (c, rest) =>
          if c = 'n' then (afterNull rest).map (Value.null, ·)
          else if c = 't' then (afterTrue rest).map (Value.bool true, ·)
          else if c = 'f' then (afterFalse rest).map (Value.bool false, ·)
          else if c = '"' then
            (stringRest rest.val).map fun (chars, final) =>
              (Value.string (String.ofList chars), rest.ofRest final)
          else if beginsNumber c then
            (number (c :: rest.val)).map fun (n, final) => (Value.number n, rest.ofFront c final)
          else
            match room with
            | 0 => .error .malformed
            | room + 1 =>
                if c = '[' then
                  (items (value room) true rest.val).map fun (values, final) =>
                    (Value.array values, rest.ofRest final)
                else if c = '{' then
                  (members (namedValues (value room)) true [] rest.val).map fun (pairs, final) =>
                    (Value.object pairs.reverse, rest.ofRest final)
                else .error .malformed

end MessageStore.Json
