import MessageStore.Json.Value
import MessageStore.Proofs.Json.RoundTrip

/-!
# Spellings of values

Strings and objects that are read before it is known what they mean.  An object
keeps all of its members in the order of the text.
-/

namespace MessageStore.Json

variable {text body space : List Char} {spelled : List Char → Value → Prop} {first : Bool}
  {room : Nat}

/-- Every spelling of a string is read as the string. -/
theorem StringSpelling.spells_value {written : String} (spelling : StringSpelling text written)
    (room : Nat) : Spells (value room) text (.string written) := by
  refine ⟨spelling.begins, @fun before rest blank _ => ?_⟩
  obtain ⟨left, final, found, read, ended⟩ := spelling.exists_left blank rest
  rw [Reads, outcome, value.eq_def]
  dsimp only
  rw [found]
  simp [read, ended, Except.map, String.ofList_toList]

/-- A member of an object: its name and the text of its value. -/
inductive NamedText (spelled : List Char → Value → Prop) : List Char → String × Value → Prop
  | member {name space gap text : List Char} {written : String} {value : Value}
      (named : StringSpelling name written) (blank : Blank space) (blankGap : Blank gap)
      (spelling : spelled text value) :
      NamedText spelled (name ++ (space ++ ':' :: (gap ++ text))) (written, value)

/-- The members of an object are read in order, behind those that have been read. -/
theorem namedValues_of_listed {reader : Reader Value}
    (spells : ∀ {text value}, spelled text value → Spells reader text value)
    {named : List (String × Value)} (listed : Listed (NamedText spelled) first body named)
    (blank : Blank space) (rest : List Char) (known : List (String × Value)) :
    Reads (members (namedValues reader) first known) (body ++ (space ++ '\x7d' :: rest))
      (named.reverse ++ known) rest := by
  -- What is known grows with each member, so the claim is about any members to begin with.
  induction listed generalizing known with
  | @nil first =>
      obtain ⟨left, closes, same⟩ := turn_of_close first blank closing rest
      rw [List.nil_append, Reads, outcome, members]
      simp only [closes, taken_ok, same]
      rfl
  | cons leads blankBefore here more ih =>
      have stops := more.stops blank closing rest
      simp only [List.append_assoc] at *
      cases here with
      | @member name gapName gap text written value named blankName blankGap spelling =>
          simp only [List.append_assoc, List.cons_append] at *
          have accepted : namedValues reader known written =
              .ok (Reader.map (fun value => (written, value) :: known) reader) := rfl
          have reads := ((spells spelling).map fun value => (written, value) :: known).reads
            blankGap stops
          rw [Reads, members_of_read leads blankBefore named blankName accepted reads]
          have grown := ih ((written, value) :: known)
          rw [Reads] at grown
          simp only [grown, List.reverse_cons, List.append_assoc, List.cons_append, List.nil_append]

/-- An object of members that are spelled one by one is read as the object. -/
theorem spells_object {named : List (String × Value)}
    (spells : ∀ {text member}, spelled text member → Spells (value room) text member)
    (listed : Listed (NamedText spelled) true body named) (blank : Blank space) :
    Spells (value (room + 1)) ('\x7b' :: (body ++ (space ++ ['\x7d']))) (.object named) := by
  refine ⟨⟨'\x7b', _, rfl, rfl, rfl⟩, @fun before rest blankBefore _ => ?_⟩
  have next : Next (before ++ '\x7b' :: (body ++ (space ++ '\x7d' :: rest))) '\x7b'
      (body ++ (space ++ '\x7d' :: rest)) := next_of_blank blankBefore rfl
  obtain ⟨left, found, same⟩ := next
  have reads := namedValues_of_listed spells listed blank rest []
  rw [← same] at reads
  obtain ⟨final, read, ended⟩ := reads.exists_left
  simp only [List.cons_append, List.append_assoc, List.nil_append]
  rw [Reads, outcome, value.eq_def]
  dsimp only
  rw [found]
  simp [beginsNumber, Text.isDigit, read, ended, Except.map]

/-- An object of strings is read as it has been written. -/
theorem spells_writeObject (fields : List (String × String)) (room : Nat) :
    Spells (value (room + 1))
      (writeObject (fields.map fun field => (field.1, writeString field.2)))
      (.object (fields.map fun field => (field.1, .string field.2))) := by
  let spelled : List Char → Value → Prop := fun text member =>
    ∃ written, StringSpelling text written ∧ member = .string written
  have spells {text member} (here : spelled text member) : Spells (value room) text member := by
    obtain ⟨written, spelling, rfl⟩ := here
    exact spelling.spells_value room
  have listed : Listed (NamedText spelled) true
      (Text.joined ',' ((fields.map fun field => (field.1, writeString field.2)).map writeMember))
      (fields.map fun field => (field.1, .string field.2)) := by
    rw [List.map_map]
    refine listed_joined fun field _ => ?_
    have here : spelled (writeString field.2) (.string field.2) :=
      ⟨field.2, stringSpelling_writeString field.2, rfl⟩
    have named := NamedText.member (stringSpelling_writeString field.1) blank_nil blank_nil here
    exact named
  exact spells_object spells listed blank_nil

end MessageStore.Json
