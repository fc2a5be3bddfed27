import MessageStore.Proofs.Message.Spelling

/-!
# Messages that are written and read again

What is written for a message is read as the message without the owner of its
attachment.  So the texts of two messages are the same exactly if the messages
are, up to that owner, and no text, whatever members it holds, is read as a
message whose attachment has an owner.
-/

namespace MessageStore

open Json

namespace Attachment

theorem read_write (attachment : Attachment) :
    whole read (String.ofList attachment.write) = .ok attachment.unowned := by
  have read := attachment.spelling_write.spells.whole blank_nil blank_nil
  simpa using read

theorem write_unowned (attachment : Attachment) : attachment.unowned.write = attachment.write :=
  rfl

/-- An attachment that is read has no owner. -/
theorem owner_of_read {attachment : Attachment} {text : List Char} {rest : Rest text}
    (found : read text = .ok (attachment, rest)) : attachment.owner = "" := by
  obtain ⟨values, rfl, -⟩ := Form.read_sourced found
  rfl

end Attachment

namespace Message

theorem read_write (message : Message) :
    whole read (String.ofList message.write) = .ok message.unowned :=
  read_of_spelling message.spelling_write

/-- The owner of the attachment is not written. -/
theorem write_unowned (message : Message) : message.unowned.write = message.write := by
  obtain ⟨id, time, updated, event, topic, body, title, priority, tags, click, attachment,
    encoding⟩ := message
  cases attachment <;> rfl

/-- The attachment of a message that is read has no owner. -/
theorem owner_of_read {message : Message} {text : List Char} {rest : Rest text}
    (found : read text = .ok (message, rest)) :
    ∀ attachment ∈ message.attachment, attachment.owner = "" := by
  obtain ⟨values, rfl, sourced⟩ := Form.read_sourced found
  intro attachment present
  have same : values .attachment = some attachment := present
  rcases sourced .attachment with isDefault | ⟨text, rest, found⟩
  · rw [same] at isDefault
    cases isDefault
  · rw [same] at found
    obtain ⟨left, read⟩ := read_of_optional found
    exact Attachment.owner_of_read read

end Message

/-- What is written for a message is read as the message without the owner of its attachment; two
messages are written alike exactly if they are the same up to that owner; and no text is read as a
message whose attachment has an owner.  The same holds for attachments alone. -/
theorem json_round_trip :
    ((∀ message : Message,
        whole Message.read (String.ofList message.write) = .ok message.unowned) ∧
      (∀ first second : Message,
        String.ofList first.write = String.ofList second.write ↔ first.unowned = second.unowned) ∧
      ∀ text message, whole Message.read text = .ok message →
        ∀ attachment ∈ message.attachment, attachment.owner = "") ∧
    ((∀ attachment : Attachment,
        whole Attachment.read (String.ofList attachment.write) = .ok attachment.unowned) ∧
      (∀ first second : Attachment,
        String.ofList first.write = String.ofList second.write ↔ first.unowned = second.unowned) ∧
      ∀ text attachment, whole Attachment.read text = .ok attachment → attachment.owner = "") := by
  refine ⟨⟨Message.read_write, fun first second => ?_, fun text message found => ?_⟩,
    Attachment.read_write, fun first second => ?_, fun text attachment found => ?_⟩
  · exact written_alike_iff Message.read_write Message.write_unowned
  · obtain ⟨rest, read⟩ := read_of_whole found
    exact Message.owner_of_read read
  · exact written_alike_iff Attachment.read_write Attachment.write_unowned
  · obtain ⟨rest, read⟩ := read_of_whole found
    exact Attachment.owner_of_read read

end MessageStore
