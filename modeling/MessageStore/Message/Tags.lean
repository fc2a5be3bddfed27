import MessageStore.Text.Pieces

/-!
# Flattened tags

The tags of a message are stored in one text, with commas between them.  The
empty text stands for no tags, so a tag that holds a comma comes back in
pieces, and a lone empty tag does not come back.
-/

namespace MessageStore.Tags

/-- The tags in one text. -/
def join (tags : List String) : String :=
  String.ofList (Text.joined ',' (tags.map String.toList))

/-- The tags that a text holds. -/
def split (text : String) : List String :=
  if text = "" then [] else (Text.pieces ',' text.toList).map String.ofList

end MessageStore.Tags
