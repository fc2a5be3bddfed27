/-!
# Blank characters

The characters with the Unicode property `White_Space`, and words stripped of
them at both ends.  The property has twenty-five members; five of them are the
line controls U+0009 to U+000D and eleven the spaces U+2000 to U+200A.
-/

namespace MessageStore.Text

/-- A character with the Unicode property `White_Space`. -/
def isBlank (c : Char) : Bool :=
  let n := c.toNat
  (0x0009 ≤ n && n ≤ 0x000d) || n == 0x0020 || n == 0x0085 || n == 0x00a0 || n == 0x1680 ||
    (0x2000 ≤ n && n ≤ 0x200a) || n == 0x2028 || n == 0x2029 || n == 0x202f || n == 0x205f ||
    n == 0x3000

/-- The text without the blanks it begins with and the blanks it ends with. -/
def strip (text : List Char) : List Char :=
  ((text.dropWhile isBlank).reverse.dropWhile isBlank).reverse

@[simp]
theorem strip_nil : strip [] = [] :=
  rfl

end MessageStore.Text
