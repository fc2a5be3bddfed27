import MessageStore.Proofs.Host.Trees
import MessageStore.Proofs.Outcome

/-!
# Files that hold texts

Which texts files can be read as, and what a file in a directory is found by: the
path of the directory continued by its name, unless the two are too long together.
A directory can be spelled in many ways, since slashes and lone dots at the end of
a path lead nowhere else.
-/

namespace MessageStore

open Host.Path (Component)
open Text (pieces)

namespace Text

theorem encode_eq_data (text : String) : encode text = text.toByteArray.data.toList := by
  unfold encode
  rw [ByteArray.toList, toList_loop]
  rfl

/-- Bytes are text in UTF-8 exactly if they are the bytes of a text. -/
theorem fromUTF8?_eq_some_iff {bytes : List UInt8} {text : String} :
    String.fromUTF8? ⟨bytes.toArray⟩ = some text ↔ bytes = encode text := by
  rw [encode_eq_data]
  unfold String.fromUTF8?
  constructor
  · intro found
    split at found
    · cases found
      rfl
    · cases found
  · rintro rfl
    rw [dif_pos text.isValidUTF8]
    rfl

end Text

namespace Host

namespace Path

/-! ## Paths that go on -/

section Joined

variable (base : List UInt8) {path : List UInt8}

/-- A path that does not begin at the root goes on behind a slash. -/
theorem join_cases (relative : isRooted path = false) :
    base = [] ∧ join base path = path ∨
      ∃ front, join base path = front ++ slash :: path ∧
        (base = front ∧ front ≠ [] ∨ base = front ++ [slash]) := by
  unfold join
  rw [relative]
  by_cases empty : base = []
  · subst empty
    exact .inl ⟨rfl, rfl⟩
  · right
    by_cases ended : base.getLast? = some slash
    · obtain ⟨front, rfl⟩ := List.getLast?_eq_some_iff.mp ended
      exact ⟨front, by simp, .inr rfl⟩
    · exact ⟨base, by simp [empty, ended], .inl ⟨rfl, empty⟩⟩

/-- The pieces of a path come behind those of the path that it continues, which may end with an
empty one. -/
theorem pieces_join (relative : isRooted path = false) :
    ∃ front, pieces slash (join base path) = front ++ pieces slash path ∧
      front.filter isComponent = componentsOf base := by
  rcases join_cases base relative with ⟨rfl, same⟩ | ⟨front, whole, ⟨rfl, -⟩ | rfl⟩
  · exact ⟨[], by rw [same]; rfl, rfl⟩
  · exact ⟨_, by rw [whole, Text.pieces_append], rfl⟩
  · refine ⟨_, by rw [whole, Text.pieces_append], ?_⟩
    rw [componentsOf, Text.pieces_append, List.filter_append]
    exact (List.append_nil _).symm

theorem componentsOf_join (relative : isRooted path = false) :
    componentsOf (join base path) = componentsOf base ++ componentsOf path := by
  obtain ⟨front, cut, same⟩ := pieces_join base relative
  rw [componentsOf, cut, List.filter_append, same, componentsOf, componentsOf]

theorem endsInDirectory_join (relative : isRooted path = false) :
    endsInDirectory (join base path) = endsInDirectory path := by
  obtain ⟨front, cut, -⟩ := pieces_join base relative
  unfold endsInDirectory
  rw [cut, List.getLast?_append_of_ne_nil _ (Text.pieces_ne_nil _ _)]

theorem isRooted_join (relative : isRooted path = false) :
    isRooted (join base path) = isRooted base := by
  rcases join_cases base relative with ⟨rfl, same⟩ | ⟨front, whole, ⟨rfl, some⟩ | rfl⟩
  · rw [same, relative]
    rfl
  · unfold isRooted
    rw [whole, List.head?_append_of_ne_nil _ some]
  · unfold isRooted
    rw [whole, List.head?_append, List.head?_append]
    rfl

theorem le_length_join (relative : isRooted path = false) :
    base.length + path.length ≤ (join base path).length := by
  unfold join
  rw [relative]
  simp only [Bool.false_eq_true, if_false]
  split <;> simp only [List.length_append, List.length_cons] <;> omega

theorem length_join_le : (join base path).length ≤ base.length + path.length + 1 := by
  unfold join
  split
  · omega
  · split <;> simp only [List.length_append, List.length_cons] <;> omega

/-- Joining puts at most a slash between two paths. -/
theorem mem_join {byte : UInt8} (member : byte ∈ join base path) :
    byte ∈ base ∨ byte = slash ∨ byte ∈ path := by
  unfold join at member
  split at member
  · exact .inr (.inr member)
  · split at member
    · exact (List.mem_append.mp member).imp_right .inr
    · exact (List.mem_append.mp member).imp_right List.mem_cons.mp

end Joined

/-- Slashes and lone dots by turns, which lead nowhere. -/
def idle : Nat → List UInt8
  | 0 => []
  | number + 1 => slash :: '.'.toUInt8 :: idle number

theorem length_idle (number : Nat) : (idle number).length = 2 * number := by
  induction number with
  | zero => rfl
  | succ number ih =>
      rw [idle, List.length_cons, List.length_cons, ih]
      omega

/-- Slashes and lone dots at the end of a path are no components. -/
theorem componentsOf_idle (path : List UInt8) (number : Nat) :
    componentsOf (path ++ idle number) = componentsOf path := by
  induction number generalizing path with
  | zero => rw [idle, List.append_nil]
  | succ number ih =>
      have cut : pieces slash (path ++ slash :: ['.'.toUInt8]) =
          pieces slash path ++ pieces slash ['.'.toUInt8] := Text.pieces_append path _
      have shape : path ++ idle (number + 1) = path ++ slash :: ['.'.toUInt8] ++ idle number := by
        rw [idle, List.append_assoc]
        rfl
      rw [shape, ih, componentsOf, cut, List.filter_append]
      exact List.append_nil _

theorem zero_not_mem_idle (number : Nat) : 0 ∉ idle number := by
  induction number with
  | zero => exact List.not_mem_nil
  | succ number ih =>
      rw [idle, List.mem_cons, List.mem_cons]
      exact not_or.mpr ⟨by decide, not_or.mpr ⟨by decide, ih⟩⟩

/-! ## Names of files -/

/-- The name of a file: a path of one component that does not lead up. -/
structure FileName (name : List UInt8) : Prop where
  free : slash ∉ name
  component : isComponent name = true
  inside : name ≠ upward
  noZero : 0 ∉ name
  short : name.length ≤ longestComponent

/-- A word without slashes that is neither idle nor two dots is the name of a file. -/
theorem fileName_of_word {name : String} {chars : List Char} (word : name.toList = chars)
    (free : slash ∉ Text.encodeChars chars) (component : isComponent (Text.encodeChars chars) = true)
    (inside : chars ≠ ['.', '.']) (noZero : 0 ∉ Text.encodeChars chars)
    (short : (Text.encodeChars chars).length ≤ longestComponent) : FileName (Text.encode name) := by
  rw [Text.encode_eq, word]
  refine ⟨free, component, ?_, noZero, short⟩
  rw [upward, Text.encode_eq]
  exact fun same => inside (Text.encodeChars_injective same)

namespace FileName

variable {name : List UInt8}

theorem relative (named : FileName name) : isRooted name = false := by
  unfold isRooted
  rw [beq_eq_false_iff_ne]
  exact fun begins => named.free (List.mem_of_mem_head? begins)

theorem componentsOf (named : FileName name) : componentsOf name = [name] := by
  rw [Path.componentsOf, Text.pieces_of_free named.free]
  simp [named.component]

theorem file (named : FileName name) : endsInDirectory name = false := by
  rw [endsInDirectory, Text.pieces_of_free named.free]
  simp [named.component]

theorem ne_nil (named : FileName name) : name ≠ [] := by
  rintro rfl
  cases named.component

end FileName

end Path

namespace FileTree

variable {files : FileTree} {path : List UInt8} {text : String}

/-- The file at a path holds a text. -/
def HoldsText (files : FileTree) (path : List UInt8) (text : String) : Prop :=
  ∃ place, files.resolve path = .ok place ∧ files.node? place = some (.bytes (Text.encode text))

theorem readText_eq_ok_iff : files.readText path = .ok text ↔ files.HoldsText path text := by
  unfold readText HoldsText
  rw [bind_eq_ok_iff]
  refine exists_congr fun place => and_congr_right fun _ => ?_
  cases found : files.node? place with
  | none => simp [throw, throwThe, MonadExceptOf.throw]
  | some node =>
      cases node with
      | bytes content =>
          simp only [Option.some.injEq, Node.bytes.injEq, ← Text.fromUTF8?_eq_some_iff]
          cases String.fromUTF8? ⟨content.toArray⟩ with
          | none => simp [throw, throwThe, MonadExceptOf.throw]
          | some held => simp [pure, Except.pure]
      | _ => simp [throw, throwThe, MonadExceptOf.throw]

/-! ## Paths that are followed -/

theorem requireFit_eq_ok_iff :
    requireFit path = .ok () ↔ 0 ∉ path ∧ path.length ≤ Path.longestPath := by
  unfold requireFit
  split
  · rename_i zero
    exact iff_of_false nofun fun fits => fits.1 zero
  · rename_i noZero
    split
    · rename_i long
      exact iff_of_false nofun fun fits => Nat.not_le.mpr long fits.2
    · rename_i short
      exact iff_of_true rfl ⟨noZero, Nat.not_lt.mp short⟩

theorem follow_append (files : FileTree) (here : Place) (first second : List Component) :
    files.follow here (first ++ second) = (do files.follow (← files.follow here first) second) := by
  induction first generalizing here with
  | nil => rfl
  | cons component first ih =>
      rw [List.cons_append, follow, follow]
      cases files.enter here component with
      | error fault => rfl
      | ok next =>
          simp only [bind, Except.bind]
          split
          · rfl
          · exact ih next

/-- A path is there exactly if it is neither empty nor too long and can be followed to its end, which
is a directory if the path says so. -/
theorem resolve_eq_ok_iff {place : Place} :
    files.resolve path = .ok place ↔
      (0 ∉ path ∧ path.length ≤ Path.longestPath) ∧ path ≠ [] ∧
        files.follow (files.startOf path) (Path.componentsOf path) = .ok place ∧
          (Path.endsInDirectory path = true → files.isDirectory place = true) := by
  rw [← requireFit_eq_ok_iff]
  unfold resolve
  constructor
  · intro resolved
    obtain ⟨⟨⟩, fit, resolved⟩ := bind_eq_ok_iff.mp resolved
    split at resolved
    · cases resolved
    · rename_i present
      obtain ⟨there, followed, resolved⟩ := bind_eq_ok_iff.mp resolved
      split at resolved
      · cases resolved
      · rename_i ends
        cases resolved
        exact ⟨fit, present, followed, fun asks => by simpa [asks] using ends⟩
  · rintro ⟨fit, present, followed, ends⟩
    rw [fit, followed]
    simp only [bind, Except.bind, if_neg present]
    rw [if_neg fun asks => asks.2 (ends asks.1)]
    rfl

theorem resolve_root (files : FileTree) : files.resolve [Path.slash] = .ok [] :=
  resolve_eq_ok_iff.mpr ⟨⟨by decide, by decide⟩, by decide, rfl, fun _ => rfl⟩

/-- A directory is also found behind slashes and lone dots. -/
theorem resolve_idle {place : Place} (resolved : files.resolve path = .ok place)
    (isDirectory : files.isDirectory place = true) {number : Nat}
    (short : path.length + 2 * number ≤ Path.longestPath) :
    files.resolve (path ++ Path.idle number) = .ok place := by
  obtain ⟨⟨noZero, -⟩, present, followed, -⟩ := resolve_eq_ok_iff.mp resolved
  have starts : files.startOf (path ++ Path.idle number) = files.startOf path := by
    rw [startOf, startOf, Path.isRooted, List.head?_append_of_ne_nil _ present]
    rfl
  refine resolve_eq_ok_iff.mpr
    ⟨⟨?_, ?_⟩, List.append_ne_nil_of_left_ne_nil present _, ?_, fun _ => isDirectory⟩
  · rw [List.mem_append]
    exact not_or.mpr ⟨noZero, Path.zero_not_mem_idle number⟩
  · rwa [List.length_append, Path.length_idle]
  · rw [starts, Path.componentsOf_idle, followed]

/-! ## Files in a directory -/

section Named

variable {directory : Place} {name : List UInt8}

/-- A name is entered in a directory. -/
theorem enter_fileName (named : Path.FileName name)
    (isDirectory : files.isDirectory directory = true) :
    files.enter directory name = .ok (directory ++ [name]) := by
  unfold enter
  rw [isDirectory, if_neg (by simp), if_neg named.inside, if_neg (Nat.not_lt.mpr named.short)]

variable (named : Path.FileName name) (resolved : files.resolve path = .ok directory)
  (isDirectory : files.isDirectory directory = true)
include named resolved isDirectory

/-- A name leads from the directory of a path to the file of that name in it, if there is one and
the path and the name are not too long together. -/
theorem resolve_join_eq_ok_iff {place : Place} :
    files.resolve (Path.join path name) = .ok place ↔
      (Path.join path name).length ≤ Path.longestPath ∧
        (files.node? (directory ++ [name])).isSome = true ∧ directory ++ [name] = place := by
  obtain ⟨⟨noZero, -⟩, -, followed, -⟩ := resolve_eq_ok_iff.mp resolved
  have starts : files.startOf (Path.join path name) = files.startOf path := by
    unfold startOf
    rw [Path.isRooted_join path named.relative]
  have zeroFree : 0 ∉ Path.join path name := by
    intro zero
    rcases Path.mem_join path zero with inPath | isSlash | inName
    · exact noZero inPath
    · cases isSlash
    · exact named.noZero inName
  have present : Path.join path name ≠ [] := by
    intro none
    have cut := Path.componentsOf_join path named.relative
    rw [none, named.componentsOf] at cut
    exact absurd cut.symm (List.append_ne_nil_of_right_ne_nil _ (List.cons_ne_nil _ _))
  have last : files.follow directory [name] =
      if (files.node? (directory ++ [name])).isSome then .ok (directory ++ [name])
      else .error .notFound := by
    rw [follow, enter_fileName named isDirectory]
    simp only [bind, Except.bind]
    cases files.node? (directory ++ [name]) with
    | none => rfl
    | some node => rfl
  rw [resolve_eq_ok_iff, starts, Path.componentsOf_join path named.relative, named.componentsOf,
    follow_append, followed, Path.endsInDirectory_join path named.relative, named.file]
  simp only [zeroFree, present, not_false_eq_true, true_and, ne_eq, Bool.false_eq_true,
    false_implies, and_true]
  refine and_congr_right fun _ => ?_
  change files.follow directory [name] = _ ↔ _
  rw [last]
  split
  · rename_i found
    simp [found]
  · rename_i missing
    simp [missing]

/-- There is a file of a name at the path of a directory and the name if there is one in the
directory, unless the two are too long together. -/
theorem exists_join :
    files.exists (Path.join path name) = true ↔
      (Path.join path name).length ≤ Path.longestPath ∧
        (files.node? (directory ++ [name])).isSome = true := by
  have there : files.exists (Path.join path name) = true ↔
      ∃ place, files.resolve (Path.join path name) = .ok place := by
    unfold «exists»
    cases files.resolve (Path.join path name) with
    | error fault => simp [Except.toBool]
    | ok place => simp [Except.toBool]
  rw [there]
  simp only [resolve_join_eq_ok_iff named resolved isDirectory, ← and_assoc, exists_and_left,
    exists_eq', and_true]

/-- The file at the path of a directory and a name holds a text if the one of the name in the
directory does, unless the two are too long together. -/
theorem holdsText_join :
    files.HoldsText (Path.join path name) text ↔
      (Path.join path name).length ≤ Path.longestPath ∧
        files.node? (directory ++ [name]) = some (.bytes (Text.encode text)) := by
  unfold HoldsText
  simp only [resolve_join_eq_ok_iff named resolved isDirectory]
  constructor
  · rintro ⟨_, ⟨short, -, rfl⟩, holds⟩
    exact ⟨short, holds⟩
  · rintro ⟨short, holds⟩
    exact ⟨_, ⟨short, by rw [holds]; rfl, rfl⟩, holds⟩

end Named

end FileTree

end Host

end MessageStore
