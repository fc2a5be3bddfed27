import MessageStore.Host.FullPlace
import MessageStore.Proofs.Host.Paths

/-!
# File trees that keep their directories

What is put at one place is not seen at another, and files come and go while the
directories stay.  A way is paved if it leads through directories only: then
making directories along it does nothing, and a name that follows it comes to
the same place however the files have changed.
-/

namespace MessageStore

/-! ## Entries by key -/

section Lookup

variable {κ β : Type} [DecidableEq κ] [BEq κ] [LawfulBEq κ]

/-- Entries chosen by their keys. -/
theorem lookup_filter (entries : List (κ × β)) (keep : κ → Bool) (asked : κ) :
    (entries.filter fun entry => keep entry.1).lookup asked =
      if keep asked then entries.lookup asked else none := by
  induction entries with
  | nil => simp
  | cons entry entries ih =>
      by_cases here : asked = entry.1
      · subst here
        cases kept : keep entry.1 with
        | true =>
            rw [List.filter_cons_of_pos (by exact kept), List.lookup_cons, List.lookup_cons, beq_self_eq_true,
              if_pos rfl]
        | false =>
            rw [kept] at ih
            rw [List.filter_cons_of_neg (by simp [kept]), ih]
            rfl
      · have apart : (asked == entry.1) = false := beq_eq_false_iff_ne.mpr here
        rw [List.filter_cons]
        split
        · rw [List.lookup_cons, List.lookup_cons, apart, ih]
        · rw [List.lookup_cons, apart, ih]

/-- Entries with one key taken away. -/
theorem lookup_filter_ne (entries : List (κ × β)) (key asked : κ) :
    (entries.filter fun entry => entry.1 ≠ key).lookup asked =
      if asked = key then none else entries.lookup asked := by
  rw [lookup_filter entries (fun other => other ≠ key) asked]
  by_cases same : asked = key <;> simp [same]

/-- An entry put in the place of any other with its key. -/
theorem lookup_put (entries : List (κ × β)) (key asked : κ) (value : β) :
    ((key, value) :: entries.filter fun entry => entry.1 ≠ key).lookup asked =
      if asked = key then some value else entries.lookup asked := by
  rw [List.lookup_cons, lookup_filter_ne]
  by_cases same : asked = key
  · simp [same]
  · simp [beq_eq_false_iff_ne.mpr same, same]

end Lookup

namespace Host.FileTree

open Host.Path (Component)

variable {tree other : FileTree} {place here asked : Place}

/-! ## Single places -/

theorem node?_put (tree : FileTree) (solid : place ≠ []) (node : Node) (asked : Place) :
    (tree.put place node).node? asked = if asked = place then some node else tree.node? asked := by
  unfold node? put
  by_cases root : asked = []
  · simp [root, solid.symm]
  · rw [if_neg root, if_neg root]
    exact lookup_put tree.entries place asked node

theorem node?_remove (tree : FileTree) (solid : place ≠ []) (asked : Place) :
    (tree.remove place).node? asked = if asked = place then none else tree.node? asked := by
  unfold node? remove
  by_cases root : asked = []
  · simp [root, solid.symm]
  · rw [if_neg root, if_neg root]
    exact lookup_filter_ne tree.entries place asked

/-- The root is always there. -/
theorem ne_nil_of_absent (absent : tree.node? place = none) : place ≠ [] := by
  rintro rfl
  cases absent

theorem isDirectory_iff : tree.isDirectory place = true ↔ tree.node? place = some .directory := by
  unfold isDirectory
  cases tree.node? place with
  | none => simp
  | some node => cases node <;> simp [Node.isDirectory]

/-- Where neither a file nor a directory is, nothing is. -/
theorem node?_eq_none (noFile : tree.isFile place = false)
    (noDirectory : tree.isDirectory place = false) : tree.node? place = none := by
  unfold isFile at noFile
  unfold isDirectory at noDirectory
  cases found : tree.node? place with
  | none => rfl
  | some node => simp_all

/-- Taking a file away takes nothing else, and a directory not at all. -/
theorem node?_removeFile (tree : FileTree) (solid : place ≠ []) (asked : Place) :
    (tree.removeFile place).node? asked =
      if asked = place ∧ tree.isDirectory place = false then none else tree.node? asked := by
  unfold removeFile isFile isDirectory
  cases found : tree.node? place with
  | none =>
      by_cases same : asked = place
      · simp [same, found]
      · simp [same]
  | some node =>
      cases directory : node.isDirectory with
      | true => simp [directory]
      | false => simp [directory, node?_remove tree solid]

theorem isDirectory_removeFile (tree : FileTree) (solid : place ≠ []) (asked : Place) :
    (tree.removeFile place).isDirectory asked = tree.isDirectory asked := by
  rw [Bool.eq_iff_iff, isDirectory_iff, isDirectory_iff, node?_removeFile tree solid]
  split
  · rename_i taken
    rw [← isDirectory_iff, taken.1, taken.2]
    simp
  · rfl

/-! ## Directories that stay -/

/-- All directories of a tree are directories of another one. -/
structure Keeps (tree other : FileTree) : Prop where
  working : other.working = tree.working
  directories : ∀ place, tree.isDirectory place = true → other.isDirectory place = true

theorem Keeps.refl (tree : FileTree) : Keeps tree tree :=
  ⟨rfl, fun _ directory => directory⟩

theorem Keeps.trans {last : FileTree} (first : Keeps tree other) (second : Keeps other last) :
    Keeps tree last :=
  ⟨second.working.trans first.working,
    fun place directory => second.directories place (first.directories place directory)⟩

/-- Putting something where no directory is keeps the directories. -/
theorem keeps_put (solid : place ≠ []) (noDirectory : tree.isDirectory place = false)
    (node : Node) : Keeps tree (tree.put place node) := by
  refine ⟨rfl, fun asked directory => ?_⟩
  have apart : asked ≠ place := by
    rintro rfl
    rw [directory] at noDirectory
    cases noDirectory
  rw [isDirectory_iff] at directory ⊢
  rw [node?_put tree solid, if_neg apart, directory]

/-- Taking a file away keeps the directories. -/
theorem keeps_removeFile (solid : place ≠ []) : Keeps tree (tree.removeFile place) := by
  refine ⟨?_, fun asked directory => ?_⟩
  · unfold removeFile
    split <;> rfl
  · rw [isDirectory_removeFile tree solid, directory]

/-! ## Paved ways -/

/-- A way from a place through directories that are there. -/
inductive Paved (tree : FileTree) : Place → List Component → Prop
  | done {here : Place} : Paved tree here []
  | step {here next : Place} {component : Component} {rest : List Component}
      (enters : tree.enter here component = .ok next) (directory : tree.isDirectory next = true)
      (more : Paved tree next rest) : Paved tree here (component :: rest)

theorem isDirectory_of_enter {next : Place} {component : Component}
    (enters : tree.enter here component = .ok next) : tree.isDirectory here = true := by
  unfold enter at enters
  cases directory : tree.isDirectory here with
  | true => rfl
  | false => simp [directory] at enters

theorem Keeps.enter {next : Place} {component : Component} (keeps : Keeps tree other)
    (enters : tree.enter here component = .ok next) : other.enter here component = .ok next := by
  have directory := isDirectory_of_enter enters
  have stays := keeps.directories here directory
  unfold FileTree.enter at enters ⊢
  simpa [directory, stays] using enters

/-- A way stays paved where the directories stay. -/
theorem Paved.keeps {way : List Component} (paved : Paved tree here way)
    (keeps : Keeps tree other) : Paved other here way := by
  induction paved with
  | done => exact .done
  | step enters directory _ ih =>
      exact .step (keeps.enter enters) (keeps.directories _ directory) ih

/-- Along a paved way no directories have to be made. -/
theorem makeDirectoriesFrom_of_paved {way : List Component} (paved : Paved tree here way)
    (made : Bool) : tree.makeDirectoriesFrom made here way = (tree, .ok ()) := by
  induction paved generalizing made with
  | done => rfl
  | step enters directory _ ih =>
      have node := isDirectory_iff.mp directory
      simp only [makeDirectoriesFrom, enters, node, Node.isDirectory]
      simpa using ih made

/-- Making directories paves the way and keeps those that are there. -/
theorem paved_of_makeDirectoriesFrom {way : List Component} {made : Bool}
    (success : tree.makeDirectoriesFrom made here way = (other, .ok ())) :
    Keeps tree other ∧ Paved other here way := by
  induction way generalizing tree here made with
  | nil =>
      cases success
      exact ⟨.refl _, .done⟩
  | cons component rest ih =>
      unfold makeDirectoriesFrom at success
      split at success
      · cases success
      · rename_i next enters
        split at success
        · rename_i absent
          have solid := ne_nil_of_absent absent
          have noDirectory : tree.isDirectory next = false := by
            simp [isDirectory, absent]
          have put := keeps_put solid noDirectory .directory
          obtain ⟨keeps, paved⟩ := ih success
          have directory : (tree.put next .directory).isDirectory next = true := by
            rw [isDirectory_iff, node?_put tree solid, if_pos rfl]
          exact ⟨put.trans keeps,
            .step (keeps.enter (put.enter enters)) (keeps.directories next directory) paved⟩
        · rename_i node found
          split at success
          · cases success
          · rename_i passes
            obtain ⟨keeps, paved⟩ := ih success
            refine ⟨keeps, .step (keeps.enter enters) ?_ paved⟩
            -- The last component leads to a directory, and so do those before another one.
            cases paved with
            | step enters _ _ => exact isDirectory_of_enter enters
            | done =>
                have directory : node.isDirectory = true := by simpa using passes
                apply keeps.directories
                simp [isDirectory, found, directory]

/-! ## Nothing but directories -/

/-- Nothing has come but directories, where nothing was. -/
def OnlyPaved (tree other : FileTree) : Prop :=
  ∀ asked, other.node? asked = tree.node? asked ∨
    tree.node? asked = none ∧ other.node? asked = some .directory

theorem OnlyPaved.refl (tree : FileTree) : OnlyPaved tree tree :=
  fun _ => .inl rfl

theorem OnlyPaved.trans {last : FileTree} (first : OnlyPaved tree other)
    (second : OnlyPaved other last) : OnlyPaved tree last := by
  intro asked
  rcases second asked with same | ⟨gone, directory⟩
  · rw [same]
    exact first asked
  · rcases first asked with same | ⟨-, there⟩
    · exact .inr ⟨same.symm.trans gone, directory⟩
    · cases gone.symm.trans there

theorem onlyPaved_put (absent : tree.node? place = none) :
    OnlyPaved tree (tree.put place .directory) := by
  intro asked
  rw [node?_put tree (ne_nil_of_absent absent)]
  split
  · rename_i same
    exact .inr ⟨same ▸ absent, rfl⟩
  · exact .inl rfl

/-- Making directories puts directories where nothing is, and does nothing else. -/
theorem onlyPaved_makeDirectoriesFrom (tree : FileTree) (made : Bool) (here : Place)
    (way : List Component) : OnlyPaved tree (tree.makeDirectoriesFrom made here way).1 := by
  induction way generalizing tree made here with
  | nil => exact .refl tree
  | cons component rest ih =>
      unfold makeDirectoriesFrom
      split
      · exact .refl tree
      · split
        · rename_i absent
          exact (onlyPaved_put absent).trans (ih _ _ _)
        · split
          · exact .refl tree
          · exact ih _ _ _

theorem onlyPaved_makeDirectories (tree : FileTree) (path : String) :
    OnlyPaved tree (tree.makeDirectories path).1 := by
  unfold makeDirectories
  split
  · exact .refl tree
  · exact onlyPaved_makeDirectoriesFrom tree false _ _

/-- Where nothing was, there is no file. -/
theorem OnlyPaved.isFile (paved : OnlyPaved tree other) (absent : tree.node? asked = none) :
    other.isFile asked = false := by
  unfold FileTree.isFile
  rcases paved asked with same | ⟨-, directory⟩
  · rw [same, absent]
    rfl
  · rw [directory]
    rfl

/-- What is no directory was there. -/
theorem OnlyPaved.node? (paved : OnlyPaved tree other)
    (noDirectory : other.node? asked ≠ some .directory) : other.node? asked = tree.node? asked := by
  rcases paved asked with same | ⟨-, directory⟩
  · exact same
  · exact absurd directory noDirectory

/-! ## Where a path leads -/

/-- From a directory a component leads to the same place while the directories stay. -/
theorem Keeps.extend? (keeps : Keeps tree other) (directory : tree.isDirectory here = true)
    (component : Component) : other.extend? here component = tree.extend? here component := by
  have before := isDirectory_iff.mp directory
  have after := isDirectory_iff.mp (keeps.directories here directory)
  unfold FileTree.extend? blocks
  rw [before, after]

/-- A component that can be entered leads nowhere else when it is written out. -/
theorem eq_of_enter_of_extend? {next there : Place} {component : Component}
    (enters : tree.enter here component = .ok next)
    (extended : tree.extend? here component = some there) : there = next := by
  have directory := isDirectory_of_enter enters
  unfold enter at enters
  unfold FileTree.extend? at extended
  rw [directory] at enters
  by_cases upward : component = Path.upward
  · simp only [upward, Bool.not_true, Bool.false_eq_true, if_false, if_true] at enters extended
    exact (Option.some.inj extended).symm.trans (Except.ok.inj enters)
  · simp only [upward, Bool.not_true, Bool.false_eq_true, if_false] at enters extended
    split at enters
    · cases enters
    · split at extended
      · cases extended
      · split at extended
        · cases extended
        · exact (Option.some.inj extended).symm.trans (Except.ok.inj enters)

/-- A paved way leads to the same directory while the directories stay. -/
theorem Paved.extend? {way : List Component} (paved : Paved tree here way)
    (begins : tree.isDirectory here = true) (keeps : Keeps tree other) :
    way.foldlM other.extend? here = way.foldlM tree.extend? here ∧
      ∀ there, way.foldlM tree.extend? here = some there → tree.isDirectory there = true := by
  induction paved with
  | done => exact ⟨rfl, fun there found => Option.some.inj found ▸ begins⟩
  | @step here next component rest enters directory _ ih =>
      rw [List.foldlM_cons, List.foldlM_cons, keeps.extend? begins]
      cases extended : tree.extend? here component with
      | none => exact ⟨rfl, fun there found => by cases found⟩
      | some there =>
          -- Entering a component and spelling it out come to one place, so `ih` goes on from there.
          obtain rfl := eq_of_enter_of_extend? enters extended
          exact ih directory

/-- A path leads to a place, and the directories before that are there. -/
structure Leads (tree : FileTree) (path : String) (place : Place) : Prop where
  begins : tree.isDirectory (tree.start path) = true
  paved : Paved tree (tree.start path) (Path.components path).dropLast
  usable : ∀ parent, (Path.parent? path).filter (· ≠ "") = some parent →
    requireUsable parent = .ok ()
  full : tree.fullPlace? (Text.encode path) = some place

theorem Keeps.start_eq (keeps : Keeps tree other) (path : String) :
    other.start path = tree.start path := by
  unfold start
  rw [keeps.working]

/-- The root is not the place of a file. -/
theorem ne_nil_of_fullPlace? {name : List UInt8} (full : tree.fullPlace? name = some place) :
    place ≠ [] := by
  rintro rfl
  unfold fullPlace? at full
  obtain ⟨there, -, fits⟩ := Option.bind_eq_some_iff.mp full
  split at fits
  · rename_i long
    obtain rfl := Option.some.inj fits
    exact absurd long.1 (by decide)
  · cases fits

theorem fullPlace?_encode (tree : FileTree) (path : String) :
    tree.fullPlace? (Text.encode path) =
      ((Path.components path).foldlM tree.extend? (tree.start path)).bind fun place =>
        if 2 ≤ place.spelledLength ∧ place.spelledLength + 8 ≤ longestSpelled then some place
        else none := by
  unfold fullPlace? start
  simp only [Path.head?_encode]
  rfl

/-- A path leads to the same place while the directories stay. -/
theorem Leads.keeps {path : String} (leads : Leads tree path place) (keeps : Keeps tree other) :
    Leads other path place := by
  have start := keeps.start_eq path
  refine ⟨?_, ?_, leads.usable, ?_⟩
  · rw [start]
    exact keeps.directories _ leads.begins
  · rw [start]
    exact leads.paved.keeps keeps
  · have same : (Path.components path).foldlM other.extend? (tree.start path) =
        (Path.components path).foldlM tree.extend? (tree.start path) := by
      obtain ⟨way, directory⟩ := leads.paved.extend? leads.begins keeps
      rcases List.eq_nil_or_concat (Path.components path) with none | ⟨before, last, shape⟩
      · rw [none]
        rfl
      · rw [shape, List.concat_eq_append, List.dropLast_concat] at way directory
        rw [shape, List.concat_eq_append, List.foldlM_append, List.foldlM_append, way]
        cases led : before.foldlM tree.extend? (tree.start path) with
        | none => rfl
        | some there =>
            have last := keeps.extend? (directory there led) last
            simp [last]
    rw [← leads.full, fullPlace?_encode, fullPlace?_encode, start, same]

/-- No directory has to be made before a path that leads to a place. -/
theorem Leads.makeDirectories {path parent : String} (leads : Leads tree path place)
    (found : (Path.parent? path).filter (· ≠ "") = some parent) :
    tree.makeDirectories parent = (tree, .ok ()) := by
  obtain ⟨above, named⟩ := Option.filter_eq_some_iff.mp found
  have named : parent ≠ "" := by simpa using named
  have start : tree.start parent = tree.start path := by
    unfold FileTree.start
    rw [Path.isAbsolute_parent above named]
  unfold FileTree.makeDirectories
  rw [leads.usable parent found]
  simp only
  rw [start, ← Path.components_parent above named]
  exact makeDirectoriesFrom_of_paved leads.paved false

/-- The directories before a path without parent are there. -/
theorem leads_of_no_parent {path : String} (none : (Path.parent? path).filter (· ≠ "") = none)
    (begins : tree.isDirectory (tree.start path) = true)
    (full : tree.fullPlace? (Text.encode path) = some place) : Leads tree path place where
  begins := begins
  paved := by
    rw [Path.components_of_no_parent none]
    exact .done
  usable := fun parent found => by
    rw [none] at found
    cases found
  full := full

/-- When the directories before a path have been made, it leads to its place. -/
theorem leads_of_makeDirectories {path parent : String}
    (found : (Path.parent? path).filter (· ≠ "") = some parent)
    (made : tree.makeDirectories parent = (other, .ok ()))
    (begins : tree.isDirectory (tree.start path) = true)
    (full : other.fullPlace? (Text.encode path) = some place) :
    Keeps tree other ∧ Leads other path place := by
  obtain ⟨above, named⟩ := Option.filter_eq_some_iff.mp found
  have named : parent ≠ "" := by simpa using named
  have start : tree.start parent = tree.start path := by
    unfold FileTree.start
    rw [Path.isAbsolute_parent above named]
  unfold FileTree.makeDirectories at made
  split at made
  · cases made
  · rename_i usable
    obtain ⟨keeps, paved⟩ := paved_of_makeDirectoriesFrom made
    rw [start, ← Path.components_parent above named] at paved
    refine ⟨keeps, ?_, ?_, ?_, full⟩
    · rw [keeps.start_eq]
      exact keeps.directories _ begins
    · rw [keeps.start_eq]
      exact paved
    · intro again same
      rw [found] at same
      exact Option.some.inj same ▸ usable

end Host.FileTree

end MessageStore
