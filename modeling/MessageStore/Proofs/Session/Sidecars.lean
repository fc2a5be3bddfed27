import MessageStore.Session.Sidecar
import MessageStore.Proofs.Host.Trees

/-!
# The files beside an open database

Using, changing and leaving a database move it between two states: while it is
used, its changes are in the log, and when nobody uses it, all of it is in the
file.  In both states the same database is found, and no directory comes or goes.
-/

namespace MessageStore.Sidecar

open Host (FileTree Node Place)
open Host.FileTree
open Relational (Database Fault)

variable {files : FileTree} {place : Place} {db : Database}

/-! ## Places beside a place -/

theorem exists_eq_concat (solid : place ≠ []) : ∃ before name, place = before ++ [name] :=
  ⟨place.dropLast, place.getLast solid, (List.dropLast_concat_getLast solid).symm⟩

theorem beside_concat (before : Place) (name : Host.Path.Component) (ending : String) :
    beside (before ++ [name]) ending = before ++ [name ++ Text.encode ending] := by
  unfold beside
  rw [List.getLast?_concat, List.dropLast_concat]

theorem beside_ne_nil (solid : place ≠ []) (ending : String) : beside place ending ≠ [] := by
  obtain ⟨before, name, rfl⟩ := exists_eq_concat solid
  rw [beside_concat]
  simp

/-- Without an ending, a place is beside itself. -/
theorem beside_empty (solid : place ≠ []) : beside place "" = place := by
  obtain ⟨before, name, rfl⟩ := exists_eq_concat solid
  rw [beside_concat, Text.encode_eq]
  simp [Text.encodeChars]

/-- Different endings lead to different places. -/
theorem beside_ne_beside (solid : place ≠ []) {first second : String} (differ : first ≠ second) :
    beside place first ≠ beside place second := by
  obtain ⟨before, name, rfl⟩ := exists_eq_concat solid
  rw [beside_concat, beside_concat]
  intro same
  have endings : Text.encode first = Text.encode second := by simpa using same
  rw [Text.encode_eq, Text.encode_eq] at endings
  exact differ (String.toList_inj.mp (Text.encodeChars_injective endings))

theorem beside_ne_self (solid : place ≠ []) {ending : String} (named : ending ≠ "") :
    beside place ending ≠ place := by
  have apart := beside_ne_beside solid named
  rwa [beside_empty solid] at apart

theorem logOf_ne_nil (solid : place ≠ []) : logOf place ≠ [] :=
  beside_ne_nil solid _

theorem indexOf_ne_nil (solid : place ≠ []) : indexOf place ≠ [] :=
  beside_ne_nil solid _

theorem journalOf_ne_nil (solid : place ≠ []) : journalOf place ≠ [] :=
  beside_ne_nil solid _

theorem logOf_ne_self (solid : place ≠ []) : logOf place ≠ place :=
  beside_ne_self solid (by decide)

theorem indexOf_ne_self (solid : place ≠ []) : indexOf place ≠ place :=
  beside_ne_self solid (by decide)

theorem journalOf_ne_self (solid : place ≠ []) : journalOf place ≠ place :=
  beside_ne_self solid (by decide)

theorem logOf_ne_indexOf (solid : place ≠ []) : logOf place ≠ indexOf place :=
  beside_ne_beside solid (by decide)

theorem logOf_ne_journalOf (solid : place ≠ []) : logOf place ≠ journalOf place :=
  beside_ne_beside solid (by decide)

theorem indexOf_ne_journalOf (solid : place ≠ []) : indexOf place ≠ journalOf place :=
  beside_ne_beside solid (by decide)

/-! ## Using a log -/

/-- A node put at a place if nothing is there. -/
def provided (files : FileTree) (place : Place) (node : Node) : FileTree :=
  if (files.node? place).isNone then files.put place node else files

theorem node?_provided (solid : place ≠ []) (node : Node) (asked : Place) :
    (provided files place node).node? asked =
      if asked = place then (files.node? place).or (some node) else files.node? asked := by
  unfold provided
  cases found : files.node? place with
  | none =>
      rw [Option.isNone_none, if_pos rfl, node?_put files solid]
      rfl
  | some other =>
      rw [Option.isNone_some, if_neg Bool.false_ne_true]
      split
      · rename_i same
        rw [same, found]
        rfl
      · rfl

theorem keeps_provided (solid : place ≠ []) (node : Node) :
    Keeps files (provided files place node) := by
  unfold provided
  cases found : files.node? place with
  | none => exact keeps_put solid (by simp [isDirectory, found]) node
  | some other => exact .refl files

/-- The files when the log of a database is used. -/
def withLog (files : FileTree) (place : Place) : FileTree :=
  provided (provided files (logOf place) (.log none false)) (indexOf place) index

theorem node?_withLog (solid : place ≠ []) (asked : Place) :
    (withLog files place).node? asked =
      if asked = indexOf place then (files.node? (indexOf place)).or (some index)
      else if asked = logOf place then (files.node? (logOf place)).or (some (.log none false))
      else files.node? asked := by
  unfold withLog
  rw [node?_provided (indexOf_ne_nil solid), node?_provided (logOf_ne_nil solid),
    node?_provided (logOf_ne_nil solid), if_neg (logOf_ne_indexOf solid).symm]

theorem keeps_withLog (solid : place ≠ []) : Keeps files (withLog files place) :=
  (keeps_provided (logOf_ne_nil solid) _).trans (keeps_provided (indexOf_ne_nil solid) _)

/-- The index is no directory because of the log. -/
theorem isDirectory_withLog (solid : place ≠ []) (asked : Place) :
    (withLog files place).isDirectory asked = files.isDirectory asked := by
  rw [Bool.eq_iff_iff, isDirectory_iff, isDirectory_iff, node?_withLog solid]
  split
  · rename_i same
    rw [same]
    cases files.node? (indexOf place) <;> simp [index]
  · split
    · rename_i same
      rw [same]
      cases files.node? (logOf place) <;> simp
    · rfl

/-! ## Where a database is -/

/-- Where a database is whose changes go to a log: all of it in the file, or, while it is used, what
has changed in the log. -/
inductive Contents (files : FileTree) (place : Place) : Database → Bool → Prop
  | closed {db : Database} (file : files.node? place = some (.database db true))
      (log : files.node? (logOf place) = none) : Contents files place db false
  | used {base : Database} {changed : Option Database} {complete : Bool}
      (file : files.node? place = some (.database base true))
      (log : files.node? (logOf place) = some (.log changed complete)) :
      Contents files place (changed.getD base) true

/-- A database is in a file, with a log if it is used, and nothing keeps it from being used. -/
structure Stored (files : FileTree) (place : Place) (db : Database) (used : Bool) : Prop where
  solid : place ≠ []
  journal : files.node? (journalOf place) = none
  index : files.isDirectory (indexOf place) = false
  contents : Contents files place db used

/-- The file is there whether the log is used or not. -/
theorem Contents.file {used : Bool} (contents : Contents files place db used) :
    ∃ base, files.node? place = some (.database base true) := by
  cases contents with
  | closed file => exact ⟨_, file⟩
  | used file => exact ⟨_, file⟩

/-- A log either holds changes, or it says nothing. -/
theorem Contents.log_cases {used : Bool} (contents : Contents files place db used) :
    (files.isDirectory (logOf place) = false ∧
      (files.node? (logOf place)).bind Node.firstByte? = none) ∨
    ∃ changed complete, files.node? (logOf place) = some (.log (some changed) complete) := by
  cases contents with
  | closed _ log => exact .inl (by simp [isDirectory, log])
  | @used base changed complete _ log =>
      cases changed with
      | none => exact .inl (by simp [isDirectory, log, Node.isDirectory, Node.firstByte?])
      | some changed => exact .inr ⟨changed, complete, log⟩

/-- Those who use the log see the database. -/
theorem Stored.loggedIn (stored : Stored files place db true) :
    Sidecar.loggedIn files place = .ok db := by
  cases stored.contents with
  | @used base changed complete file log =>
      cases changed <;> simp [Sidecar.loggedIn, changedIn, file, log]

/-- Who uses the log of a database finds the database. -/
theorem Stored.withLog {used : Bool} (stored : Stored files place db used) :
    Stored (Sidecar.withLog files place) place db true := by
  have elsewhere {asked : Place} (first : asked ≠ indexOf place) (second : asked ≠ logOf place) :
      (Sidecar.withLog files place).node? asked = files.node? asked := by
    rw [node?_withLog stored.solid, if_neg first, if_neg second]
  have atPlace := elsewhere (indexOf_ne_self stored.solid).symm (logOf_ne_self stored.solid).symm
  have atJournal := elsewhere (indexOf_ne_journalOf stored.solid).symm
    (logOf_ne_journalOf stored.solid).symm
  have atLog : (Sidecar.withLog files place).node? (logOf place) =
      (files.node? (logOf place)).or (some (.log none false)) := by
    rw [node?_withLog stored.solid, if_neg (logOf_ne_indexOf stored.solid), if_pos rfl]
  refine ⟨stored.solid, atJournal.trans stored.journal, ?_, ?_⟩
  · rw [isDirectory_withLog stored.solid, stored.index]
  · cases stored.contents with
    | closed file log =>
        rw [log] at atLog
        exact .used (atPlace.trans file) atLog
    | used file log =>
        rw [log] at atLog
        exact .used (atPlace.trans file) atLog

/-! ## Changing and leaving a database -/

/-- A change of a database goes to the log. -/
theorem Stored.writeLog (stored : Stored files place db true) (later : Database) :
    Stored (Sidecar.writeLog files place later) place later true ∧
      Keeps files (Sidecar.writeLog files place later) := by
  have solid := stored.solid
  cases stored.contents with
  | @used base changed complete file log =>
      obtain ⟨complete, shape⟩ : ∃ complete, Sidecar.writeLog files place later =
          files.put (logOf place) (.log (some later) complete) := ⟨_, rfl⟩
      have node (asked : Place) := node?_put files (logOf_ne_nil solid)
        (.log (some later) complete) asked
      rw [shape]
      refine ⟨⟨solid, ?_, ?_, ?_⟩, ?_⟩
      · rw [node, if_neg (logOf_ne_journalOf solid).symm, stored.journal]
      · have index := stored.index
        unfold isDirectory at index ⊢
        rw [node, if_neg (logOf_ne_indexOf solid).symm, index]
      · have atLog := node (logOf place)
        rw [if_pos rfl] at atLog
        have atPlace := node place
        rw [if_neg (logOf_ne_self solid).symm, file] at atPlace
        exact .used atPlace atLog
      · exact keeps_put (logOf_ne_nil solid) (by simp [isDirectory, log, Node.isDirectory]) _

/-- When nobody uses a database any more, all of it is in the file. -/
theorem Stored.fold (stored : Stored files place db true) :
    Stored (Sidecar.fold files place) place db false ∧ Keeps files (Sidecar.fold files place) := by
  have solid := stored.solid
  cases stored.contents with
  | @used base changed complete file log =>
      have brought : folded files place = some (.database (changed.getD base) true) := by
        cases changed <;> simp [folded, changedIn, file, log]
      obtain ⟨whole, same⟩ : ∃ whole, whole = files.put place (.database (changed.getD base) true) :=
        ⟨_, rfl⟩
      have shape : Sidecar.fold files place =
          (whole.removeFile (logOf place)).removeFile (indexOf place) := by
        unfold Sidecar.fold
        rw [brought, same]
      have atWhole (asked : Place) : whole.node? asked =
          if asked = place then some (.database (changed.getD base) true) else files.node? asked := by
        rw [same, node?_put files solid]
      have atLog : whole.isDirectory (logOf place) = false := by
        rw [isDirectory, atWhole, if_neg (logOf_ne_self solid), log]
        rfl
      -- Nothing but the index and the log is looked up differently than in the file made whole.
      have node (asked : Place) (notIndex : asked ≠ indexOf place) :
          (Sidecar.fold files place).node? asked =
            if asked = logOf place then none else whole.node? asked := by
        rw [shape, node?_removeFile _ (indexOf_ne_nil solid), if_neg (notIndex ·.1),
          node?_removeFile _ (logOf_ne_nil solid)]
        simp [atLog]
      refine ⟨⟨solid, ?_, ?_, .closed ?_ ?_⟩, ?_⟩
      · rw [node _ (indexOf_ne_journalOf solid).symm, if_neg (logOf_ne_journalOf solid).symm,
          atWhole, if_neg (journalOf_ne_self solid), stored.journal]
      · rw [shape, isDirectory_removeFile _ (indexOf_ne_nil solid),
          isDirectory_removeFile _ (logOf_ne_nil solid), isDirectory, atWhole,
          if_neg (indexOf_ne_self solid)]
        exact stored.index
      · rw [node _ (indexOf_ne_self solid).symm, if_neg (logOf_ne_self solid).symm, atWhole,
          if_pos rfl]
      · rw [node _ (logOf_ne_indexOf solid), if_pos rfl]
      · rw [shape]
        have put : Keeps files whole := by
          rw [same]
          exact keeps_put solid (by simp [isDirectory, file, Node.isDirectory]) _
        exact (put.trans (keeps_removeFile (logOf_ne_nil solid))).trans
          (keeps_removeFile (indexOf_ne_nil solid))

/-! ## Letting a database be logged -/

theorem isDirectory_writeIn (files : FileTree) (solid : place ≠ []) (db : Database) (logged : Bool)
    (asked : Place) : (writeIn files place db logged).isDirectory asked =
      if asked = place then false else files.isDirectory asked := by
  unfold writeIn
  rw [isDirectory_removeFile _ (journalOf_ne_nil solid), isDirectory, node?_put files solid]
  split <;> rfl

/-- A database that says that it is logged is in its file. -/
theorem stored_writeIn (solid : place ≠ []) (noDirectory : files.isDirectory place = false)
    (log : files.node? (logOf place) = none)
    (journal : files.isDirectory (journalOf place) = false)
    (index : files.isDirectory (indexOf place) = false) (db : Database) :
    Stored (writeIn files place db true) place db false ∧
      Keeps files (writeIn files place db true) := by
  have put := keeps_put solid noDirectory (.database db true)
  have noJournal : (files.put place (.database db true)).isDirectory (journalOf place) = false := by
    rw [isDirectory, node?_put files solid, if_neg (journalOf_ne_self solid)]
    exact journal
  have node (asked : Place) : (writeIn files place db true).node? asked =
      if asked = journalOf place then none
      else if asked = place then some (.database db true) else files.node? asked := by
    unfold writeIn
    rw [node?_removeFile _ (journalOf_ne_nil solid), node?_put files solid]
    simp [noJournal]
  refine ⟨⟨solid, ?_, ?_, .closed ?_ ?_⟩, put.trans (keeps_removeFile (journalOf_ne_nil solid))⟩
  · rw [node, if_pos rfl]
  · rw [isDirectory_writeIn files solid, if_neg (indexOf_ne_self solid), index]
  · rw [node, if_neg (journalOf_ne_self solid).symm, if_pos rfl]
  · rw [node, if_neg (logOf_ne_journalOf solid), if_neg (logOf_ne_self solid), log]

/-- A database that says that it is logged is what its file holds. -/
theorem node?_of_databaseIn (file : databaseIn files place = .ok (db, true)) :
    files.node? place = some (.database db true) := by
  unfold databaseIn at file
  split at file
  · cases file
  · cases file
  · rename_i found
    cases file
    exact found
  · split at file <;> cases file

theorem isDirectory_of_databaseIn {logged : Bool}
    (file : databaseIn files place = .ok (db, logged)) : files.isDirectory place = false := by
  refine Bool.eq_false_iff.mpr fun directory => ?_
  unfold databaseIn at file
  rw [isDirectory_iff.mp directory] at file
  cases file

end MessageStore.Sidecar
