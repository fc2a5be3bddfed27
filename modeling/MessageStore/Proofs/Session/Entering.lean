import MessageStore.Proofs.Session.Sidecars

/-!
# Opening a database

Opening a database goes through parts that may each stop it.  A database that is in
place is always got at, and its log is used; one that is opened for the first time
and can be written is in place from then on.
-/

namespace MessageStore.Sidecar

open Host (FileTree Node Place)
open Host.FileTree
open Relational (Database Fault)

variable {files : FileTree} {place : Place} {db : Database}

/-! ## Carrying out parts of opening -/

/-- What a part of opening comes to, and what is known afterwards. -/
def runs {α : Type} (part : Entering α) (entry : Entry) : Except Fault α × Entry :=
  part.run.run entry

section Runs

variable {α β : Type} {entry : Entry}

@[simp]
theorem runs_pure (value : α) : runs (pure value) entry = (.ok value, entry) :=
  rfl

@[simp]
theorem runs_get : runs get entry = (.ok entry, entry) :=
  rfl

@[simp]
theorem runs_modify (change : Entry → Entry) :
    runs (modify change) entry = (.ok (), change entry) :=
  rfl

@[simp]
theorem runs_alter (change : FileTree → FileTree) :
    runs (alter change) entry = (.ok (), { entry with files := change entry.files }) :=
  rfl

@[simp]
theorem runs_throw (fault : Fault) :
    runs (throw fault : Entering α) entry = (.error fault, entry) :=
  rfl

@[simp]
theorem runs_liftM (result : Except Fault α) :
    runs (liftM result : Entering α) entry = (result, entry) := by
  cases result <;> rfl

@[simp]
theorem runs_ite (condition : Prop) [Decidable condition] (first second : Entering α) :
    runs (if condition then first else second) entry =
      if condition then runs first entry else runs second entry := by
  split <;> rfl

theorem runs_bind (part : Entering α) (next : α → Entering β) :
    runs (part >>= next) entry =
      match runs part entry with
      | (.ok value, later) => runs (next value) later
      | (.error fault, later) => (.error fault, later) := by
  unfold runs
  rw [ExceptT.run_bind, StateT.run_bind]
  rcases part.run.run entry with ⟨_ | _, later⟩ <;> rfl

theorem runs_bind_of_ok {part : Entering α} {next : α → Entering β} {value : α} {later : Entry}
    (done : runs part entry = (.ok value, later)) :
    runs (part >>= next) entry = runs (next value) later := by
  rw [runs_bind, done]

theorem runs_bind_eq_ok {part : Entering α} {next : α → Entering β} {value : β} {later : Entry}
    (done : runs (part >>= next) entry = (.ok value, later)) :
    ∃ first between, runs part entry = (.ok first, between) ∧
      runs (next first) between = (.ok value, later) := by
  rw [runs_bind] at done
  rcases found : runs part entry with ⟨fault | first, between⟩
  · rw [found] at done
    cases done
  · rw [found] at done
    exact ⟨first, between, rfl, done⟩

end Runs

/-! ## Opening a database that is stored -/

theorem runs_useLog (solid : place ≠ []) (access : Access) (backend : access.backend ≠ .exclusive)
    (inUse : Bool) :
    runs (useLog place) ⟨files, access, inUse⟩ =
      (.ok (), ⟨withLog files place,
        { access with
          journal := .logged
          readOnly := access.readOnly || files.isDirectory (indexOf place) }, inUse⟩) := by
  have apart : (provided files (logOf place) (.log none false)).node? (indexOf place) =
      files.node? (indexOf place) := by
    rw [node?_provided (logOf_ne_nil solid), if_neg (logOf_ne_indexOf solid).symm]
  rw [withLog, provided, apart, provided]
  by_cases log : files.node? (logOf place) = none <;>
    by_cases index : files.node? (indexOf place) = none <;>
    simp [useLog, runs_bind, backend, log, index]

variable (access : Access) (inUse : Bool)

/-- Without a journal nothing is rolled back. -/
theorem runs_rollBack_of_no_file (noFile : files.isFile (journalOf place) = false)
    (byteLocks : Bool) :
    runs (rollBack place byteLocks) ⟨files, access, inUse⟩ =
      if files.isDirectory (journalOf place) ∧ ¬ blankAt files place then
        (.error .inputOutput, ⟨files, access, inUse⟩)
      else (.ok (), ⟨files, access, inUse⟩) := by
  have silent : (files.node? (journalOf place)).bind Node.firstByte? = none := by
    unfold isFile at noFile
    cases found : files.node? (journalOf place) with
    | none => rfl
    | some node => cases node <;> simp_all [Node.isDirectory, Node.firstByte?]
  simp [rollBack, runs_bind, silent]

/-- A log without changes is not found. -/
theorem runs_findLog_of_silent (noDirectory : files.isDirectory (logOf place) = false)
    (silent : (files.node? (logOf place)).bind Node.firstByte? = none) (canLog : Bool) :
    runs (findLog place canLog) ⟨files, access, inUse⟩ = (.ok (), ⟨files, access, inUse⟩) := by
  simp [findLog, runs_bind, noDirectory, silent]

/-- A log with changes is used. -/
theorem runs_findLog_of_changed {base changed : Database} {logged complete : Bool}
    (file : files.node? place = some (.database base logged))
    (log : files.node? (logOf place) = some (.log (some changed) complete)) :
    runs (findLog place true) ⟨files, access, inUse⟩ =
      runs (useLog place) ⟨files, access, inUse⟩ := by
  simp [findLog, runs_bind, isDirectory, blankAt, isBlank, Node.isDirectory, Node.firstByte?, file,
    log]

/-- A database that says that there is a log has it used. -/
theorem runs_lookInto_of_logged {base : Database}
    (file : files.node? place = some (.database base true)) :
    runs (lookInto place true) ⟨files, access, inUse⟩ =
      if access.journal ≠ .logged then runs (useLog place) ⟨files, access, inUse⟩
      else (.ok (), ⟨files, access, inUse⟩) := by
  simp [lookInto, runs_bind, databaseIn, file]

theorem runs_startLog_of_logged (logged : access.journal = .logged) :
    runs (startLog place) ⟨files, access, inUse⟩ = (.ok (), ⟨files, access, inUse⟩) := by
  simp [startLog, runs_bind, logged]

/-- The parts of opening a database for which nothing particular is requested. -/
theorem runs_reachLogged (entry : Entry) :
    runs (reachLogged place {}) entry =
      runs (do rollBack place true; findLog place true; lookInto place true; startLog place)
        entry := by
  have parts : reach place {} =
      (do rollBack place true; findLog place true; lookInto place true) := rfl
  unfold reachLogged
  rw [parts]
  simp only [bind_assoc]
  rfl

/-- Opening a database that is in place uses its log, which is put there if it is missing. -/
theorem opened_of_contents {used : Bool} (solid : place ≠ [])
    (journal : files.node? (journalOf place) = none) (contents : Contents files place db used)
    (inUse : Bool) :
    opened (reachLogged place {}) files {} inUse =
      (.ok (), ⟨withLog files place,
        { journal := .logged, readOnly := files.isDirectory (indexOf place) }, inUse⟩) := by
  have use := @runs_useLog files place solid (accessFor {}) (by decide) inUse
  obtain ⟨base, file⟩ := contents.file
  change runs (reachLogged place {}) ⟨files, accessFor {}, inUse⟩ = _
  have noFile : files.isFile (journalOf place) = false := by
    simp [isFile, journal]
  have passes := runs_rollBack_of_no_file (accessFor {}) inUse noFile true
  rw [if_neg (by simp [isDirectory, journal])] at passes
  rw [runs_reachLogged, runs_bind_of_ok passes]
  -- A log with changes is used before the file is looked into, any other because the file says so.
  rcases contents.log_cases with ⟨noDirectory, silent⟩ | ⟨changed, complete, log⟩
  · rw [runs_bind_of_ok (runs_findLog_of_silent _ _ noDirectory silent true)]
    have looks := runs_lookInto_of_logged (accessFor {}) inUse file
    rw [if_pos (by decide), use] at looks
    rw [runs_bind_of_ok looks, runs_startLog_of_logged _ _ rfl]
    rfl
  · have finds := runs_findLog_of_changed (accessFor {}) inUse file log
    rw [use] at finds
    have kept : (withLog files place).node? place = some (.database base true) := by
      rw [node?_withLog solid, if_neg (indexOf_ne_self solid).symm,
        if_neg (logOf_ne_self solid).symm, file]
    rw [runs_bind_of_ok finds, runs_bind, runs_lookInto_of_logged _ _ kept,
      if_neg (not_not_intro rfl)]
    simp only
    rw [runs_startLog_of_logged _ _ rfl]
    rfl

/-! ## Opening a database for the first time -/

/-- Nothing is opened while a directory is in the place of the log. -/
theorem runs_findLog_of_directory (directory : files.isDirectory (logOf place) = true)
    (canLog : Bool) : ∃ fault, runs (findLog place canLog) ⟨files, access, inUse⟩ =
      (.error fault, ⟨files, access, inUse⟩) := by
  by_cases blank : blankAt files place = true
  · exact ⟨.inputOutput, by simp [findLog, runs_bind, directory, blank]⟩
  · exact ⟨.cannotOpen none, by simp [findLog, runs_bind, directory, blank]⟩

theorem runs_lookInto_of_unlogged (file : databaseIn files place = .ok (db, false)) (canLog : Bool) :
    runs (lookInto place canLog) ⟨files, access, inUse⟩ = (.ok (), ⟨files, access, inUse⟩) := by
  simp [lookInto, runs_bind, file]

/-- A database that begins to be logged says so in its file. -/
theorem runs_startLog_of_unlogged (file : databaseIn files place = .ok (db, false))
    (direct : access.journal ≠ .logged) (writes : access.readOnly = false) :
    runs (startLog place) ⟨files, access, false⟩ =
      if journalBlocked files place then (.error (.cannotOpen none), ⟨files, access, false⟩)
      else runs (useLog place) ⟨writeIn files place db true, access, false⟩ := by
  by_cases blocked : journalBlocked files place <;>
    simp [startLog, runs_bind, file, direct, writes, blocked]

/-- Opening a database without a log does not stop before the file is looked into, and changes
nothing until then. -/
theorem runs_of_opened {entry : Entry} (noLog : files.isFile (logOf place) = false)
    (noJournal : files.isFile (journalOf place) = false)
    (opens : runs (reachLogged place {}) ⟨files, access, inUse⟩ = (.ok (), entry)) :
    files.node? (logOf place) = none ∧
      (blankAt files place = false → files.node? (journalOf place) = none) ∧
      runs (do lookInto place true; startLog place) ⟨files, access, inUse⟩ = (.ok (), entry) := by
  rw [runs_reachLogged] at opens
  obtain ⟨_, between, rolled, opens⟩ := runs_bind_eq_ok opens
  rw [runs_rollBack_of_no_file _ _ noJournal] at rolled
  split at rolled
  · cases rolled
  · rename_i passes
    cases rolled
    cases directory : files.isDirectory (logOf place) with
    | true =>
        obtain ⟨fault, fails⟩ := runs_findLog_of_directory access inUse directory true
        rw [runs_bind, fails] at opens
        cases opens
    | false =>
        have absent := node?_eq_none noLog directory
        rw [runs_bind_of_ok (runs_findLog_of_silent _ _ directory (by rw [absent]; rfl) true)]
          at opens
        exact ⟨absent, fun solid => node?_eq_none noJournal (by simpa [solid] using passes), opens⟩

/-- A database that is logged is there as before when it has been opened. -/
theorem stored_of_logged {entry : Entry} (solid : place ≠ [])
    (file : databaseIn files place = .ok (db, true)) (log : files.node? (logOf place) = none)
    (journal : files.node? (journalOf place) = none)
    (opens : opened (reachLogged place {}) files {} inUse = (.ok (), entry))
    (writes : entry.access.readOnly = false) :
    entry.access = { journal := .logged } ∧ Stored entry.files place db true ∧
      Keeps files entry.files := by
  have contents : Contents files place db false := .closed (node?_of_databaseIn file) log
  have known := opened_of_contents solid journal contents inUse
  obtain rfl : _ = entry := congrArg Prod.snd (known.symm.trans opens)
  have stored : Stored files place db false := ⟨solid, journal, writes, contents⟩
  exact ⟨by rw [stored.index], stored.withLog, keeps_withLog solid⟩

/-- A database that is not logged yet says that it is when it has been opened. -/
theorem stored_of_unlogged {entry : Entry} (solid : place ≠ [])
    (file : databaseIn files place = .ok (db, false)) (log : files.node? (logOf place) = none)
    (opens : runs (do lookInto place true; startLog place) ⟨files, accessFor {}, false⟩ =
      (.ok (), entry))
    (writes : entry.access.readOnly = false) :
    entry.access = { journal := .logged } ∧ Stored entry.files place db true ∧
      Keeps files entry.files := by
  rw [runs_bind_of_ok (runs_lookInto_of_unlogged _ _ file true),
    runs_startLog_of_unlogged _ file (by decide) rfl] at opens
  split at opens
  · cases opens
  · rename_i free
    have known := @runs_useLog (writeIn files place db true) place solid (accessFor {})
      (by decide) false
    obtain rfl : _ = entry := congrArg Prod.snd (known.symm.trans opens)
    have journal : files.isDirectory (journalOf place) = false := by
      simp only [journalBlocked, Bool.or_eq_true, not_or] at free
      simpa using free.1
    have index : files.isDirectory (indexOf place) = false := by
      have same := isDirectory_writeIn files solid db true (indexOf place)
      rw [if_neg (indexOf_ne_self solid)] at same
      exact same.symm.trans writes
    obtain ⟨stored, keeps⟩ :=
      stored_writeIn solid (isDirectory_of_databaseIn file) log journal index db
    refine ⟨?_, stored.withLog, keeps.trans (keeps_withLog solid)⟩
    rw [stored.index]
    rfl

/-- When a database is opened that nobody uses and that can be written, it is stored from then
on. -/
theorem stored_of_opened {logged : Bool} {entry : Entry} (solid : place ≠ [])
    (file : databaseIn files place = .ok (db, logged))
    (noLog : files.isFile (logOf place) = false)
    (noJournal : files.isFile (journalOf place) = false)
    (opens : opened (reachLogged place {}) files {} false = (.ok (), entry))
    (writes : entry.access.readOnly = false) :
    entry.access = { journal := .logged } ∧ Stored entry.files place db true ∧
      Keeps files entry.files := by
  obtain ⟨log, journal, rest⟩ := runs_of_opened (accessFor {}) false noLog noJournal opens
  cases logged with
  | true =>
      have notBlank : blankAt files place = false := by
        simp [blankAt, node?_of_databaseIn file, isBlank]
      exact stored_of_logged false solid file log (journal notBlank) opens writes
  | false => exact stored_of_unlogged solid file log rest writes

end MessageStore.Sidecar
