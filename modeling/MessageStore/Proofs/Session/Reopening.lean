import MessageStore.Proofs.Session.Entering
import MessageStore.Proofs.Session.Files

/-!
# Opening a file again

A path that has been opened can be opened again at any time, and so can a handle
on it be copied.  Both come to the same file, set it up once more, which does
nothing to a current database, and put one more handle on it.
-/

namespace MessageStore.Session

open Host (Place)
open Relational (Database)
open Sidecar (Stored withLog)

variable {session : Session} {path name : String} {place : Place} {team : List String}
  {db : Database}

/-! ## Opening the file again -/

/-- A path that names a file is opened as a file. -/
theorem connectPath_of_target (target : Target.ofPath path = .ok (.file (Text.encode path) {}))
    (noNul : Host.Path.nulByte? path = none) :
    session.connectPath path =
      session.connectFile ("Failed to open cache database at " ++ Text.quoted path) path
        (Text.encode path) {} := by
  unfold connectPath
  rw [connectBy_of_target session noNul target]
  rfl

/-- A file that is provided and entered is set up. -/
theorem connectPath_of_entered (target : Target.ofPath path = .ok (.file (Text.encode path) {}))
    (noNul : Host.Path.nulByte? path = none)
    (full : session.files.fullPlace? (Text.encode path) = some place) {ready inside : Session}
    {connection : Connection} (provided : session.provideFile path place {} = .ok ready)
    (entered : ready.enter (Sidecar.reachLogged place {}) place {} = (inside, .ok connection)) :
    session.connectPath path = inside.settle connection := by
  have apart : session.joinedAccess? (.file place) {} = none := rfl
  rw [connectPath_of_target target noNul, connectFile]
  simp only [full, apart, provided, entered]

/-- Opening the file once more uses its log. -/
theorem Serves.connectPath (serves : session.Serves path place team db) :
    session.connectPath path =
      ⟨{ session with files := withLog session.files place }, [], .ok (inFile place)⟩ := by
  have stored := serves.stored
  obtain ⟨base, file⟩ := stored.contents.file
  have provided : session.provideFile path place {} = .ok session := by
    simp [provideFile, file]
    rfl
  have entered : session.enter (Sidecar.reachLogged place {}) place {} =
      ({ session with files := withLog session.files place }, .ok (inFile place)) := by
    have opened := Sidecar.opened_of_contents stored.solid stored.journal stored.contents
      (session.usesLog place)
    rw [stored.index] at opened
    unfold enter
    rw [opened]
    rfl
  have loaded : Session.load { session with files := withLog session.files place }
      (inFile place) = .ok db := stored.withLog.loggedIn
  rw [connectPath_of_entered serves.target serves.noNul serves.leads.full provided entered,
    settle_of_current loaded rfl serves.standing]
  simp [save, inFile]

/-- No directory has to be made to open the path again. -/
theorem Serves.openPath (serves : session.Serves path place team db) :
    session.openPath path = session.connectPath path := by
  unfold Session.openPath
  split
  · rfl
  · rename_i parent found
    rw [serves.leads.makeDirectories found]

/-- A command that opens the path puts one more handle on the file. -/
theorem Serves.open (serves : session.Serves path place team db) {command : Command}
    {opening : Step Connection} {origin : Option Origin}
    (opens : session.Opens command name origin opening)
    (own : ∀ given, origin = some given → given = .path path)
    (joins : command.joins (.path path) team = true)
    (same : opening = session.connectPath path) :
    (session.execute command).reply = .ok .done ∧
      (session.execute command).session.Serves path place
        (session.teamAfter (.path path) team command) db := by
  obtain ⟨left, replied⟩ := opens.execute
  rw [same, serves.connectPath] at left replied
  refine ⟨replied, ?_⟩
  rw [left, teamAfter_of_opened (by rw [replied]; rfl) opens.opened?, joins]
  have solid := serves.stored.solid
  have staffed : Staffed { session with files := withLog session.files place } path place team :=
    serves.staffed.of_handles rfl
  exact serves_attach serves.target serves.noNul
    (serves.leads.keeps (Sidecar.keeps_withLog solid)) staffed serves.stored.withLog
    serves.standing name own

/-- A handle that has been opened by a path is copied onto the file. -/
theorem Serves.copy (serves : session.Serves path place team db) {handle : Handle} {other : String}
    (found : session.handle? name = some handle) (known : handle.origin? = some (.path other))
    (newName : String) :
    (session.execute (.copy name newName)).reply = .ok .done ∧
      (session.execute (.copy name newName)).session.Serves path place
        (session.teamAfter (.path path) team (.copy name newName)) db := by
  have on := serves.staffed.origins _ (mem_of_handle? found) other known
  have origin := (serves.staffed.own _ (mem_of_handle? found) place on).2.1 _ known
  obtain rfl : other = path := Origin.path.inj origin
  have member : name ∈ team := (serves.staffed.manned name).mpr (by rw [found]; exact on)
  exact serves.open (.copy found known newName) (fun given same => (Option.some.inj same).symm)
    (by simpa [Command.joins] using member) rfl

/-- Only the path itself leads to the file. -/
theorem Serves.meets_iff (serves : session.Serves path place team db) {other : Origin} :
    (Origin.path path).meets other = true ↔ Origin.path path = other :=
  Origin.meets_of_unshared (sharedName?_of_file serves.target)

/-- Opening something in memory. -/
theorem Serves.open_memory (serves : session.Serves path place team db) {command : Command}
    {origin : Option Origin} {bits : Nat}
    (opens : session.Opens command name origin (session.connect (.memory bits)))
    (apart : ∀ other, origin ≠ some (.path other))
    (elsewhere : command.joins (.path path) team = false) :
    (session.execute command).session.Serves path place
      (session.teamAfter (.path path) team command) db := by
  obtain ⟨memory, noFile, settles⟩ : ∃ memory : Connection,
      (∀ other, memory.dataset ≠ .file other) ∧
        session.connect (.memory bits) = session.settle memory :=
    ⟨_, fun _ => Dataset.noConfusion, connect_memory session bits⟩
  rw [settles] at opens
  have inMemory := inMemory_settle noFile session
  have after := serves.of_same inMemory.files inMemory.handles
  rcases opens.cases (.path path) team with
    ⟨error, -, left, -, unchanged⟩ | ⟨connection, opened, left, -, filtered⟩
  · rw [left, unchanged]
    exact after
  · obtain rfl := result_settle opened
    rw [left, filtered, elsewhere]
    exact after.attach_other name (fun other on => noFile other (Option.some.inj on)) apart

/-- A command that opens and closes nothing. -/
theorem Serves.idle (serves : session.Serves path place team db) {command : Command}
    (idle : command.teamAfter (.path path) team = team)
    (inMemory : InMemory session (session.execute command).session) :
    (session.execute command).session.Serves path place
      (session.teamAfter (.path path) team command) db := by
  rw [teamAfter_of_idle idle]
  exact serves.of_same inMemory.files inMemory.handles

/-- A handle that does not belong to those on the file is on no file. -/
theorem Serves.elsewhere (serves : session.Serves path place team db) {handle : Handle}
    (found : session.handle? name = some handle) (outside : name ∉ team) (other : Place) :
    handle.dataset? ≠ some (.file other) := by
  intro on
  have own := serves.staffed.own _ (mem_of_handle? found) other on
  refine outside ((serves.staffed.manned name).mpr ?_)
  rw [found]
  change handle.connection?.map (·.dataset) = _
  rw [own.1]
  rfl

/-- Opening a dataset, whether it is the one in the file or another in memory. -/
theorem Serves.opens (serves : session.Serves path place team db) {command : Command}
    {origin : Option Origin} {opening : Step Connection}
    (opens : session.Opens command name origin opening) (usesOnly : command.UsesOnly path) :
    (session.execute command).session.Serves path place
      (session.teamAfter (.path path) team command) db := by
  have itself := serves.meets_iff.mpr rfl
  have apart (bits : Nat) : (Origin.path path).meets (.memory bits) = false :=
    Bool.eq_false_iff.mpr fun meets => by cases serves.meets_iff.mp meets
  cases opens with
  | file name given =>
      obtain rfl : given = path := usesOnly
      exact (serves.open (.file name given) (fun given same => (Option.some.inj same).symm)
        itself serves.openPath).2
  | memory name bits => exact serves.open_memory (.memory name bits) (by simp) (apart bits)
  | configuredFile name given bits =>
      obtain rfl : given = path := usesOnly
      exact (serves.open (.configuredFile name given bits) (by simp) itself serves.openPath).2
  | configuredMemory name bits =>
      exact serves.open_memory (.configuredMemory name bits) (by simp) (apart bits)
  | @copy copied handle origin found known _ =>
      cases origin with
      | path given => exact (serves.copy found known _).2
      | memory bits =>
          have outside : copied ∉ team := by
            intro member
            have on := (serves.staffed.manned copied).mp member
            rw [found] at on
            have own := serves.staffed.own _ (mem_of_handle? found) place on
            cases own.2.1 _ known
          exact serves.open_memory (.copy found known _) (by simp)
            (by simpa [Command.joins] using outside)

/-- Whatever a session does in memory, and however it opens and leaves the file, the file holds
what it held, unless an operation is carried out through a handle on it. -/
theorem Serves.execute_other (serves : session.Serves path place team db) (command : Command)
    (usesOnly : command.UsesOnly path)
    (other : ∀ name ∈ team, (∀ operation, command ≠ .perform name operation) ∧
      command ≠ .publishDue name) :
    (session.execute command).session.Serves path place
      (session.teamAfter (.path path) team command) db := by
  cases session.deed command with
  | stays idle handles _ files => exact serves.idle (idle _ _) ⟨files path usesOnly, handles⟩
  | fails left failed =>
      rw [left, teamAfter_of_failed failed]
      exact serves
  | opens opens => exact serves.opens opens usesOnly
  | discards opened apart left done =>
      rw [left, teamAfter_of_opened done opened, apart]
      exact serves.attach_other _ (by simp [Handle.dataset?, Handle.connection?])
        (by simp [Handle.origin?])
  | closes name => exact serves.close name
  | @performs name handle found operation =>
      have outside : name ∉ team := fun member => (other name member).1 operation rfl
      refine serves.idle rfl ?_
      rw [execute_perform found]
      exact inMemory_perform (serves.elsewhere found outside) session operation
  | @publishes name handle found =>
      have outside : name ∉ team := fun member => (other name member).2 rfl
      refine serves.idle rfl ?_
      rw [execute_publishDue found]
      exact inMemory_publishDue (serves.elsewhere found outside) session
  | builds given earlier => exact usesOnly.elim

end MessageStore.Session
