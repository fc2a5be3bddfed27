import MessageStore.Proofs.Session.Handles

/-!
# What a command does

To the handles and the data of a session, each command does one of a few things:
it leaves them alone, puts a handle on a dataset that it opens, lets one go, or uses
one.  What is preserved by these is preserved by all commands.
-/

namespace MessageStore.Session

variable {session : Session}

/-- What a command does in a session to the handles and to what they are on. -/
inductive Deed (session : Session) : Command → Prop
  /-- Handles and datasets stay, unless the command uses files by other means than handles. -/
  | stays {command : Command} (idle : ∀ origin team, command.teamAfter origin team = team)
      (handles : (session.execute command).session.handles = session.handles)
      (memories : (session.execute command).session.memories = session.memories)
      (files : ∀ path, command.UsesOnly path →
        (session.execute command).session.files = session.files) : Deed session command
  /-- A handle that is not there or cannot be copied is to be copied. -/
  | fails {command : Command} (left : (session.execute command).session = session)
      (failed : (session.execute command).reply.toBool = false) : Deed session command
  | opens {command : Command} {name : String} {origin : Option Origin} {opening : Step Connection}
      (opens : session.Opens command name origin opening) : Deed session command
  /-- A handle that keeps nothing is opened. -/
  | discards {command : Command} {name : String} (opened : command.opened? = some name)
      (apart : ∀ origin team, command.joins origin team = false)
      (left : (session.execute command).session = session.attach name .discarding)
      (done : (session.execute command).reply.toBool = true) : Deed session command
  | closes (name : String) : Deed session (.close name)
  | performs {name : String} {handle : Handle} (found : session.handle? name = some handle)
      (operation : Store.Operation) : Deed session (.perform name operation)
  | publishes {name : String} {handle : Handle} (found : session.handle? name = some handle) :
      Deed session (.publishDue name)
  | builds (path : String) (earlier : Schema.Earlier) : Deed session (.build path earlier)

/-- A command that needs a handle that is not there does nothing. -/
theorem deed_of_no_handle {command : Command}
    (refused : session.execute command = session.refused .noHandle) : session.Deed command :=
  .fails (by rw [refused]; rfl) (by rw [refused]; rfl)

theorem deed (session : Session) (command : Command) : session.Deed command := by
  cases command with
  | setClock now => exact .stays (fun _ _ => rfl) rfl rfl fun _ _ => rfl
  | logging action => exact .stays (fun _ _ => rfl) rfl rfl fun _ _ => rfl
  | isLogged level => exact .stays (fun _ _ => rfl) rfl rfl fun _ _ => rfl
  | makeLogger level => exact .stays (fun _ _ => rfl) rfl rfl fun _ _ => rfl
  | openFile name path => exact .opens (.file name path)
  | openMemory name bits => exact .opens (.memory name bits)
  | openDiscarding name => exact .discards rfl (fun _ _ => rfl) rfl rfl
  | openConfigured name config bits =>
      cases config with
      | file path => exact .opens (.configuredFile name path bits)
      | memory => exact .opens (.configuredMemory name bits)
      | discard => exact .discards rfl (fun _ _ => rfl) rfl rfl
  | copy name newName =>
      cases found : session.handle? name with
      | none => exact deed_of_no_handle (by simp [Session.execute, withHandle, found])
      | some handle =>
          cases known : handle.origin? with
          | none =>
              have refused : session.execute (.copy name newName) = session.refused .notCopyable := by
                simp [Session.execute, withHandle, found, known]
              exact .fails (by rw [refused]; rfl) (by rw [refused]; rfl)
          | some origin => exact .opens (.copy found known newName)
  | close name => exact .closes name
  | perform name operation =>
      cases found : session.handle? name with
      | none => exact deed_of_no_handle (by simp [Session.execute, withHandle, found])
      | some handle => exact .performs found operation
  | publishDue name =>
      cases found : session.handle? name with
      | none => exact deed_of_no_handle (by simp [Session.execute, withHandle, found])
      | some handle => exact .publishes found
  | build path earlier => exact .builds path earlier
  | inspect path =>
      have left : (session.execute (.inspect path)).session = session := by
        simp only [Session.execute]
        split <;> rfl
      exact .stays (fun _ _ => rfl) (by rw [left]) (by rw [left])
        fun _ _ => by rw [left]
  | writeFile path content =>
      exact .stays (fun _ _ => rfl) rfl rfl fun _ usesOnly => usesOnly.elim
  | makeDirectories path =>
      exact .stays (fun _ _ => rfl) rfl rfl fun _ usesOnly => usesOnly.elim
  | isThere path => exact .stays (fun _ _ => rfl) rfl rfl fun _ _ => rfl

theorem execute_publishDue {name : String} {handle : Handle}
    (found : session.handle? name = some handle) :
    session.execute (.publishDue name) = (session.publishDue handle).execution .published := by
  simp [Session.execute, withHandle, found]

/-! ## Operations one after the other -/

/-- Publishing what is due is a row of operations: what each of them preserves is preserved. -/
theorem publishDue_preserves {handle : Handle} {Preserved : Session → Session → Prop}
    (refl : ∀ session, Preserved session session)
    (trans : ∀ {first second third}, Preserved first second → Preserved second third →
      Preserved first third)
    (perform : ∀ session operation, Preserved session (session.perform handle operation).session)
    (session : Session) : Preserved session (session.publishDue handle).session := by
  have marks (messages : List Message) (session : Session) :
      Preserved session (session.markAll handle messages).session := by
    -- What has been marked before one fails stays marked, so both ways out count the first step.
    induction messages generalizing session with
    | nil => exact refl session
    | cons message rest ih =>
        have step := perform session (.markPublished message)
        unfold markAll
        simp only
        split
        · exact step
        · exact trans step (ih _)
  have step := perform session .due
  unfold publishDue
  simp only
  split
  · exact trans step (marks _ _)
  · exact step
  · exact step

end MessageStore.Session
