import MessageStore.Proofs.Host.Trees
import MessageStore.Proofs.Session.Opening
import MessageStore.Proofs.Store.History
import MessageStore.Proofs.Store.Twins

/-!
# Handles and what they are on

Which handles are on a dataset is told by their names alone: opening a handle
puts its name there or takes it away, and closing it takes it away.  Nothing else
that a session does changes a handle.
-/

namespace MessageStore

open Relational (Database)

namespace Session

variable {session later : Session} {name asked : String} {handle : Handle}

/-! ## Single handles -/

theorem mem_of_handle? (found : session.handle? name = some handle) :
    (name, handle) ∈ session.handles := by
  obtain ⟨before, after, shape, -⟩ := List.lookup_eq_some_iff.mp found
  rw [shape]
  simp

@[simp]
theorem handles_leave (session : Session) (connection : Connection) :
    (session.leave connection).handles = session.handles := by
  unfold leave
  split
  · split <;> rfl
  · rfl

@[simp]
theorem handles_save (session : Session) (connection : Connection) (before now : Database) :
    (session.save connection before now).handles = session.handles := by
  unfold save saveFile
  split
  · split
    · rfl
    · split <;> rfl
  · rfl

theorem handles_attach (session : Session) (name : String) (handle : Handle) :
    (session.attach name handle).handles =
      (name, handle) :: session.handles.filter fun entry => entry.1 ≠ name := by
  unfold attach
  simp only
  split
  · rw [handles_leave]
  · rfl

theorem handles_close (session : Session) (name : String) :
    (session.close name).handles = session.handles.filter fun entry => entry.1 ≠ name := by
  unfold close
  simp only
  split
  · rw [handles_leave]
  · rfl

theorem handle?_attach (session : Session) (name : String) (handle : Handle) (asked : String) :
    (session.attach name handle).handle? asked =
      if asked = name then some handle else session.handle? asked := by
  unfold handle?
  rw [handles_attach]
  exact lookup_put session.handles name asked handle

theorem handle?_close (session : Session) (name asked : String) :
    (session.close name).handle? asked = if asked = name then none else session.handle? asked := by
  unfold handle?
  rw [handles_close]
  exact lookup_filter_ne session.handles name asked

/-! ## The handles on a dataset -/

/-- Exactly the handles with the given names are on a dataset. -/
def Manned (session : Session) (dataset : Dataset) (team : List String) : Prop :=
  ∀ name, name ∈ team ↔ (session.handle? name).bind Handle.dataset? = some dataset

variable {dataset : Dataset} {team : List String}

theorem Manned.of_handles (manned : session.Manned dataset team)
    (same : later.handles = session.handles) : later.Manned dataset team := by
  intro name
  unfold handle?
  rw [same]
  exact manned name

theorem Manned.attach (manned : session.Manned dataset team) (name : String)
    (on : handle.dataset? = some dataset) :
    (session.attach name handle).Manned dataset (name :: team) := by
  intro asked
  rw [handle?_attach, List.mem_cons, manned asked]
  split
  · rename_i same
    simp [same, on]
  · rename_i other
    simp [other]

theorem Manned.attach_other (manned : session.Manned dataset team) (name : String)
    (off : handle.dataset? ≠ some dataset) :
    (session.attach name handle).Manned dataset (team.filter (· ≠ name)) := by
  intro asked
  rw [handle?_attach, List.mem_filter, manned asked]
  split
  · rename_i same
    simp [same, off]
  · rename_i other
    simp [other]

theorem Manned.close (manned : session.Manned dataset team) (name : String) :
    (session.close name).Manned dataset (team.filter (· ≠ name)) := by
  intro asked
  rw [handle?_close, List.mem_filter, manned asked]
  split
  · rename_i same
    simp [same]
  · rename_i other
    simp [other]

end Session

/-! ## Commands that handles come and go by -/

namespace Command

/-- The name of the handle that a command opens. -/
def opened? : Command → Option String
  | .openFile name _ => some name
  | .openMemory name _ => some name
  | .openDiscarding name => some name
  | .openConfigured name _ _ => some name
  | .copy _ newName => some newName
  | _ => none

/-- Whether a command opens a handle on the dataset of an origin, when those of a team are on it:
it leads to the dataset, or copies one of the team. -/
def joins (origin : Origin) (team : List String) : Command → Bool
  | .openFile _ path => origin.meets (.path path)
  | .openMemory _ bits => origin.meets (.memory bits)
  | .openConfigured _ (.file path) _ => origin.meets (.path path)
  | .openConfigured _ .memory bits => origin.meets (.memory bits)
  | .copy name _ => name ∈ team
  | _ => false

/-- The names of the handles on the dataset of an origin after a command that succeeds. -/
def teamAfter (origin : Origin) (team : List String) : Command → List String
  | .close name => team.filter (· ≠ name)
  | command =>
      match command.opened? with
      | none => team
      | some name =>
          if command.joins origin team then name :: team else team.filter (· ≠ name)

/-- Of all files, a command uses at most the one at a path, and only by opening it. -/
def UsesOnly (path : String) : Command → Prop
  | .openFile _ other => other = path
  | .openConfigured _ (.file other) _ => other = path
  | .build _ _ => False
  | .writeFile _ _ => False
  | .makeDirectories _ => False
  | _ => True

end Command

namespace Session

variable {session : Session} {name : String}

/-- The names of the handles on the dataset of an origin after a command. -/
def teamAfter (session : Session) (origin : Origin) (team : List String) (command : Command) :
    List String :=
  if (session.execute command).reply.toBool then command.teamAfter origin team else team

theorem teamAfter_of_failed {origin : Origin} {team : List String} {command : Command}
    (failed : (session.execute command).reply.toBool = false) :
    session.teamAfter origin team command = team := by
  unfold teamAfter
  rw [failed]
  rfl

/-- A command that opens and closes nothing leaves a team as it is. -/
theorem teamAfter_of_idle {origin : Origin} {team : List String} {command : Command}
    (idle : command.teamAfter origin team = team) :
    session.teamAfter origin team command = team := by
  unfold teamAfter
  rw [idle, ite_self]

theorem teamAfter_of_opened {origin : Origin} {team : List String} {command : Command}
    (done : (session.execute command).reply.toBool = true) (opened : command.opened? = some name) :
    session.teamAfter origin team command =
      if command.joins origin team then name :: team else team.filter (· ≠ name) := by
  unfold teamAfter
  rw [done, if_pos rfl]
  cases command <;> simp_all [Command.opened?, Command.teamAfter]

theorem Opens.opened? {command : Command} {origin : Option Origin} {opening : Step Connection}
    (opens : session.Opens command name origin opening) : command.opened? = some name := by
  cases opens <;> rfl

/-- A command that opens a dataset fails with it, or puts a handle on it. -/
theorem Opens.cases {command : Command} {origin : Option Origin} {opening : Step Connection}
    (opens : session.Opens command name origin opening) (dataset : Origin) (team : List String) :
    (∃ error, opening.result = .error error ∧
      (session.execute command).session = opening.session ∧
      (session.execute command).reply = .error (.failed error) ∧
      session.teamAfter dataset team command = team) ∨
    ∃ connection, opening.result = .ok connection ∧
      (session.execute command).session = opening.session.attach name (.on connection origin) ∧
      (session.execute command).reply = .ok .done ∧
      session.teamAfter dataset team command =
        if command.joins dataset team then name :: team else team.filter (· ≠ name) := by
  obtain ⟨left, replied⟩ := opens.execute
  unfold attachOpened at left replied
  cases opened : opening.result with
  | error error =>
      rw [opened] at left replied
      exact .inl ⟨error, rfl, left, replied, teamAfter_of_failed (by rw [replied]; rfl)⟩
  | ok connection =>
      rw [opened] at left replied
      exact .inr ⟨connection, rfl, left, replied,
        teamAfter_of_opened (by rw [replied]; rfl) opens.opened?⟩

/-- An operation through a handle of a team, and how it is replied to. -/
def recorded (session : Session) (team : List String) :
    Command → List (Store.Act × Except Refusal Reply)
  | .perform name operation =>
      if name ∈ team then
        [((session.clock, operation), (session.execute (.perform name operation)).reply)]
      else []
  | _ => []

variable {team : List String}

theorem recorded_perform (member : name ∈ team) (operation : Store.Operation) :
    session.recorded team (.perform name operation) =
      [((session.clock, operation), (session.execute (.perform name operation)).reply)] :=
  if_pos member

theorem recorded_other {command : Command}
    (other : ∀ name ∈ team, ∀ operation, command ≠ .perform name operation) :
    session.recorded team command = [] := by
  cases command with
  | perform name operation => exact if_neg fun member => other name member operation rfl
  | _ => rfl

end Session

namespace Store

/-- How operations are replied to that are carried out one after the other on a database. -/
def replies (db : Database) (acts : List Act) : List (Except Refusal Reply) :=
  (answers db acts).map fun (answer, _) => (answer.map .answer).mapError .failed

theorem replies_append (db : Database) (first second : List Act) :
    replies db (first ++ second) = replies db first ++ replies (carryOut db first) second := by
  induction first generalizing db with
  | nil => rfl
  | cons act first ih =>
      have later := ih (perform act.1 db act.2).db
      unfold replies at later ⊢
      simp only [List.cons_append, answers, List.map_cons, later]
      rfl

end Store

end MessageStore
