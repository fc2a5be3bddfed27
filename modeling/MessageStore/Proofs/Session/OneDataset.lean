import MessageStore.Proofs.Session.FirstOpening
import MessageStore.Proofs.Session.Memories

/-!
# All handles see one dataset

A dataset, in memory or in a file, is used through any number of handles: copies,
copies of copies, and handles that are opened on the path, while others are
closed and other data is used.  What the operations are replied to does not
depend on which handles carry them out; it is what they are replied to one after
the other by the data that the dataset started with.  A path that asks for data of
its own is different: every handle on it, also a copy, is on a store of its own.
-/

namespace MessageStore

open Relational (Database)
open Store (Act carryOut fresh replies)

variable {origin other : Origin} {session : Session} {team : List String} {start db : Database}

/-! ## The data that handles show -/

/-- The handles with the given names, and no others, are on the dataset of an origin, which holds
the given data. -/
inductive Shows : Origin → Session → List String → Database → Prop
  | memory {bits : Nat} {session : Session} {team : List String} {db : Database}
      (remembers : session.Remembers (Text.encode (Target.nameOfBits bits)) team db) :
      Shows (.memory bits) session team db
  | file {path : String} {place : Host.Place} {session : Session} {team : List String}
      {db : Database} (serves : session.Serves path place team db) :
      Shows (.path path) session team db

/-- A command that a dataset is not disturbed by: of all files, it uses at most the one that the
dataset is in, and it carries out one operation at a time through a handle on it.  A dataset in
memory is not opened any more after the last handle on it has been closed. -/
structure Command.Fits (origin : Origin) (team : List String) (command : Command) : Prop where
  single : ∀ name ∈ team, command ≠ .publishDue name
  usesOnly : ∀ path, origin = .path path → command.UsesOnly path
  alive : ∀ bits, origin = .memory bits → command.joins origin team = true → team ≠ []

theorem Shows.perform (shows : Shows origin session team db) {name : String} (member : name ∈ team)
    (operation : Store.Operation) :
    ∃ handle, session.handle? name = some handle ∧
      Shows origin (session.perform handle operation).session team
        (Store.perform session.clock db operation).db ∧
      (session.perform handle operation).result =
        (Store.perform session.clock db operation).answer := by
  cases shows with
  | memory remembers =>
      obtain ⟨handle, found, -⟩ := Option.bind_eq_some_iff.mp ((remembers.manned name).mp member)
      obtain ⟨later, answered⟩ := remembers.perform found member operation
      exact ⟨handle, found, .memory later, answered⟩
  | file serves =>
      obtain ⟨handle, found, -⟩ :=
        Option.bind_eq_some_iff.mp ((serves.staffed.manned name).mp member)
      obtain ⟨later, answered⟩ := serves.perform found member operation
      exact ⟨handle, found, .file later, answered⟩

theorem Shows.execute_other (shows : Shows origin session team db) {command : Command}
    (fits : command.Fits origin team)
    (other : ∀ name ∈ team, ∀ operation, command ≠ .perform name operation) :
    Shows origin (session.execute command).session (session.teamAfter origin team command) db := by
  have apart : ∀ name ∈ team, (∀ operation, command ≠ .perform name operation) ∧
      command ≠ .publishDue name := fun name member => ⟨other name member, fits.single name member⟩
  cases shows with
  | memory remembers =>
      exact .memory (remembers.execute_other (Origin.sharedName?_memory _) command
        (fits.alive _ rfl) apart)
  | file serves => exact .file (serves.execute_other command (fits.usesOnly _ rfl) apart)

/-- An operation through a handle is one on the data, and nothing else changes that. -/
theorem Shows.execute (shows : Shows origin session team db) {command : Command}
    (fits : command.Fits origin team) :
    Shows origin (session.execute command).session (session.teamAfter origin team command)
        (carryOut db ((session.recorded team command).map (·.1))) ∧
      (session.recorded team command).map (·.2) =
        replies db ((session.recorded team command).map (·.1)) := by
  -- Only an operation through a handle of the team leaves a record and changes the data.
  by_cases through : ∃ name ∈ team, ∃ operation, command = .perform name operation
  · obtain ⟨name, member, operation, rfl⟩ := through
    obtain ⟨handle, found, later, answered⟩ := shows.perform member operation
    rw [Session.recorded_perform member, Session.execute_perform found,
      Session.teamAfter_of_idle rfl]
    refine ⟨later, ?_⟩
    simp only [List.map_cons, List.map_nil, Step.execution, answered]
    rfl
  · have other : ∀ name ∈ team, ∀ operation, command ≠ .perform name operation :=
      fun name member operation same => through ⟨name, member, operation, same⟩
    rw [Session.recorded_other other]
    exact ⟨shows.execute_other fits other, rfl⟩

/-! ## Courses -/

/-- How a dataset is used: the session, the names of the handles on the dataset, and the operations
that have been carried out through them with what they were replied to. -/
structure Usage where
  session : Session
  team : List String := []
  record : List (Act × Except Refusal Reply) := []

namespace Usage

/-- The operations that have been carried out, with their times. -/
def acts (usage : Usage) : List Act :=
  usage.record.map (·.1)

/-- How the dataset of an origin is used after a command. -/
def after (origin : Origin) (usage : Usage) (command : Command) : Usage where
  session := (usage.session.execute command).session
  team := usage.session.teamAfter origin usage.team command
  record := usage.record ++ usage.session.recorded usage.team command

end Usage

/-- How the dataset of an origin is used, from its first handle on. -/
inductive Course : Origin → Database → Usage → Prop
  /-- A new dataset in memory. -/
  | memory {session : Session} {bits : Nat}
      (new : session.IsNew (Text.encode (Target.nameOfBits bits))) {command : Command}
      {name : String}
      (opens : command = .openMemory name bits ∨ command = .openConfigured name .memory bits) :
      Course (.memory bits) fresh { session := (session.execute command).session, team := [name] }
  /-- A file that nobody uses, once a handle on it can write. -/
  | file {session : Session} {path : String} {place : Host.Place} {db : Database}
      (unopened : session.Unopened path place db) {command : Command} {name : String}
      (opens : command = .openFile name path ∨
        ∃ bits, command = .openConfigured name (.file path) bits)
      (done : (session.execute command).reply = .ok .done) {access : Access}
      {given : Option Origin}
      (on : (session.execute command).session.handle? name =
        some (.on ⟨.file place, access⟩ given))
      (writes : access.readOnly = false) :
      Course (.path path) (Schema.setup db).db
        { session := (session.execute command).session, team := [name] }
  | step {origin : Origin} {start : Database} {usage : Usage} (course : Course origin start usage)
      {command : Command} (fits : command.Fits origin usage.team) :
      Course origin start (usage.after origin command)

variable {usage : Usage}

/-- All along a course, the handles show what the operations leave, and these are replied to as if
they were carried out on the data alone. -/
theorem Course.shows (course : Course origin start usage) :
    Shows origin usage.session usage.team (carryOut start usage.acts) ∧
      usage.record.map (·.2) = replies start usage.acts := by
  induction course with
  | memory new opens => exact ⟨.memory (Session.remembers_of_opened new opens), rfl⟩
  | file unopened opens done on writes =>
      exact ⟨.file (unopened.serves opens done on writes), rfl⟩
  | @step origin start usage course command fits ih =>
      obtain ⟨shows, replied⟩ := ih
      obtain ⟨later, repliedLater⟩ := shows.execute fits
      unfold Usage.acts at *
      refine ⟨?_, ?_⟩
      · unfold carryOut at later ⊢
        rw [Usage.after, List.map_append, List.foldl_append]
        exact later
      · rw [Usage.after, List.map_append, List.map_append, Store.replies_append, replied,
          repliedLater]

/-- A course goes on with any commands that do not disturb the dataset. -/
theorem Course.run (course : Course origin start usage) {commands : List Command}
    (fits : ∀ command ∈ commands, ∀ team, command.Fits origin team) :
    Course origin start (commands.foldl (Usage.after origin) usage) := by
  induction commands generalizing usage with
  | nil => exact course
  | cons command commands ih =>
      exact ih (course.step (fits command List.mem_cons_self _))
        fun later member => fits later (List.mem_cons_of_mem _ member)

/-- Courses that start with the same data and carry out the same operations have the same record. -/
theorem Course.record_eq {usage' : Usage} (course : Course origin start usage)
    (course' : Course other start usage') (same : usage'.acts = usage.acts) :
    usage'.record = usage.record := by
  have answered : usage'.record.map (·.2) = usage.record.map (·.2) := by
    rw [course'.shows.2, course.shows.2, same]
  unfold Usage.acts at same
  rw [← List.zip_unzip usage.record, ← List.zip_unzip usage'.record, List.unzip_eq_map,
    List.unzip_eq_map, same, answered]

/-- The commands that carry out operations at their times through one handle. -/
def alone (name : String) (acts : List Act) : List Command :=
  acts.flatMap fun act => [.setClock act.1, .perform name act.2]

theorem fits_alone {name : String} {acts : List Act} {command : Command}
    (member : command ∈ alone name acts) (origin : Origin) (team : List String) :
    command.Fits origin team := by
  obtain ⟨act, -, inside⟩ := List.mem_flatMap.mp member
  simp only [List.mem_cons, List.not_mem_nil, or_false] at inside
  rcases inside with rfl | rfl <;> exact ⟨nofun, fun _ _ => trivial, fun _ _ => nofun⟩

theorem Usage.after_setClock (origin : Origin) (usage : Usage) (now : Instant) :
    usage.after origin (.setClock now) =
      { usage with session := { usage.session with clock := now } } := by
  unfold Usage.after
  rw [Session.teamAfter_of_idle rfl]
  simp [Session.recorded, Session.execute, Session.replied]

theorem Usage.after_perform (origin : Origin) {name : String} {usage : Usage}
    (member : name ∈ usage.team) (operation : Store.Operation) :
    (usage.after origin (.perform name operation)).team = usage.team ∧
      (usage.after origin (.perform name operation)).acts =
        usage.acts ++ [(usage.session.clock, operation)] := by
  refine ⟨Session.teamAfter_of_idle rfl, ?_⟩
  unfold Usage.acts Usage.after
  rw [Session.recorded_perform member, List.map_append]
  rfl

/-- One handle can carry out any operations. -/
theorem Usage.acts_alone {name : String} {usage : Usage} (member : name ∈ usage.team)
    (acts : List Act) :
    ((alone name acts).foldl (Usage.after origin) usage).acts = usage.acts ++ acts := by
  induction acts generalizing usage with
  | nil => simp [alone]
  | cons act acts ih =>
      have set := Usage.after_setClock origin usage act.1
      have memberSet : name ∈ (usage.after origin (.setClock act.1)).team := by
        rw [set]
        exact member
      obtain ⟨team, performed⟩ := Usage.after_perform origin memberSet act.2
      have later := ih (team ▸ memberSet)
      rw [performed, set] at later
      change ((alone name acts).foldl (Usage.after origin) _).acts = _
      rw [set, later, List.append_assoc]
      rfl

/-- The ways to get one more handle on a dataset. -/
inductive Session.Rejoins (session : Session) (team : List String) : Origin → Command → Prop
  /-- Opening the path. -/
  | path (name path : String) : Rejoins session team (.path path) (.openFile name path)
  /-- Opening the path as a configuration asks. -/
  | configured (name path : String) (bits : Nat) :
      Rejoins session team (.path path) (.openConfigured name (.file path) bits)
  /-- Copying a handle that has not been opened by a configuration. -/
  | copy {origin given : Origin} {name : String} (member : name ∈ team) {handle : Handle}
      (found : session.handle? name = some handle) (copyable : handle.origin? = some given)
      (newName : String) : Rejoins session team origin (.copy name newName)

/-- A dataset can always be given one more handle. -/
theorem Shows.rejoins (shows : Shows origin session team db) {command : Command}
    (rejoins : session.Rejoins team origin command) :
    (session.execute command).reply = .ok .done := by
  cases rejoins with
  | path name path =>
      cases shows with
      | file serves =>
          exact (serves.open (.file name path) (fun given same => (Option.some.inj same).symm)
            (serves.meets_iff.mpr rfl) serves.openPath).1
  | configured name path bits =>
      cases shows with
      | file serves =>
          exact (serves.open (.configuredFile name path bits) (by simp)
            (serves.meets_iff.mpr rfl) serves.openPath).1
  | @copy origin given name member handle found copyable newName =>
      cases shows with
      | memory remembers => exact remembers.reply_copy member found copyable newName
      | file serves =>
          have on := (serves.staffed.manned name).mp member
          rw [found] at on
          have own := (serves.staffed.own _ (Session.mem_of_handle? found) _ on).2.1 _ copyable
          exact (serves.copy found (own ▸ copyable) newName).1

/-- A command that opens a dataset gives no other reply. -/
theorem reply_eq_done {session : Session} {command : Command} {name : String}
    {given : Option Origin} {opening : Step Connection}
    (opens : session.Opens command name given opening)
    (succeeds : (session.execute command).reply.toBool = true) :
    (session.execute command).reply = .ok .done := by
  rcases opens.cases (.memory 0) [] with ⟨error, -, -, replied, -⟩ | ⟨connection, -, -, replied, -⟩
  · rw [replied] at succeeds
    cases succeeds
  · exact replied

/-- A handle that is opened on a store in memory under another name does not get to the dataset. -/
theorem Usage.not_mem_team_of_other_name {bits otherBits : Nat} {name : String}
    (apart : Target.nameOfBits otherBits ≠ Target.nameOfBits bits)
    (done : (usage.session.execute (.openMemory name otherBits)).reply = .ok .done) :
    name ∉ (usage.after (.memory bits) (.openMemory name otherBits)).team := by
  have elsewhere : (Command.openMemory name otherBits).joins (.memory bits) usage.team = false :=
    Bool.eq_false_iff.mpr fun joins => apart (Origin.memory_meets_memory_iff.mp joins).symm
  unfold Usage.after
  rw [Session.teamAfter_of_opened (by rw [done]; rfl) rfl, elsewhere]
  simp

/-- However operations are distributed over the handles of a dataset, they are replied to as if one
handle carried them all out, and alike whether the dataset is in memory or in a file that starts with
the same data; there can always be one more handle; and handles on a store in memory under another
name are none of them. -/
theorem handles_see_one_dataset (course : Course origin start usage) :
    (∀ {other opened name}, Course other start opened → opened.record = [] → name ∈ opened.team →
      usage.record = ((alone name usage.acts).foldl (Usage.after other) opened).record) ∧
    (∀ {other usage'}, Course other start usage' → usage'.acts = usage.acts →
      usage'.record = usage.record) ∧
    (∀ command, usage.session.Rejoins usage.team origin command →
      (usage.session.execute command).reply = .ok .done) ∧
    ∀ {bits otherBits name}, origin = .memory bits →
      Target.nameOfBits otherBits ≠ Target.nameOfBits bits →
      (usage.session.execute (.openMemory name otherBits)).reply = .ok .done →
      name ∉ (usage.after origin (.openMemory name otherBits)).team := by
  refine ⟨fun {other opened name} first unused member => ?_, fun course' => course.record_eq course',
    fun command => course.shows.1.rejoins, ?_⟩
  · -- The single handle runs a course of its own, with the same operations.
    have single : Course other start ((alone name usage.acts).foldl (Usage.after other) opened) :=
      first.run fun command inside team => fits_alone inside other team
    have acts : ((alone name usage.acts).foldl (Usage.after other) opened).acts = usage.acts := by
      rw [Usage.acts_alone member, Usage.acts, unused]
      rfl
    exact (course.record_eq single acts).symm
  · rintro bits otherBits name rfl apart done
    exact Usage.not_mem_team_of_other_name apart done

/-- A copy sees in memory, after the first handle has been closed and another dataset used, what a
handle sees on a file that has been closed and opened again. -/
theorem copy_sees_what_reopened_file_sees :
    let clock : Instant := ⟨5, 0, by decide, by decide, by decide⟩
    let session := Session.start clock []
    let memory : Usage :=
      { session := (session.execute (.openMemory "a" 0)).session, team := ["a"] }
    let file : Usage :=
      { session := (session.execute (.openFile "a" "m")).session, team := ["a"] }
    let add : Store.Operation := .add (.plain "t" "a" 1 "")
    let copying : List Command :=
      [.copy "a" "b", .perform "a" add, .openMemory "c" 1, .perform "c" add, .close "a",
        .perform "b" (.count "t")]
    let reopening : List Command :=
      [.perform "a" add, .close "a", .openFile "b" "m", .perform "b" (.count "t")]
    Course (.memory 0) fresh (copying.foldl (Usage.after (.memory 0)) memory) ∧
      Course (.path "m") fresh (reopening.foldl (Usage.after (.path "m")) file) ∧
      (copying.foldl (Usage.after (.memory 0)) memory).acts = [(clock, add), (clock, .count "t")] ∧
      (reopening.foldl (Usage.after (.path "m")) file).record =
        (copying.foldl (Usage.after (.memory 0)) memory).record := by
  intro clock session memory file add copying reopening
  have noHandle : ∀ entry, entry ∉ session.handles := fun _ => List.not_mem_nil
  have new : session.IsNew (Text.encode (Target.nameOfBits 0)) :=
    ⟨fun entry member => absurd member (noHandle entry), rfl⟩
  have inMemory : Course (.memory 0) fresh memory := .memory new (.inl rfl)
  have otherName : (Origin.memory 0).meets (.memory 1) ≠ true :=
    fun meets => absurd (Origin.memory_meets_memory_iff.mp meets) (by decide +kernel)
  have copyingFits : ∀ command ∈ copying, ∀ team, command.Fits (.memory 0) team := by
    intro command member team
    simp only [copying, List.mem_cons, List.not_mem_nil, or_false] at member
    rcases member with rfl | rfl | rfl | rfl | rfl | rfl
    · exact ⟨nofun, nofun, fun _ _ joins => List.ne_nil_of_mem (of_decide_eq_true joins)⟩
    · exact ⟨nofun, nofun, nofun⟩
    · exact ⟨nofun, nofun, fun _ _ joins => absurd joins otherName⟩
    · exact ⟨nofun, nofun, nofun⟩
    · exact ⟨nofun, nofun, nofun⟩
    · exact ⟨nofun, nofun, nofun⟩
  have unopened : session.Unopened "m" [Text.encode "m"] .empty :=
    ⟨rfl, rfl, fun entry member => absurd member (noHandle entry), .inl ⟨rfl, rfl⟩, nofun,
      by decide +kernel, by decide +kernel⟩
  have succeeds : (session.execute (.openFile "a" "m")).reply = .ok .done :=
    reply_eq_done (.file "a" "m") (by decide +kernel)
  have found : (session.execute (.openFile "a" "m")).session.handle? "a" =
      some (.on ⟨.file [Text.encode "m"], { journal := .logged }⟩ (some (.path "m"))) := by
    decide +kernel
  have inFile : Course (.path "m") fresh file := .file unopened (.inl rfl) succeeds found rfl
  have reopeningFits : ∀ command ∈ reopening, ∀ team, command.Fits (.path "m") team := by
    intro command member team
    simp only [reopening, List.mem_cons, List.not_mem_nil, or_false] at member
    rcases member with rfl | rfl | rfl | rfl <;>
      exact ⟨nofun, fun path same => Origin.path.inj same ▸ by trivial, nofun⟩
  have copied := inMemory.run copyingFits
  have reopened := inFile.run reopeningFits
  have acts : (copying.foldl (Usage.after (.memory 0)) memory).acts =
      [(clock, add), (clock, .count "t")] := by
    decide +kernel
  have actsReopened : (reopening.foldl (Usage.after (.path "m")) file).acts =
      [(clock, add), (clock, .count "t")] := by
    decide +kernel
  exact ⟨copied, reopened, acts, 
    (handles_see_one_dataset copied).2.1 reopened (actsReopened.trans acts.symm)⟩

/-! ## Paths that ask for data of their own -/

/-- What is in memory stays there when a handle is put on it. -/
theorem Session.lookup_attach {connection : Connection} (session : Session) (name : String)
    (origin : Option Origin) :
    (session.attach name (.on connection origin)).memories.lookup connection.dataset =
      session.memories.lookup connection.dataset := by
  unfold Session.attach
  simp only
  split
  · exact Session.lookup_leave ⟨_, List.mem_cons_self, rfl⟩ _
  · rfl

theorem Session.clock_attach (session : Session) (name : String) (handle : Handle) :
    (session.attach name handle).clock = session.clock := by
  unfold Session.attach
  simp only
  split
  · unfold Session.leave
    split
    · split <;> rfl
    · rfl
  · rfl

/-- On a path that asks for data of its own, a copy of a handle is on other data than that: on a new
store. -/
theorem reply_of_copy_on_own_data {path name newName : String} {handle : Handle}
    (noNul : Host.Path.nulByte? path = none) (asked : Target.ofPath path = .ok (.own false))
    (new : session.memories.lookup (.numbered session.numbered) = none)
    (found : session.handle? name = some handle) (opened : handle.origin? = some (.path path))
    (operation : Store.Operation) :
    (session.execute (.copy name newName)).reply = .ok .done ∧
      ((session.execute (.copy name newName)).session.execute (.perform newName operation)).reply =
        ((Store.perform session.clock fresh operation).answer.map .answer).mapError .failed := by
  let own : Connection := ⟨.numbered session.numbered, {}⟩
  let kept := session.newMemory.1.saveMemory own.dataset fresh
  have connects : session.connect (.path path) = ⟨kept, (Schema.setup .empty).log, .ok own⟩ := by
    have empty : session.newMemory.1.load own = .ok .empty := by
      change Except.ok ((session.memories.lookup own.dataset).getD .empty) = _
      rw [new]
      rfl
    have targeted := session.connectBy_of_target noNul asked
      ("Failed to open cache database at " ++ Text.quoted path)
    exact targeted.trans (Session.settle_of_loaded empty rfl Session.setup_empty)
  obtain ⟨left, replied⟩ := (Session.Opens.copy found opened newName).execute
  rw [connects] at left replied
  refine ⟨replied, ?_⟩
  let copied := kept.attach newName (.on own (some (.path path)))
  have shape : (session.execute (.copy name newName)).session = copied := left
  have there : copied.handle? newName = some (.on own (some (.path path))) := by
    rw [Session.handle?_attach, if_pos rfl]
  have loaded : copied.load own = .ok fresh := by
    change Except.ok ((copied.memories.lookup own.dataset).getD .empty) = _
    rw [Session.lookup_attach, Session.lookup_saveMemory]
    rfl
  have clock : copied.clock = session.clock := Session.clock_attach kept newName _
  rw [shape, Session.execute_perform there, Session.perform_of_loaded loaded rfl, ← clock]
  rfl

/-- A copy of a handle on `:memory:` misses the message that the handle counts. -/
theorem copy_on_memory_path_misses_message :
    let session := Session.start ⟨5, 0, by decide, by decide, by decide⟩ []
    let opened := session.execute (.openFile "a" ":memory:")
    let added := opened.session.execute (.perform "a" (.add (.plain "t" "a" 1 "")))
    let copied := added.session.execute (.copy "a" "b")
    opened.reply = .ok .done ∧ added.reply = .ok (.answer .done) ∧ copied.reply = .ok .done ∧
      (copied.session.execute (.perform "a" (.count "t"))).reply = .ok (.answer (.count 1)) ∧
      (copied.session.execute (.perform "b" (.count "t"))).reply = .ok (.answer (.count 0)) := by
  decide +kernel

end MessageStore
