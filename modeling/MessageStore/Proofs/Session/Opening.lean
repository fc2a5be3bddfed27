import MessageStore.Proofs.Schema.Ascent
import MessageStore.Proofs.Session.Locators
import MessageStore.Session.Command

/-!
# What opening and using a dataset comes to

The parts of opening a handle, each with what it leaves and what it leads to.
Data that can be loaded and changed without hindrance is set up as a database is,
and an operation through a handle on it is one on that database.
-/

namespace MessageStore.Session

open Host (Place)
open Relational (Database)
open Schema (Standing currentVersion)

variable {session later : Session} {name : String}

/-! ## Files that are opened -/

/-- A file is provided with a model of permissions as without one, if the file of the model is
there. -/
theorem provideFile_of_model {request : Request} {model : List UInt8}
    (named : request.model = some model) (path : String) (place : Place) :
    session.provideFile path place request =
      if session.files.hasNamed model then
        session.provideFile path place { request with model := none }
      else .error .inputOutput := by
  unfold provideFile
  simp only [named]
  cases session.files.hasNamed model <;> rfl

/-- The file of a model of permissions is only looked for. -/
theorem provideFile_without_model {path : String} {place : Place} {request : Request}
    (provided : session.provideFile path place request = .ok later) :
    session.provideFile path place { request with model := none } = .ok later := by
  cases named : request.model with
  | none =>
      rw [← named]
      exact provided
  | some model =>
      rw [provideFile_of_model named] at provided
      split at provided
      · exact provided
      · cases provided

/-- A file that is provided is there, or it is made empty in a directory that is there. -/
theorem provideFile_eq_ok {path : String} {place : Place} {request : Request}
    (provided : session.provideFile path place request = .ok later) :
    (later = session ∧ ∃ node, session.files.node? place = some node ∧ node ≠ .directory) ∨
      (later = { session with files := session.files.put place (.bytes []) } ∧
        session.files.node? place = none ∧ session.files.isDirectory place.dropLast = true) := by
  replace provided := provideFile_without_model provided
  unfold provideFile at provided
  simp only at provided
  split at provided
  · cases provided
  · rename_i node different found
    cases provided
    exact .inl ⟨rfl, node, found, different⟩
  · rename_i absent
    split at provided
    · rename_i allowed
      cases provided
      exact .inr ⟨rfl, absent, allowed.2⟩
    · cases provided

theorem dataset_enter {way : Sidecar.Entering Unit} {place : Place} {request : Request}
    {connection : Connection} (entered : session.enter way place request = (later, .ok connection)) :
    connection.dataset = .file place := by
  unfold enter at entered
  simp only at entered
  split at entered
  · cases entered
    rfl
  · cases entered

/-! ## Data that is set up -/

theorem result_setup {connection opened : Connection}
    (done : (session.setup connection).result = .ok opened) : opened = connection := by
  unfold setup at done
  split at done
  · cases done
  · simp only [during_eq_ok_iff] at done
    cases result : (Schema.setupUnder _ _).outcome with
    | error error =>
        rw [result] at done
        cases done
    | ok value =>
        rw [result] at done
        cases done
        rfl

theorem result_settle {connection opened : Connection}
    (done : (session.settle connection).result = .ok opened) : opened = connection := by
  unfold settle at done
  simp only at done
  split at done
  · exact result_setup done
  · rename_i failed
    rw [failed] at done
    cases done

/-- Setting up data without hindrance. -/
theorem settle_of_loaded {connection : Connection} {db : Database}
    (loaded : session.load connection = .ok db) (free : session.barrier? connection = none)
    (done : (Schema.setup db).outcome = .ok ()) :
    session.settle connection =
      ⟨session.save connection db (Schema.setup db).db, (Schema.setup db).log, .ok connection⟩ := by
  have ran : session.setup connection =
      ⟨session.save connection db (Schema.setup db).db, (Schema.setup db).log, .ok connection⟩ := by
    unfold setup
    rw [loaded]
    simp only [free]
    change Step.mk _ _ (during _ ((Schema.setup db).outcome.map fun () => connection)) = _
    rw [done]
    rfl
  unfold settle
  rw [ran]

/-- Setting up a current database does nothing. -/
theorem settle_of_current {connection : Connection} {db : Database}
    (loaded : session.load connection = .ok db) (free : session.barrier? connection = none)
    (standing : Standing currentVersion db) :
    session.settle connection = ⟨session.save connection db db, [], .ok connection⟩ := by
  have idle := Schema.setup_of_current standing
  rw [settle_of_loaded loaded free (by rw [idle]), idle]

/-! ## Paths and locators -/

/-- A path or a locator without the character U+0000 leads to what it asks for. -/
theorem connectBy_of_target (session : Session) {path : String} {target : Target}
    (noNul : Host.Path.nulByte? path = none) (asked : Target.ofPath path = .ok target)
    (activity : String) :
    session.connectBy activity path = session.connectTarget activity path target := by
  unfold connectBy
  rw [noNul, asked]

/-- An origin is opened by its path or its locator. -/
theorem exists_connect_eq (session : Session) (origin : Origin) :
    ∃ activity, session.connect origin = session.connectBy activity origin.locator := by
  cases origin with
  | path path =>
      unfold connect connectPath Origin.locator
      exact ⟨_, rfl⟩
  | memory bits =>
      unfold connect Origin.locator
      exact ⟨_, rfl⟩

/-- What is shared under a name is accessed as those do who share it already. -/
theorem connectBy_of_shared (session : Session) {path : String} {shared : List UInt8}
    (leads : sharedName? path = some shared) (activity : String) :
    ∃ readOnly, session.connectBy activity path =
      session.settle ⟨.named .standard shared,
        (session.sharedAccess? (.named .standard shared) .standard).getD
          { readOnly, shared := true }⟩ := by
  obtain ⟨noNul, request, asked, standard, isShared⟩ := exists_request_of_shared leads
  refine ⟨request.readsOnly, ?_⟩
  rw [connectBy_of_target session noNul asked]
  simp only [connectTarget, joinedAccess?, standard, isShared, if_true]

/-- A store in memory is accessed as those do who share it already. -/
theorem connect_memory (session : Session) (bits : Nat) :
    session.connect (.memory bits) =
      session.settle ⟨.named .standard (Text.encode (Target.nameOfBits bits)),
        (session.sharedAccess? (.named .standard (Text.encode (Target.nameOfBits bits)))
          .standard).getD { shared := true }⟩ := by
  obtain ⟨activity, connects⟩ := session.exists_connect_eq (.memory bits)
  rw [connects, Origin.locator, connectBy_of_target session (Target.nulByte?_memoryLocator bits)
    (Target.ofPath_memoryLocator bits)]
  rfl

/-! ## Commands that open or use a handle -/

/-- Opening the dataset of a command, which is then attached under a name. -/
inductive Opens (session : Session) : Command → String → Option Origin → Step Connection → Prop
  | file (name path : String) :
      Opens session (.openFile name path) name (some (.path path)) (session.openPath path)
  | memory (name : String) (bits : Nat) :
      Opens session (.openMemory name bits) name (some (.memory bits))
        (session.connect (.memory bits))
  | configuredFile (name path : String) (bits : Nat) :
      Opens session (.openConfigured name (.file path) bits) name none (session.openPath path)
  | configuredMemory (name : String) (bits : Nat) :
      Opens session (.openConfigured name .memory bits) name none (session.connect (.memory bits))
  | copy {name : String} {handle : Handle} {origin : Origin}
      (found : session.handle? name = some handle) (known : handle.origin? = some origin)
      (newName : String) :
      Opens session (.copy name newName) newName (some origin) (session.connect origin)

/-- A command that opens a dataset attaches it, if that is possible. -/
theorem Opens.execute {command : Command} {origin : Option Origin} {opening : Step Connection}
    (opens : session.Opens command name origin opening) :
    (session.execute command).session = (attachOpened name origin opening).session ∧
      (session.execute command).reply =
        ((attachOpened name origin opening).result.map fun () => .done).mapError .failed := by
  cases opens with
  | file name path => exact ⟨rfl, rfl⟩
  | memory name bits => simp [Session.execute, openMemory, Step.execution]
  | configuredFile name path bits => exact ⟨rfl, rfl⟩
  | configuredMemory name bits => simp [Session.execute, openConfigured, Step.execution]
  | copy found known newName =>
      simp [Session.execute, withHandle, found, known, Session.copy, Step.execution]

/-- An operation through a handle without hindrance is one on the data that the handle shows. -/
theorem perform_of_loaded {connection : Connection} {db : Database}
    (loaded : session.load connection = .ok db) (free : session.barrier? connection = none)
    (origin : Option Origin) (operation : Store.Operation) :
    session.perform (.on connection origin) operation =
      ⟨session.save connection db (Store.perform session.clock db operation).db,
        (Store.perform session.clock db operation).log,
        (Store.perform session.clock db operation).answer⟩ := by
  unfold perform
  simp only [loaded, free, Store.performUnder_none]

theorem execute_perform {handle : Handle} (found : session.handle? name = some handle)
    (operation : Store.Operation) :
    session.execute (.perform name operation) =
      (session.perform handle operation).execution .answer := by
  simp [Session.execute, withHandle, found]

end MessageStore.Session
