import MessageStore.Proofs.Session.Opening

/-!
# Sessions that report to another facade

Nothing that a session does with handles, data and files looks at what records
are reported to, or changes it.  A session that reports to another facade does
the same, reports the same and leaves the same behind, except for the facade.
-/

namespace MessageStore

open Host (Place)
open Log (Facade)

/-- A session that reports to the given facade. -/
def Session.reportingTo (session : Session) (facade : Facade) : Session :=
  { session with facade }

/-- A step that leads to a session that reports to the given facade. -/
def Step.reportingTo {α : Type} (step : Step α) (facade : Facade) : Step α :=
  { step with session := step.session.reportingTo facade }

/-- An execution that leads to a session that reports to the given facade. -/
def Execution.reportingTo (execution : Execution) (facade : Facade) : Execution :=
  { execution with session := execution.session.reportingTo facade }

namespace Session

variable (session : Session) (facade : Facade)

@[simp]
theorem reportingTo_reportingTo (other : Facade) :
    (session.reportingTo other).reportingTo facade = session.reportingTo facade :=
  rfl

@[simp]
theorem facade_reportingTo : (session.reportingTo facade).facade = facade :=
  rfl

@[simp]
theorem files_reportingTo : (session.reportingTo facade).files = session.files :=
  rfl

@[simp]
theorem clock_reportingTo : (session.reportingTo facade).clock = session.clock :=
  rfl

@[simp]
theorem handle?_reportingTo (name : String) :
    (session.reportingTo facade).handle? name = session.handle? name :=
  rfl

@[simp]
theorem load_reportingTo (connection : Connection) :
    (session.reportingTo facade).load connection = session.load connection :=
  rfl

@[simp]
theorem barrier?_reportingTo (connection : Connection) :
    (session.reportingTo facade).barrier? connection = session.barrier? connection :=
  rfl

@[simp]
theorem usesLog_reportingTo (place : Place) :
    (session.reportingTo facade).usesLog place = session.usesLog place :=
  rfl

@[simp]
theorem joinedAccess?_reportingTo (dataset : Dataset) (request : Request) :
    (session.reportingTo facade).joinedAccess? dataset request =
      session.joinedAccess? dataset request :=
  rfl

/-! ## Data -/

@[simp]
theorem save_reportingTo (connection : Connection) (before now : Relational.Database) :
    (session.reportingTo facade).save connection before now =
      (session.save connection before now).reportingTo facade := by
  unfold save
  cases connection.dataset with
  | file place =>
      simp only
      split
      · rfl
      · cases connection.access.journal <;> rfl
  | _ => rfl

@[simp]
theorem leave_reportingTo (connection : Connection) :
    (session.reportingTo facade).leave connection =
      (session.leave connection).reportingTo facade := by
  unfold leave
  split
  · rw [usesLog_reportingTo]
    split <;> rfl
  · rfl

@[simp]
theorem attach_reportingTo (name : String) (handle : Handle) :
    (session.reportingTo facade).attach name handle =
      (session.attach name handle).reportingTo facade := by
  let rest := session.handles.filter fun entry => entry.1 ≠ name
  let attached : Session := { session with handles := (name, handle) :: rest }
  unfold attach
  rw [handle?_reportingTo]
  cases (session.handle? name).bind Handle.connection? with
  | none => rfl
  | some connection => exact attached.leave_reportingTo facade connection

@[simp]
theorem close_reportingTo (name : String) :
    (session.reportingTo facade).close name = (session.close name).reportingTo facade := by
  let rest := { session with handles := session.handles.filter fun entry => entry.1 ≠ name }
  unfold close
  rw [handle?_reportingTo]
  cases (session.handle? name).bind Handle.connection? with
  | none => rfl
  | some connection => exact rest.leave_reportingTo facade connection

/-! ## Opening -/

@[simp]
theorem setup_reportingTo (connection : Connection) :
    (session.reportingTo facade).setup connection =
      (session.setup connection).reportingTo facade := by
  unfold setup
  rw [load_reportingTo, barrier?_reportingTo]
  cases session.load connection with
  | error fault => rfl
  | ok db =>
      simp only [save_reportingTo]
      rfl

@[simp]
theorem settle_reportingTo (connection : Connection) :
    (session.reportingTo facade).settle connection =
      (session.settle connection).reportingTo facade := by
  unfold settle
  rw [setup_reportingTo]
  obtain ⟨later, log, result⟩ := session.setup connection
  cases result with
  | error error => simp only [Step.reportingTo, leave_reportingTo]
  | ok opened => rfl

/-- A file is provided as in any session. -/
theorem provideFile_reportingTo (path : String) (place : Place) (request : Request) :
    (session.reportingTo facade).provideFile path place request =
      (session.provideFile path place request).map (·.reportingTo facade) := by
  have free : (session.reportingTo facade).provideFile path place { request with model := none } =
      (session.provideFile path place { request with model := none }).map
        (·.reportingTo facade) := by
    unfold provideFile
    simp only [files_reportingTo]
    cases session.files.node? place with
    | none =>
        by_cases allowed : request.rights = .create ∧
            session.files.isDirectory place.dropLast = true
        · simp only [if_pos allowed]
          exact if_pos allowed
        · simp only [if_neg allowed]
          exact if_neg allowed
    | some node => cases node <;> rfl
  cases named : request.model with
  | none =>
      rw [← named] at free
      exact free
  | some model =>
      rw [provideFile_of_model named, provideFile_of_model named, free, files_reportingTo]
      split <;> rfl

theorem enter_reportingTo (way : Sidecar.Entering Unit) (place : Place) (request : Request) :
    (session.reportingTo facade).enter way place request =
      ((session.enter way place request).1.reportingTo facade,
        (session.enter way place request).2) := by
  unfold enter
  simp only [files_reportingTo, usesLog_reportingTo]
  cases Sidecar.opened way session.files request (session.usesLog place) with
  | mk outcome entry =>
      cases outcome with
      | ok => rfl
      | error fault =>
          let entered := { session with files := entry.files }
          exact congrArg (·, _) (entered.leave_reportingTo facade _)

@[simp]
theorem connectFile_reportingTo (activity path : String) (name : List UInt8) (request : Request) :
    (session.reportingTo facade).connectFile activity path name request =
      (session.connectFile activity path name request).reportingTo facade := by
  unfold connectFile
  simp only [files_reportingTo, joinedAccess?_reportingTo, provideFile_reportingTo]
  cases session.files.fullPlace? name with
  | none => rfl
  | some place =>
      simp only
      cases session.joinedAccess? (.file place) request with
      | some access => exact settle_reportingTo _ _ _
      | none =>
          simp only
          cases session.provideFile path place request with
          | error fault => rfl
          | ok provided =>
              simp only [Except.map, enter_reportingTo]
              cases provided.enter (Sidecar.reachLogged place request) place request with
              | mk entered outcome =>
                  cases outcome with
                  | error fault => rfl
                  | ok connection => exact settle_reportingTo _ _ _

@[simp]
theorem connectTarget_reportingTo (activity path : String) (target : Target) :
    (session.reportingTo facade).connectTarget activity path target =
      (session.connectTarget activity path target).reportingTo facade := by
  cases target with
  | own readOnly => exact settle_reportingTo session.newMemory.1 facade _
  | memory name request => exact settle_reportingTo _ _ _
  | file name request => exact connectFile_reportingTo _ _ _ _ _ _

@[simp]
theorem connectBy_reportingTo (activity path : String) :
    (session.reportingTo facade).connectBy activity path =
      (session.connectBy activity path).reportingTo facade := by
  unfold connectBy
  cases Host.Path.nulByte? path with
  | some byte => rfl
  | none =>
      simp only
      cases Target.ofPath path with
      | error fault => rfl
      | ok target => exact connectTarget_reportingTo _ _ _ _ _

@[simp]
theorem connectPath_reportingTo (path : String) :
    (session.reportingTo facade).connectPath path =
      (session.connectPath path).reportingTo facade := by
  simp only [connectPath, connectBy_reportingTo]

@[simp]
theorem connect_reportingTo (origin : Origin) :
    (session.reportingTo facade).connect origin =
      (session.connect origin).reportingTo facade := by
  cases origin with
  | path path => simp only [connect, connectPath_reportingTo]
  | memory bits => simp only [connect, connectBy_reportingTo]

@[simp]
theorem openPath_reportingTo (path : String) :
    (session.reportingTo facade).openPath path = (session.openPath path).reportingTo facade := by
  unfold openPath
  cases (Host.Path.parent? path).filter (· ≠ "") with
  | none => exact connectPath_reportingTo _ _ _
  | some parent =>
      simp only [files_reportingTo]
      cases session.files.makeDirectories parent with
      | mk files made =>
          cases made with
          | error fault => rfl
          | ok => exact connectPath_reportingTo { session with files } facade path

@[simp]
theorem attachOpened_reportingTo (name : String) (origin : Option Origin)
    (step : Step Connection) :
    attachOpened name origin (step.reportingTo facade) =
      (attachOpened name origin step).reportingTo facade := by
  unfold attachOpened Step.reportingTo
  cases step.result with
  | error error => rfl
  | ok connection => simp only [attach_reportingTo]

@[simp]
theorem openFile_reportingTo (name path : String) :
    (session.reportingTo facade).openFile name path =
      (session.openFile name path).reportingTo facade := by
  simp only [openFile, openPath_reportingTo, attachOpened_reportingTo]

@[simp]
theorem openMemory_reportingTo (name : String) (bits : Nat) :
    (session.reportingTo facade).openMemory name bits =
      (session.openMemory name bits).reportingTo facade := by
  simp only [openMemory, connect_reportingTo, attachOpened_reportingTo]

@[simp]
theorem openConfigured_reportingTo (name : String) (config : Config) (bits : Nat) :
    (session.reportingTo facade).openConfigured name config bits =
      (session.openConfigured name config bits).reportingTo facade := by
  cases config with
  | file path =>
      simp only [openConfigured, openPath_reportingTo, attachOpened_reportingTo]
      cases attachOpened name none (session.openPath path)
      rfl
  | memory =>
      simp only [openConfigured, connect_reportingTo, attachOpened_reportingTo]
      cases attachOpened name none (session.connect (.memory bits))
      rfl
  | discard =>
      simp only [openConfigured, openDiscarding, attach_reportingTo, Step.reportingTo]

@[simp]
theorem copy_reportingTo (origin : Origin) (name : String) :
    (session.reportingTo facade).copy origin name =
      (session.copy origin name).reportingTo facade := by
  simp only [copy, connect_reportingTo, attachOpened_reportingTo]

/-! ## Using handles and files -/

@[simp]
theorem perform_reportingTo (handle : Handle) (operation : Store.Operation) :
    (session.reportingTo facade).perform handle operation =
      (session.perform handle operation).reportingTo facade := by
  cases handle with
  | discarding => rfl
  | on connection origin =>
      unfold perform
      simp only [load_reportingTo, barrier?_reportingTo, clock_reportingTo]
      cases session.load connection with
      | error fault => rfl
      | ok db =>
          simp only [save_reportingTo]
          rfl

@[simp]
theorem markAll_reportingTo (handle : Handle) (messages : List Message) :
    (session.reportingTo facade).markAll handle messages =
      (session.markAll handle messages).reportingTo facade := by
  induction messages generalizing session with
  | nil => rfl
  | cons message rest ih =>
      unfold markAll
      rw [perform_reportingTo]
      obtain ⟨later, log, result⟩ := session.perform handle (.markPublished message)
      cases result with
      | error error => rfl
      | ok answer =>
          simp only [Step.reportingTo, ih]

@[simp]
theorem publishDue_reportingTo (handle : Handle) :
    (session.reportingTo facade).publishDue handle =
      (session.publishDue handle).reportingTo facade := by
  unfold publishDue
  rw [perform_reportingTo]
  obtain ⟨later, log, result⟩ := session.perform handle .due
  cases result with
  | error error => rfl
  | ok answer =>
      cases answer with
      | messages due =>
          simp only [Step.reportingTo, markAll_reportingTo]
      | _ => rfl

@[simp]
theorem alterOnce_reportingTo (connection : Connection)
    (change : Relational.Database → Except Relational.Fault Relational.Database) :
    (session.reportingTo facade).alterOnce connection change =
      (session.alterOnce connection change).reportingTo facade := by
  unfold alterOnce
  rw [load_reportingTo, barrier?_reportingTo]
  cases session.load connection with
  | error fault =>
      simp only [leave_reportingTo]
      rfl
  | ok db =>
      simp only [leave_reportingTo, save_reportingTo]
      cases change db with
      | error fault => rfl
      | ok changed => cases session.barrier? connection <;> rfl

@[simp]
theorem build_reportingTo (path : String) (earlier : Schema.Earlier) :
    (session.reportingTo facade).build path earlier =
      (session.build path earlier).reportingTo facade := by
  unfold build
  simp only [files_reportingTo]
  generalize shape : ({ session with files := _ } : Session) = ready
  generalize otherShape : ({ session.reportingTo facade with files := _ } : Session) = other
  have same : other = ready.reportingTo facade := by
    rw [← shape, ← otherShape]
    rfl
  rw [same]
  cases Target.ofPath path with
  | error fault => rfl
  | ok target =>
      cases target with
      | own | memory => rfl
      | file name request =>
          simp only
          generalize Host.FileTree.fullPlace? _ name = place?
          cases place? with
          | none => rfl
          | some place =>
              simp only [provideFile_reportingTo]
              cases ready.provideFile path place request with
              | error fault => rfl
              | ok provided =>
                  simp only [Except.map, enter_reportingTo]
                  obtain ⟨entered, outcome⟩ :=
                    provided.enter (Sidecar.reach place request) place request
                  cases outcome with
                  | error fault => rfl
                  | ok connection => exact alterOnce_reportingTo entered facade connection _

@[simp]
theorem inspect_reportingTo (path : String) :
    (session.reportingTo facade).inspect path = session.inspect path :=
  rfl

end Session

end MessageStore
