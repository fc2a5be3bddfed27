import MessageStore.Proofs.Session.Deeds

/-!
# What spares a dataset in memory

Opening, leaving and building other datasets, and operations through handles on
them, leave all handles where they are and a dataset in memory that a handle is on
as it is.
-/

namespace MessageStore.Session

open Host (Place)
open Relational (Database)

variable {session later last : Session} {shared : List UInt8}

/-! ## What spares a dataset -/

/-- Whether a handle is on a dataset. -/
def IsUsed (session : Session) (dataset : Dataset) : Prop :=
  ∃ entry ∈ session.handles, entry.2.dataset? = some dataset

/-- A dataset in memory that is used is not let go. -/
theorem lookup_leave {dataset : Dataset} (used : session.IsUsed dataset) (connection : Connection) :
    (session.leave connection).memories.lookup dataset = session.memories.lookup dataset := by
  obtain ⟨entry, member, on⟩ := used
  have keeps : (session.handles.any fun entry => entry.2.dataset? == some dataset) = true :=
    List.any_eq_true.mpr ⟨entry, member, by simp [on]⟩
  unfold leave
  split
  · split <;> rfl
  · have left : session.release.memories = session.memories.filter fun kept =>
        session.handles.any fun entry => entry.2.dataset? == some kept.1 := rfl
    rw [left, lookup_filter session.memories (fun dataset =>
      session.handles.any fun entry => entry.2.dataset? == some dataset), if_pos keeps]

/-- What a session does leaves all handles, and a dataset in memory that is used. -/
structure Spares (shared : List UInt8) (session later : Session) : Prop where
  handles : later.handles = session.handles
  kept : session.IsUsed (.named .standard shared) →
    later.memories.lookup (.named .standard shared) =
      session.memories.lookup (.named .standard shared)

theorem Spares.trans (first : Spares shared session later) (second : Spares shared later last) :
    Spares shared session last where
  handles := second.handles.trans first.handles
  kept used := by
    have usedLater : later.IsUsed (.named .standard shared) := by
      unfold IsUsed
      rwa [first.handles]
    exact (second.kept usedLater).trans (first.kept used)

/-- Nothing but the memories and the handles matters to a dataset in memory. -/
theorem spares_of_same (handles : later.handles = session.handles)
    (memories : later.memories = session.memories) : Spares shared session later where
  handles := handles
  kept _ := by rw [memories]

theorem Spares.refl (session : Session) : Spares shared session session :=
  spares_of_same rfl rfl

theorem spares_leave (session : Session) (connection : Connection) :
    Spares shared session (session.leave connection) where
  handles := handles_leave session connection
  kept used := lookup_leave used connection

theorem spares_saveMemory (session : Session) {dataset : Dataset}
    (other : dataset ≠ .named .standard shared) (db : Database) :
    Spares shared session (session.saveMemory dataset db) where
  handles := rfl
  kept _ := by
    unfold saveMemory
    simp only
    rw [lookup_put, if_neg other.symm]

theorem lookup_saveMemory (session : Session) (dataset : Dataset) (db : Database) :
    (session.saveMemory dataset db).memories.lookup dataset = some db := by
  unfold saveMemory
  simp only
  rw [lookup_put, if_pos rfl]

theorem spares_save (session : Session) {connection : Connection}
    (other : connection.dataset ≠ .named .standard shared) (before now : Database) :
    Spares shared session (session.save connection before now) := by
  unfold save
  split
  · split
    · exact .refl session
    · unfold saveFile
      split <;> exact spares_of_same rfl rfl
  · exact spares_saveMemory session other now

theorem spares_setup (session : Session) {connection : Connection}
    (other : connection.dataset ≠ .named .standard shared) :
    Spares shared session (session.setup connection).session := by
  unfold setup
  split
  · exact .refl session
  · exact spares_save session other _ _

theorem spares_settle (session : Session) {connection : Connection}
    (other : connection.dataset ≠ .named .standard shared) :
    Spares shared session (session.settle connection).session := by
  unfold settle
  simp only
  split
  · exact spares_setup session other
  · exact (spares_setup session other).trans (spares_leave _ _)

theorem spares_enter {way : Sidecar.Entering Unit} {place : Place} {request : Request}
    {result : Except Relational.Fault Connection}
    (entered : session.enter way place request = (later, result)) :
    Spares shared session later := by
  have opened : Spares shared session { session with
      files := (Sidecar.opened way session.files request (session.usesLog place)).2.files } :=
    spares_of_same rfl rfl
  unfold enter at entered
  simp only at entered
  split at entered
  · cases entered
    exact opened
  · cases entered
    exact opened.trans (spares_leave _ _)

theorem spares_provideFile {path : String} {place : Place} {request : Request}
    (provided : session.provideFile path place request = .ok later) :
    Spares shared session later := by
  rcases provideFile_eq_ok provided with ⟨rfl, -⟩ | ⟨rfl, -⟩
  · exact .refl _
  · exact spares_of_same rfl rfl

/-! ## Opening other datasets -/

/-- Opening spares a dataset in memory, and does not lead to it. -/
structure Clear (shared : List UInt8) (session : Session) (step : Step Connection) : Prop where
  spares : Spares shared session step.session
  other : ∀ connection, step.result = .ok connection → connection.dataset ≠ .named .standard shared

theorem Clear.after {step : Step Connection} (clear : Clear shared later step)
    (spares : Spares shared session later) : Clear shared session step where
  spares := spares.trans clear.spares
  other := clear.other

/-- Nothing is opened. -/
theorem clear_of_error {step : Step Connection} {error : Error}
    (spares : Spares shared session step.session) (failed : step.result = .error error) :
    Clear shared session step where
  spares := spares
  other connection opened := by
    rw [failed] at opened
    cases opened

theorem clear_settle (session : Session) {connection : Connection}
    (other : connection.dataset ≠ .named .standard shared) :
    Clear shared session (session.settle connection) where
  spares := spares_settle session other
  other opened done := by rwa [result_settle done]

theorem clear_connectFile (session : Session) (activity path : String) (name : List UInt8)
    (request : Request) : Clear shared session (session.connectFile activity path name request) := by
  have file (place : Place) : Dataset.file place ≠ .named .standard shared := nofun
  unfold connectFile
  simp only
  cases session.files.fullPlace? name with
  | none => exact clear_of_error (.refl session) rfl
  | some place =>
      simp only
      cases session.joinedAccess? (.file place) request with
      | some access => exact clear_settle session (file place)
      | none =>
          simp only
          cases provided : session.provideFile path place request with
          | error fault => exact clear_of_error (.refl session) rfl
          | ok ready =>
              simp only
              rcases entered : ready.enter (Sidecar.reachLogged place request) place request with
                ⟨inside, fault | connection⟩
              · exact clear_of_error ((spares_provideFile provided).trans (spares_enter entered)) rfl
              · have other := file place
                rw [← dataset_enter entered] at other
                exact (clear_settle inside other).after
                  ((spares_provideFile provided).trans (spares_enter entered))

/-- A target that does not share data under the name leads elsewhere. -/
theorem clear_connectTarget (activity path : String) {target : Target}
    (apart : target.sharedName? ≠ some shared) :
    Clear shared session (session.connectTarget activity path target) := by
  cases target with
  | own readOnly =>
      have spares : Spares shared session session.newMemory.1 := spares_of_same rfl rfl
      exact (clear_settle session.newMemory.1 Dataset.noConfusion).after spares
  | memory name request =>
      refine clear_settle session fun same => apart ?_
      obtain ⟨standard, rfl⟩ := Dataset.named.inj same
      exact if_pos standard
  | file name request => exact clear_connectFile session activity path name request

theorem clear_connectBy {path : String} (apart : sharedName? path ≠ some shared)
    (activity : String) : Clear shared session (session.connectBy activity path) := by
  unfold connectBy
  unfold sharedName? at apart
  cases noNul : Host.Path.nulByte? path with
  | some byte => exact clear_of_error (.refl session) rfl
  | none =>
      cases asked : Target.ofPath path with
      | error fault => exact clear_of_error (.refl session) rfl
      | ok target =>
          rw [noNul, asked] at apart
          exact clear_connectTarget activity path apart

theorem clear_connect {origin : Origin} (apart : sharedName? origin.locator ≠ some shared) :
    Clear shared session (session.connect origin) := by
  obtain ⟨activity, connects⟩ := session.exists_connect_eq origin
  rw [connects]
  exact clear_connectBy apart activity

/-- A path is opened after the directories before it have been made, unless that fails. -/
theorem openPath_cases (session : Session) (shared : List UInt8) (path : String) :
    ∃ ready, Spares shared session ready ∧
      (session.openPath path = ready.connectPath path ∨
        ∃ error, session.openPath path = ⟨ready, [], .error error⟩) := by
  unfold openPath
  split
  · exact ⟨session, .refl session, .inl rfl⟩
  · rename_i parent _
    rcases session.files.makeDirectories parent with ⟨files, fault | ⟨⟩⟩
    · exact ⟨{ session with files }, spares_of_same rfl rfl, .inr ⟨_, rfl⟩⟩
    · exact ⟨{ session with files }, spares_of_same rfl rfl, .inl rfl⟩

theorem clear_openPath {path : String} (apart : sharedName? path ≠ some shared) :
    Clear shared session (session.openPath path) := by
  obtain ⟨ready, spares, opens | ⟨error, failed⟩⟩ := session.openPath_cases shared path
  · rw [opens]
    exact (clear_connectBy apart _).after spares
  · rw [failed]
    exact clear_of_error spares rfl

/-! ## Operations through other handles -/

theorem spares_perform (session : Session) {handle : Handle}
    (other : handle.dataset? ≠ some (.named .standard shared)) (operation : Store.Operation) :
    Spares shared session (session.perform handle operation).session := by
  cases handle with
  | discarding => exact .refl session
  | on connection origin =>
      have apart : connection.dataset ≠ .named .standard shared :=
        fun same => other (congrArg some same)
      unfold perform
      simp only
      split
      · exact .refl session
      · exact spares_save session apart _ _

theorem spares_publishDue (session : Session) {handle : Handle}
    (other : handle.dataset? ≠ some (.named .standard shared)) :
    Spares shared session (session.publishDue handle).session :=
  publishDue_preserves .refl .trans (fun session => spares_perform session other) session

theorem spares_alterOnce (session : Session) {connection : Connection}
    (other : connection.dataset ≠ .named .standard shared)
    (change : Database → Except Relational.Fault Database) :
    Spares shared session (session.alterOnce connection change).session := by
  unfold alterOnce
  split
  · exact spares_leave _ _
  · split
    · exact spares_leave _ _
    · exact spares_leave _ _
    · exact (spares_save session other _ _).trans (spares_leave _ _)

theorem spares_build (session : Session) (path : String) (earlier : Schema.Earlier) :
    Spares shared session (session.build path earlier).session := by
  unfold build
  simp only
  generalize shape : ({ session with files := _ } : Session) = ready
  have spares : Spares shared session ready := by
    rw [← shape]
    exact spares_of_same rfl rfl
  split
  · exact spares
  · rename_i name request _
    split
    · exact spares
    · rename_i place _
      split
      · exact spares
      · rename_i provided
        have spares := spares.trans (spares_provideFile provided)
        split
        · rename_i entered
          exact spares.trans (spares_enter entered)
        · rename_i connection entered
          have other : connection.dataset ≠ .named .standard shared := by
            rw [dataset_enter entered]
            nofun
          exact (spares.trans (spares_enter entered)).trans (spares_alterOnce _ other _)
  · exact spares

end MessageStore.Session
