import MessageStore.Proofs.Session.Deeds
import MessageStore.Proofs.Session.Sidecars
import MessageStore.Proofs.Store.Standing

/-!
# Datasets in files

A dataset in a file is there whether handles are on it or not.  Opening its path
again, in whatever way, leads to the same file with the same data, and the last
handle that is closed leaves all of it there.
-/

namespace MessageStore.Session

open Host (Place)
open Host.FileTree (Keeps Leads)
open Relational (Database)
open Schema (Standing currentVersion)
open Sidecar (Stored withLog)

variable {session later : Session} {path name : String} {place : Place} {team : List String}
  {db : Database}

/-! ## The handles on a file -/

/-- How a handle is on a file that it can write. -/
def inFile (place : Place) : Connection :=
  ⟨.file place, { journal := .logged }⟩

/-- The handles with the given names are on a file that has been opened by a path, and no other
handle is on a file or leads to one. -/
structure Staffed (session : Session) (path : String) (place : Place) (team : List String) :
    Prop where
  manned : session.Manned (.file place) team
  /-- A handle on a file has been opened by the path, and its name finds it. -/
  own : ∀ entry ∈ session.handles, ∀ other, entry.2.dataset? = some (.file other) →
    entry.2.connection? = some (inFile place) ∧
      (∀ origin, entry.2.origin? = some origin → origin = .path path) ∧
      session.handle? entry.1 = some entry.2
  origins : ∀ entry ∈ session.handles, ∀ other, entry.2.origin? = some (.path other) →
    entry.2.dataset? = some (.file place)

theorem Staffed.of_handles (staffed : session.Staffed path place team)
    (same : later.handles = session.handles) : later.Staffed path place team where
  manned := staffed.manned.of_handles same
  own := by
    unfold handle?
    rw [same]
    exact staffed.own
  origins := by
    rw [same]
    exact staffed.origins

/-- Somebody uses the log of the file if there is a handle on it. -/
theorem Staffed.usesLog (staffed : session.Staffed path place team) :
    session.usesLog place = !team.isEmpty := by
  rw [Bool.eq_iff_iff]
  unfold Session.usesLog
  rw [List.any_eq_true]
  constructor
  · rintro ⟨⟨name, handle⟩, member, uses⟩
    obtain ⟨connection, connected, on⟩ := Option.any_eq_true _ _ |>.mp uses
    have dataset : handle.dataset? = some (.file place) := by
      unfold Handle.dataset?
      rw [connected]
      simp_all
    have found := (staffed.own _ member place dataset).2.2
    have named : name ∈ team := (staffed.manned name).mpr (by rw [found]; exact dataset)
    cases team with
    | nil => cases named
    | cons first rest => rfl
  · intro nonempty
    cases team with
    | nil => cases nonempty
    | cons first rest =>
        obtain ⟨handle, found, on⟩ :=
          Option.bind_eq_some_iff.mp ((staffed.manned first).mp List.mem_cons_self)
        have member := mem_of_handle? found
        refine ⟨_, member, ?_⟩
        simp [(staffed.own _ member place on).1, inFile]

theorem Staffed.close (staffed : session.Staffed path place team) (name : String) :
    (session.close name).Staffed path place (team.filter (· ≠ name)) where
  manned := staffed.manned.close name
  own entry member other on := by
    rw [handles_close] at member
    obtain ⟨before, differs⟩ := List.mem_filter.mp member
    obtain ⟨connected, origins, found⟩ := staffed.own entry before other on
    refine ⟨connected, origins, ?_⟩
    rw [handle?_close, if_neg (by simpa using differs), found]
  origins entry member other known := by
    rw [handles_close] at member
    exact staffed.origins entry (List.mem_filter.mp member).1 other known

/-- A handle on a file that is attached is one of those on the file. -/
theorem Staffed.attach_any (staffed : session.Staffed path place team) (name : String)
    {handle : Handle} (own : ∀ other, handle.dataset? = some (.file other) →
      handle.connection? = some (inFile place) ∧
        ∀ origin, handle.origin? = some origin → origin = .path path)
    (origins : ∀ other, handle.origin? = some (.path other) → handle.dataset? = some (.file place))
    {later : List String} (manned : (session.attach name handle).Manned (.file place) later) :
    (session.attach name handle).Staffed path place later where
  manned := manned
  own entry member other on := by
    rw [handles_attach] at member
    rcases List.mem_cons.mp member with rfl | member
    · refine ⟨(own other on).1, (own other on).2, ?_⟩
      rw [handle?_attach, if_pos rfl]
    · obtain ⟨before, differs⟩ := List.mem_filter.mp member
      obtain ⟨connected, origins, found⟩ := staffed.own entry before other on
      refine ⟨connected, origins, ?_⟩
      rw [handle?_attach, if_neg (by simpa using differs), found]
  origins entry member other known := by
    rw [handles_attach] at member
    rcases List.mem_cons.mp member with rfl | member
    · exact origins other known
    · exact staffed.origins entry (List.mem_filter.mp member).1 other known

theorem Staffed.attach (staffed : session.Staffed path place team) (name : String)
    {origin : Option Origin} (own : ∀ given, origin = some given → given = .path path) :
    (session.attach name (.on (inFile place) origin)).Staffed path place (name :: team) := by
  refine staffed.attach_any name ?_ ?_ (staffed.manned.attach name rfl)
  · exact fun _ _ => ⟨rfl, own⟩
  · exact fun _ _ => rfl

theorem Staffed.attach_other (staffed : session.Staffed path place team) (name : String)
    {handle : Handle} (off : ∀ other, handle.dataset? ≠ some (.file other))
    (apart : ∀ other, handle.origin? ≠ some (.path other)) :
    (session.attach name handle).Staffed path place (team.filter (· ≠ name)) :=
  staffed.attach_any name (fun other on => absurd on (off other))
    (fun other known => absurd known (apart other)) (staffed.manned.attach_other name (off place))

/-! ## The data in the file -/

/-- The handles with the given names, and no others, are on a file that a path leads to, and the
file holds the given data. -/
structure Serves (session : Session) (path : String) (place : Place) (team : List String)
    (db : Database) : Prop where
  target : Target.ofPath path = .ok (.file (Text.encode path) {})
  noNul : Host.Path.nulByte? path = none
  leads : Leads session.files path place
  staffed : session.Staffed path place team
  stored : Stored session.files place db (!team.isEmpty)
  standing : Standing currentVersion db

/-- Nothing but the files and the handles matters to a dataset in a file. -/
theorem Serves.of_same (serves : session.Serves path place team db)
    (files : later.files = session.files) (handles : later.handles = session.handles) :
    later.Serves path place team db where
  target := serves.target
  noNul := serves.noNul
  leads := by
    rw [files]
    exact serves.leads
  staffed := serves.staffed.of_handles handles
  stored := by
    rw [files]
    exact serves.stored
  standing := serves.standing

/-- The data that a handle on the file shows. -/
theorem load_inFile (stored : Stored session.files place db true) :
    session.load (inFile place) = .ok db :=
  stored.loggedIn

/-- Data that is kept through a handle on the file. -/
theorem stored_save (stored : Stored session.files place db true) (now : Database) :
    Stored (session.save (inFile place) db now).files place now true ∧
      Keeps session.files (session.save (inFile place) db now).files := by
  unfold save inFile
  simp only
  split
  · rename_i same
    exact same ▸ ⟨stored, .refl _⟩
  · exact stored.writeLog now

/-- Carrying out an operation through a handle on the file. -/
theorem Serves.perform (serves : session.Serves path place team db) {name : String}
    {handle : Handle} (found : session.handle? name = some handle) (member : name ∈ team)
    (operation : Store.Operation) :
    (session.perform handle operation).session.Serves path place team
        (Store.perform session.clock db operation).db ∧
      (session.perform handle operation).result =
        (Store.perform session.clock db operation).answer := by
  have on : handle.dataset? = some (.file place) := by
    have manned := (serves.staffed.manned name).mp member
    rwa [found] at manned
  have used : (!team.isEmpty) = true := by
    cases team with
    | nil => cases member
    | cons first rest => rfl
  have stored := serves.stored
  rw [used] at stored
  have own := serves.staffed.own _ (mem_of_handle? found) place on
  cases handle with
  | discarding => cases on
  | on connection origin =>
      obtain rfl : connection = inFile place := Option.some.inj own.1
      rw [perform_of_loaded (load_inFile stored) rfl]
      obtain ⟨after, keeps⟩ := stored_save stored (Store.perform session.clock db operation).db
      refine ⟨⟨serves.target, serves.noNul, serves.leads.keeps keeps,
        serves.staffed.of_handles (handles_save _ _ _ _), ?_,
        Store.standing_perform serves.standing _ _⟩, rfl⟩
      rw [used]
      exact after

/-! ## What happens in memory -/

/-- What a session does leaves all handles and all files. -/
structure InMemory (session later : Session) : Prop where
  files : later.files = session.files
  handles : later.handles = session.handles

theorem InMemory.refl (session : Session) : InMemory session session :=
  ⟨rfl, rfl⟩

theorem InMemory.trans {last : Session} (first : InMemory session later)
    (second : InMemory later last) : InMemory session last :=
  ⟨second.files.trans first.files, second.handles.trans first.handles⟩

section Connections

variable {connection : Connection} (inMemory : ∀ place, connection.dataset ≠ .file place)
include inMemory

theorem inMemory_leave (session : Session) : InMemory session (session.leave connection) := by
  unfold leave
  split
  · rename_i place on _
    exact absurd on (inMemory place)
  · exact ⟨rfl, rfl⟩

theorem inMemory_save (session : Session) (before now : Database) :
    InMemory session (session.save connection before now) := by
  unfold save
  split
  · rename_i place on
    exact absurd on (inMemory place)
  · exact ⟨rfl, rfl⟩

theorem inMemory_settle (session : Session) :
    InMemory session (session.settle connection).session := by
  have setup : InMemory session (session.setup connection).session := by
    unfold Session.setup
    split
    · exact .refl session
    · exact inMemory_save inMemory session _ _
  unfold settle
  simp only
  split
  · exact setup
  · exact setup.trans (inMemory_leave inMemory _)

end Connections

section Operations

variable {handle : Handle} (inMemory : ∀ place, handle.dataset? ≠ some (.file place))
include inMemory

theorem inMemory_perform (session : Session) (operation : Store.Operation) :
    InMemory session (session.perform handle operation).session := by
  cases handle with
  | discarding => exact .refl session
  | on connection origin =>
      unfold Session.perform
      simp only
      split
      · exact .refl session
      · exact inMemory_save (fun place on => inMemory place (congrArg some on)) session _ _

theorem inMemory_publishDue (session : Session) :
    InMemory session (session.publishDue handle).session :=
  publishDue_preserves .refl .trans (inMemory_perform inMemory) session

end Operations

/-! ## Handles that come and go -/

theorem usesLog_of_handles (same : later.handles = session.handles) (place : Place) :
    later.usesLog place = session.usesLog place := by
  unfold Session.usesLog
  rw [same]

/-- Leaving the file brings all of the data into it, unless somebody else uses its log. -/
theorem stored_leave (stored : Stored session.files place db true) :
    Stored (session.leave (inFile place)).files place db (session.usesLog place) ∧
      Keeps session.files (session.leave (inFile place)).files := by
  unfold leave inFile
  simp only [Bool.false_or]
  cases used : session.usesLog place with
  | true => exact ⟨stored, .refl _⟩
  | false => exact stored.fold

/-- A handle that is let go is on the file, or the file does not matter to it. -/
theorem Staffed.connection_cases (staffed : session.Staffed path place team) (name : String) :
    (name ∈ team ∧ (session.handle? name).bind Handle.connection? = some (inFile place)) ∨
      (name ∉ team ∧ ∀ connection, (session.handle? name).bind Handle.connection? = some connection →
        ∀ other, connection.dataset ≠ .file other) := by
  by_cases member : name ∈ team
  · obtain ⟨handle, found, on⟩ := Option.bind_eq_some_iff.mp ((staffed.manned name).mp member)
    refine .inl ⟨member, ?_⟩
    rw [found]
    exact (staffed.own _ (mem_of_handle? found) place on).1
  · refine .inr ⟨member, fun connection connected other on => ?_⟩
    obtain ⟨handle, found, connected⟩ := Option.bind_eq_some_iff.mp connected
    have dataset : handle.dataset? = some (.file other) := by
      unfold Handle.dataset?
      rw [connected, Option.map_some, on]
    have own := (staffed.own _ (mem_of_handle? found) other dataset).1
    obtain rfl : connection = inFile place := Option.some.inj (connected.symm.trans own)
    refine member ((staffed.manned name).mpr ?_)
    rw [found]
    unfold Handle.dataset?
    simp [connected, inFile]

/-- When the handle of a name is let go, the file holds what it held. -/
theorem Serves.let_go (serves : session.Serves path place team db) {name : String}
    (rest : Session) (files : rest.files = session.files)
    (left : later = match (session.handle? name).bind Handle.connection? with
      | some connection => rest.leave connection
      | none => rest)
    (handles : later.handles = rest.handles)
    (staffed : later.Staffed path place (team.filter (· ≠ name))) :
    later.Serves path place (team.filter (· ≠ name)) db := by
  rcases serves.staffed.connection_cases name with ⟨member, connected⟩ | ⟨outside, elsewhere⟩
  · have stored := serves.stored
    have used : (!team.isEmpty) = true := by
      cases team with
      | nil => cases member
      | cons first rest => rfl
    rw [used, ← files] at stored
    -- Whether it was the last handle is told by those that remain.
    obtain ⟨after, keeps⟩ := stored_leave stored
    rw [connected] at left
    refine ⟨serves.target, serves.noNul, ?_, staffed, ?_, serves.standing⟩
    · rw [left]
      exact (files ▸ serves.leads).keeps keeps
    · rw [← staffed.usesLog, usesLog_of_handles handles, left]
      exact after
  · have untouched : later.files = session.files := by
      rw [left]
      cases connected : (session.handle? name).bind Handle.connection? with
      | none => exact files
      | some connection =>
          exact (inMemory_leave (elsewhere connection connected) rest).files.trans files
    have same : team.filter (· ≠ name) = team := by
      rw [List.filter_eq_self]
      intro other member
      have apart : other ≠ name := fun equal => outside (equal ▸ member)
      simpa using apart
    refine ⟨serves.target, serves.noNul, ?_, staffed, ?_, serves.standing⟩
    · rw [untouched]
      exact serves.leads
    · rw [same, untouched]
      exact serves.stored

theorem Serves.close (serves : session.Serves path place team db) (name : String) :
    (session.close name).Serves path place (team.filter (· ≠ name)) db := by
  exact serves.let_go
    { session with handles := session.handles.filter fun entry => entry.1 ≠ name } rfl rfl
    (handles_close session name) (serves.staffed.close name)

theorem Serves.attach_other (serves : session.Serves path place team db) (name : String)
    {handle : Handle} (off : ∀ other, handle.dataset? ≠ some (.file other))
    (apart : ∀ other, handle.origin? ≠ some (.path other)) :
    (session.attach name handle).Serves path place (team.filter (· ≠ name)) db := by
  exact serves.let_go
    { session with
      handles := (name, handle) :: session.handles.filter fun entry => entry.1 ≠ name } rfl rfl
    (handles_attach session name handle) (serves.staffed.attach_other name off apart)

/-- A file does not change when a further handle is put on it. -/
theorem Staffed.files_attach (staffed : session.Staffed path place team) (name : String)
    (origin : Option Origin) :
    (session.attach name (.on (inFile place) origin)).files = session.files := by
  unfold Session.attach
  simp only
  rcases staffed.connection_cases name with ⟨-, connected⟩ | ⟨-, elsewhere⟩
  · rw [connected]
    simp [leave, inFile, Session.usesLog, Handle.connection?]
  · split
    · rename_i connection connected
      exact (inMemory_leave (elsewhere connection connected) _).files
    · rfl

/-- A further handle on the file. -/
theorem serves_attach (target : Target.ofPath path = .ok (.file (Text.encode path) {}))
    (noNul : Host.Path.nulByte? path = none) (leads : Leads session.files path place)
    (staffed : session.Staffed path place team) (stored : Stored session.files place db true)
    (standing : Standing currentVersion db) (name : String) {origin : Option Origin}
    (own : ∀ given, origin = some given → given = .path path) :
    (session.attach name (.on (inFile place) origin)).Serves path place (name :: team) db := by
  have files := staffed.files_attach name origin
  refine ⟨target, noNul, ?_, staffed.attach name own, ?_, standing⟩
  · rw [files]
    exact leads
  · rw [files]
    exact stored

end MessageStore.Session
