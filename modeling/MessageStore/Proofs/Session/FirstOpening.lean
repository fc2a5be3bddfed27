import MessageStore.Proofs.Session.Reopening

/-!
# Opening a file for the first time

The first handle on a file makes the directory and the file if they are missing,
lets the database say that it is logged, and brings it to the current schema.
What it leaves can be opened again and again.
-/

namespace MessageStore.Session

open Host (FileTree Place)
open Host.FileTree
open Relational (Database)
open Schema (Standing currentVersion)
open Sidecar (Stored)

variable {session : Session} {path : String} {place : Place} {db : Database}

/-! ## Openings that succeed -/

/-- The directories before a path are made, and then it is opened. -/
theorem openPath_eq_ok {connection : Connection}
    (done : (session.openPath path).result = .ok connection) :
    ∃ files, session.openPath path = ({ session with files } : Session).connectPath path ∧
      ((Host.Path.parent? path).filter (· ≠ "") = none ∧ files = session.files ∨
        ∃ parent, (Host.Path.parent? path).filter (· ≠ "") = some parent ∧
          session.files.makeDirectories parent = (files, .ok ())) := by
  unfold openPath at done ⊢
  split at done
  · rename_i none
    exact ⟨session.files, rfl, .inl ⟨none, rfl⟩⟩
  · rename_i parent found
    rcases made : session.files.makeDirectories parent with ⟨files, fault | ⟨⟩⟩
    · rw [made] at done
      cases done
    · exact ⟨files, rfl, .inr ⟨parent, found, made⟩⟩

/-- A path that names a file is opened in its place, and what is there is set up. -/
theorem connectPath_eq_ok {connection : Connection}
    (target : Target.ofPath path = .ok (.file (Text.encode path) {}))
    (done : (session.connectPath path).result = .ok connection) :
    Host.Path.nulByte? path = none ∧ ∃ place ready inside,
      session.files.fullPlace? (Text.encode path) = some place ∧
        session.provideFile path place {} = .ok ready ∧
        ready.enter (Sidecar.reachLogged place {}) place {} = (inside, .ok connection) ∧
        session.connectPath path = inside.settle connection := by
  cases noNul : Host.Path.nulByte? path with
  | some byte =>
      unfold connectPath connectBy at done
      rw [noNul] at done
      cases done
  | none =>
      refine ⟨rfl, ?_⟩
      have apart (place : Place) : session.joinedAccess? (.file place) {} = none := rfl
      rw [connectPath_of_target target noNul, connectFile] at done
      cases full : session.files.fullPlace? (Text.encode path) with
      | none =>
          simp only [full] at done
          cases done
      | some place =>
          cases provided : session.provideFile path place {} with
          | error fault =>
              simp only [full, apart, provided] at done
              cases done
          | ok ready =>
              rcases entered : ready.enter (Sidecar.reachLogged place {}) place {} with
                ⟨inside, fault | opened⟩
              · simp only [full, apart, provided, entered] at done
                cases done
              · simp only [full, apart, provided, entered] at done
                obtain rfl := result_settle done
                exact ⟨place, ready, inside, rfl, provided, entered,
                  connectPath_of_entered target noNul full provided entered⟩

/-- What is opened can be set up. -/
theorem setup_ok_of_settle {connection opened : Connection}
    (loaded : session.load connection = .ok db) (free : session.barrier? connection = none)
    (done : (session.settle connection).result = .ok opened) :
    (Schema.setup db).outcome = .ok () := by
  have ran : (session.setup connection).result =
      during "Failed to set up cache database schema"
        ((Schema.setup db).outcome.map fun () => connection) := by
    unfold setup
    rw [loaded]
    simp only [free]
    rfl
  unfold settle at done
  simp only at done
  cases outcome : (Schema.setup db).outcome with
  | ok value => rfl
  | error error =>
      rw [outcome] at ran
      rw [ran] at done
      cases done

/-! ## Files that nobody uses -/

/-- No handle is on a file, and nothing but a database, or nothing at all, is where a path may lead:
a database that was left by its last user, or by an earlier version.  The path names a file as it
stands, which the empty path, `:memory:` and what begins with `file:` do not. -/
structure Unopened (session : Session) (path : String) (place : Place) (db : Database) : Prop where
  target : Target.ofPath path = .ok (.file (Text.encode path) {})
  working : session.files.isDirectory session.files.working = true
  handles : ∀ entry ∈ session.handles, (∀ other, entry.2.dataset? ≠ some (.file other)) ∧
    ∀ other, entry.2.origin? ≠ some (.path other)
  holds : session.files.node? place = none ∧ db = .empty ∨
    ∃ logged, Sidecar.databaseIn session.files place = .ok (db, logged)
  versions : Schema.PlainVersions db
  journal : session.files.node? (Sidecar.journalOf place) = none
  log : session.files.node? (Sidecar.logOf place) = none

theorem Unopened.staffed (unopened : session.Unopened path place db) :
    session.Staffed path place [] where
  manned name := by
    refine iff_of_false List.not_mem_nil fun on => ?_
    obtain ⟨handle, found, on⟩ := Option.bind_eq_some_iff.mp on
    exact (unopened.handles _ (mem_of_handle? found)).1 place on
  own entry member other on := absurd on ((unopened.handles entry member).1 other)
  origins entry member other known := absurd known ((unopened.handles entry member).2 other)

/-- Where nothing is, there is no data. -/
theorem Unopened.eq_empty (unopened : session.Unopened path place db)
    (absent : session.files.node? place = none) : db = .empty := by
  rcases unopened.holds with ⟨-, empty⟩ | ⟨logged, holds⟩
  · exact empty
  · unfold Sidecar.databaseIn at holds
    rw [absent] at holds
    cases holds

/-- The directories before the path are made, and nothing that matters to the file changes. -/
theorem Unopened.made (unopened : session.Unopened path place db) {files : FileTree}
    (made : (Host.Path.parent? path).filter (· ≠ "") = none ∧ files = session.files ∨
      ∃ parent, (Host.Path.parent? path).filter (· ≠ "") = some parent ∧
        session.files.makeDirectories parent = (files, .ok ()))
    (full : files.fullPlace? (Text.encode path) = some place) :
    Leads files path place ∧ OnlyPaved session.files files := by
  have begins : session.files.isDirectory (session.files.start path) = true := by
    unfold FileTree.start
    split
    · rfl
    · exact unopened.working
  rcases made with ⟨none, rfl⟩ | ⟨parent, found, made⟩
  · exact ⟨leads_of_no_parent none begins full, .refl _⟩
  · have paved := onlyPaved_makeDirectories session.files parent
    rw [made] at paved
    exact ⟨(leads_of_makeDirectories found made begins full).2, paved⟩

/-- The file is provided with what it held, or empty. -/
theorem Unopened.provided (unopened : session.Unopened path place db) {files : FileTree}
    (leads : Leads files path place) (paved : OnlyPaved session.files files) {ready : Session}
    (provided : ({ session with files } : Session).provideFile path place {} = .ok ready) :
    ready.handles = session.handles ∧ Leads ready.files path place ∧
      (∃ logged, Sidecar.databaseIn ready.files place = .ok (db, logged)) ∧
      ready.files.isFile (Sidecar.logOf place) = false ∧
      ready.files.isFile (Sidecar.journalOf place) = false := by
  have solid := ne_nil_of_fullPlace? leads.full
  rcases provideFile_eq_ok provided with ⟨rfl, node, found, noDirectory⟩ | ⟨rfl, absent, -⟩
  · refine ⟨rfl, leads, ?_, paved.isFile unopened.log, paved.isFile unopened.journal⟩
    have same := paved.node? (by rw [found]; simpa using noDirectory)
    rcases unopened.holds with ⟨absent, -⟩ | ⟨logged, holds⟩
    · cases (found.symm.trans same).trans absent
    · refine ⟨logged, ?_⟩
      rw [← holds]
      unfold Sidecar.databaseIn
      rw [same]
  · have put := node?_put files solid (.bytes [])
    have elsewhere {asked : Place} (apart : asked ≠ place)
        (absent : session.files.node? asked = none) :
        (files.put place (.bytes [])).isFile asked = false := by
      unfold isFile
      rw [put, if_neg apart]
      exact paved.isFile absent
    have same := paved.node? (by rw [absent]; simp)
    rw [unopened.eq_empty (same.symm.trans absent)]
    refine ⟨rfl, leads.keeps (keeps_put solid (by simp [isDirectory, absent]) _), ⟨false, ?_⟩,
      elsewhere (Sidecar.logOf_ne_self solid) unopened.log,
      elsewhere (Sidecar.journalOf_ne_self solid) unopened.journal⟩
    unfold Sidecar.databaseIn
    simp only
    rw [put, if_pos rfl]
    rfl

/-- A file that is entered for the first time and can be written is stored from then on. -/
theorem stored_of_entered {ready inside : Session} {connection : Connection} {logged : Bool}
    (solid : place ≠ []) (unused : ready.usesLog place = false)
    (holds : Sidecar.databaseIn ready.files place = .ok (db, logged))
    (noLog : ready.files.isFile (Sidecar.logOf place) = false)
    (noJournal : ready.files.isFile (Sidecar.journalOf place) = false)
    (entered : ready.enter (Sidecar.reachLogged place {}) place {} = (inside, .ok connection))
    (writes : connection.access.readOnly = false) :
    connection = inFile place ∧ Stored inside.files place db true ∧
      Keeps ready.files inside.files ∧ inside.handles = ready.handles := by
  unfold enter at entered
  rw [unused] at entered
  rcases opened : Sidecar.opened (Sidecar.reachLogged place {}) ready.files {} false with
    ⟨fault | ⟨⟩, entry⟩
  · rw [opened] at entered
    cases entered
  · rw [opened] at entered
    cases entered
    obtain ⟨access, stored, keeps⟩ :=
      Sidecar.stored_of_opened solid holds noLog noJournal opened writes
    exact ⟨by rw [access]; rfl, stored, keeps, rfl⟩

/-- The first handle on a file that can be written brings what is in it to the current schema. -/
theorem Unopened.serves (unopened : session.Unopened path place db) {command : Command}
    {name : String} {access : Access} {origin : Option Origin}
    (opens : command = .openFile name path ∨
      ∃ bits, command = .openConfigured name (.file path) bits)
    (done : (session.execute command).reply = .ok .done)
    (on : (session.execute command).session.handle? name =
      some (.on ⟨.file place, access⟩ origin))
    (writes : access.readOnly = false) :
    (session.execute command).session.Serves path place [name] (Schema.setup db).db := by
  obtain ⟨given, own, opens⟩ : ∃ origin : Option Origin,
      (∀ given, origin = some given → given = .path path) ∧
        session.Opens command name origin (session.openPath path) := by
    rcases opens with rfl | ⟨bits, rfl⟩
    · exact ⟨_, fun given same => (Option.some.inj same).symm, .file name path⟩
    · exact ⟨none, by simp, .configuredFile name path bits⟩
  rcases opens.cases (.path path) [] with
    ⟨error, -, -, replied, -⟩ | ⟨connection, opened, left, -, -⟩
  · rw [replied] at done
    cases done
  · rw [left, handle?_attach, if_pos rfl] at on
    cases on
    obtain ⟨files, shape, made⟩ := openPath_eq_ok opened
    rw [shape] at opened left
    obtain ⟨noNul, there, ready, inside, full, provided, entered, settles⟩ :=
      connectPath_eq_ok unopened.target opened
    cases dataset_enter entered
    -- From here on the session goes through making directories, providing the file, entering it and
    -- setting it up; each leaves what the next one needs.
    rw [settles] at opened left
    obtain ⟨leads, nodes⟩ := unopened.made made full
    obtain ⟨handles, leads, ⟨logged, holds⟩, noLog, noJournal⟩ :=
      unopened.provided leads nodes provided
    have staffed := unopened.staffed.of_handles handles
    obtain ⟨⟨⟩, stored, keeps, same⟩ := stored_of_entered (ne_nil_of_fullPlace? full)
      staffed.usesLog holds noLog noJournal entered writes
    have loaded := load_inFile stored
    have succeeded := setup_ok_of_settle loaded rfl opened
    have settled := settle_of_loaded loaded rfl succeeded
    rw [inFile] at settled
    rw [settled] at left
    obtain ⟨later, keepsLater⟩ := stored_save stored (Schema.setup db).db
    rw [left]
    exact serves_attach unopened.target noNul ((leads.keeps keeps).keeps keepsLater)
      (staffed.of_handles ((handles_save _ _ _ _).trans same)) later
      (Schema.standing_of_setup_ok unopened.versions succeeded) name own

end MessageStore.Session
