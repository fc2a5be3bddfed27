import MessageStore.Proofs.Session.Spares
import MessageStore.Proofs.Store.Standing

/-!
# Datasets in memory

A dataset in memory is kept under its name while a handle is on it, and only
operations through its handles change it: whatever else a session does spares it.
What leads to its name while it is used joins its handles, and sets it up once
more, which does nothing to a current database.
-/

namespace MessageStore.Session

open Relational (Database)
open Schema (Standing currentVersion)

variable {session later : Session} {shared : List UInt8}

/-! ## A dataset in memory -/

/-- How a handle is on data in memory that is shared under a name. -/
def underName (shared : List UInt8) : Connection :=
  ⟨.named .standard shared, { shared := true }⟩

/-- The handles with the given names, and no others, are on the dataset in memory that is shared
under a name, and while there are any, it holds the given data. -/
structure Remembers (session : Session) (shared : List UInt8) (team : List String)
    (db : Database) : Prop where
  manned : session.Manned (.named .standard shared) team
  /-- A handle on the dataset is copied onto it, if at all. -/
  own : ∀ entry ∈ session.handles, entry.2.dataset? = some (.named .standard shared) →
    entry.2.connection? = some (underName shared) ∧
      ∀ origin, entry.2.origin? = some origin → sharedName? origin.locator = some shared
  /-- Only handles on the dataset are copied onto it. -/
  origins : ∀ entry ∈ session.handles, ∀ origin, entry.2.origin? = some origin →
    sharedName? origin.locator = some shared → entry.2.dataset? = some (.named .standard shared)
  kept : session.IsUsed (.named .standard shared) →
    session.memories.lookup (.named .standard shared) = some db
  standing : Standing currentVersion db

variable {team : List String} {db : Database}

theorem Remembers.spares (remembers : session.Remembers shared team db)
    (spares : Spares shared session later) : later.Remembers shared team db where
  manned := remembers.manned.of_handles spares.handles
  own := by
    rw [spares.handles]
    exact remembers.own
  origins := by
    rw [spares.handles]
    exact remembers.origins
  kept used := by
    unfold IsUsed at used
    rw [spares.handles] at used
    exact (spares.kept used).trans (remembers.kept used)
  standing := remembers.standing

theorem spares_attach (session : Session) (name : String) (handle : Handle) :
    Spares shared
      { session with
        handles := (name, handle) :: session.handles.filter fun entry => entry.1 ≠ name }
      (session.attach name handle) := by
  unfold attach
  simp only
  split
  · exact spares_leave _ _
  · exact .refl _

theorem spares_close (session : Session) (name : String) :
    Spares shared { session with handles := session.handles.filter fun entry => entry.1 ≠ name }
      (session.close name) := by
  unfold close
  simp only
  split
  · exact spares_leave _ _
  · exact .refl _

/-- Closing a handle. -/
theorem Remembers.close (remembers : session.Remembers shared team db) (name : String) :
    (session.close name).Remembers shared (team.filter (· ≠ name)) db := by
  have spares : Spares shared _ (session.close name) := spares_close session name
  refine ⟨remembers.manned.close name, ?_, ?_, ?_, remembers.standing⟩
  · intro entry member
    rw [handles_close] at member
    exact remembers.own entry (List.mem_filter.mp member).1
  · intro entry member
    rw [handles_close] at member
    exact remembers.origins entry (List.mem_filter.mp member).1
  · rintro ⟨entry, member, on⟩
    rw [handles_close] at member
    exact (spares.kept ⟨entry, member, on⟩).trans
      (remembers.kept ⟨entry, (List.mem_filter.mp member).1, on⟩)

/-- Putting a handle on something else under a name. -/
theorem Remembers.attach_other (remembers : session.Remembers shared team db) (name : String)
    {handle : Handle} (off : handle.dataset? ≠ some (.named .standard shared))
    (apart : ∀ origin, handle.origin? = some origin → sharedName? origin.locator ≠ some shared) :
    (session.attach name handle).Remembers shared (team.filter (· ≠ name)) db := by
  have spares : Spares shared _ (session.attach name handle) := spares_attach session name handle
  refine ⟨remembers.manned.attach_other name off, ?_, ?_, ?_, remembers.standing⟩
  · intro entry member on
    rw [handles_attach] at member
    rcases List.mem_cons.mp member with rfl | member
    · exact absurd on off
    · exact remembers.own entry (List.mem_filter.mp member).1 on
  · intro entry member
    rw [handles_attach] at member
    rcases List.mem_cons.mp member with rfl | member
    · exact fun origin known leads => absurd leads (apart origin known)
    · exact remembers.origins entry (List.mem_filter.mp member).1
  · rintro ⟨entry, member, on⟩
    rw [handles_attach] at member
    have used := spares.kept ⟨entry, member, on⟩
    rcases List.mem_cons.mp member with rfl | member
    · exact absurd on off
    · exact used.trans (remembers.kept ⟨entry, (List.mem_filter.mp member).1, on⟩)

/-- Putting a further handle on the dataset. -/
theorem Remembers.attach (remembers : session.Remembers shared team db) (name : String)
    (holds : session.memories.lookup (.named .standard shared) = some db) {origin : Option Origin}
    (own : ∀ given, origin = some given → sharedName? given.locator = some shared) :
    (session.attach name (.on (underName shared) origin)).Remembers shared (name :: team) db := by
  have spares : Spares shared _ (session.attach name (.on (underName shared) origin)) :=
    spares_attach session name _
  refine ⟨remembers.manned.attach name rfl, ?_, ?_, ?_, remembers.standing⟩
  · intro entry member on
    rw [handles_attach] at member
    rcases List.mem_cons.mp member with rfl | member
    · exact ⟨rfl, own⟩
    · exact remembers.own entry (List.mem_filter.mp member).1 on
  · intro entry member
    rw [handles_attach] at member
    rcases List.mem_cons.mp member with rfl | member
    · exact fun _ _ _ => rfl
    · exact remembers.origins entry (List.mem_filter.mp member).1
  · rintro ⟨entry, member, on⟩
    rw [handles_attach] at member
    exact (spares.kept ⟨entry, member, on⟩).trans holds

/-- Keeping other data in the dataset. -/
theorem Remembers.save (remembers : session.Remembers shared team db) {after : Database}
    (standing : Standing currentVersion after) :
    (session.saveMemory (.named .standard shared) after).Remembers shared team after where
  manned := remembers.manned
  own := remembers.own
  origins := remembers.origins
  kept _ := lookup_saveMemory session _ after
  standing := standing

/-- Carrying out an operation through a handle on the dataset. -/
theorem Remembers.perform (remembers : session.Remembers shared team db) {name : String}
    {handle : Handle} (found : session.handle? name = some handle) (member : name ∈ team)
    (operation : Store.Operation) :
    (session.perform handle operation).session.Remembers shared team
        (Store.perform session.clock db operation).db ∧
      (session.perform handle operation).result =
        (Store.perform session.clock db operation).answer := by
  have on : handle.dataset? = some (.named .standard shared) := by
    have manned := (remembers.manned name).mp member
    rwa [found] at manned
  have holds := remembers.kept ⟨_, mem_of_handle? found, on⟩
  have own := remembers.own _ (mem_of_handle? found) on
  cases handle with
  | discarding => cases on
  | on connection origin =>
      obtain rfl : connection = _ := Option.some.inj own.1
      have loaded : session.load (underName shared) = .ok db := by
        simp [load, underName, holds]
      rw [perform_of_loaded loaded rfl]
      exact ⟨remembers.save (Store.standing_perform remembers.standing _ _), rfl⟩

/-! ## Joining the handles on the dataset -/

section Joining

variable (remembers : session.Remembers shared team db) (used : team ≠ [])
include remembers used

/-- A handle on the dataset is there. -/
theorem Remembers.exists_handle :
    ∃ entry ∈ session.handles, entry.2.dataset? = some (.named .standard shared) := by
  obtain ⟨name, rest, rfl⟩ := List.exists_cons_of_ne_nil used
  obtain ⟨handle, found, on⟩ :=
    Option.bind_eq_some_iff.mp ((remembers.manned name).mp List.mem_cons_self)
  exact ⟨_, mem_of_handle? found, on⟩

/-- The handles on the dataset all share it in one way. -/
theorem Remembers.sharedAccess? :
    session.sharedAccess? (.named .standard shared) .standard = some (underName shared).access := by
  obtain ⟨entry, member, on⟩ := remembers.exists_handle used
  have connected := (remembers.own entry member on).1
  unfold Session.sharedAccess?
  cases found : session.handles.findSome? _ with
  | none =>
      have missed := List.findSome?_eq_none_iff.mp found entry member
      simp [connected, underName] at missed
  | some access =>
      obtain ⟨other, inside, hit⟩ := List.exists_of_findSome?_eq_some found
      obtain ⟨connection, matched, rfl⟩ := Option.map_eq_some_iff.mp hit
      obtain ⟨connected, alike⟩ := Option.filter_eq_some_iff.mp matched
      have dataset : other.2.dataset? = some (.named .standard shared) := by
        unfold Handle.dataset?
        rw [connected]
        simp_all
      have same := (remembers.own other inside dataset).1
      obtain rfl := Option.some.inj (connected.symm.trans same)
      rfl

/-- A path or a locator that leads to the name joins the handles on the dataset. -/
theorem Remembers.connectBy {path : String} (leads : sharedName? path = some shared)
    (activity : String) :
    session.connectBy activity path = session.settle (underName shared) := by
  obtain ⟨readOnly, connects⟩ := connectBy_of_shared session leads activity
  rw [connects, remembers.sharedAccess? used]
  rfl

theorem Remembers.connect {given : Origin} (leads : sharedName? given.locator = some shared) :
    session.connect given = session.settle (underName shared) := by
  obtain ⟨activity, connects⟩ := session.exists_connect_eq given
  rw [connects]
  exact remembers.connectBy used leads activity

/-- The dataset is set up once more, which does nothing. -/
theorem Remembers.settle :
    session.settle (underName shared) =
      ⟨session.saveMemory (.named .standard shared) db, [], .ok (underName shared)⟩ := by
  have holds := remembers.kept (remembers.exists_handle used)
  have loaded : session.load (underName shared) = .ok db := by
    simp [load, underName, holds]
  exact settle_of_current loaded rfl remembers.standing

end Joining

/-- Opening joins the handles on a dataset in memory, unless it fails before. -/
inductive Joining (shared : List UInt8) (session : Session) : Step Connection → Prop
  | fails {step : Step Connection} (spares : Spares shared session step.session) {error : Error}
      (failed : step.result = .error error) : Joining shared session step
  | settles {ready : Session} (spares : Spares shared session ready) :
      Joining shared session (ready.settle (underName shared))

theorem Remembers.joining_connect (remembers : session.Remembers shared team db) {given : Origin}
    (used : team ≠ []) (leads : sharedName? given.locator = some shared) :
    Joining shared session (session.connect given) := by
  rw [remembers.connect used leads]
  exact .settles (.refl session)

theorem Remembers.joining_openPath (remembers : session.Remembers shared team db) {path : String}
    (used : team ≠ []) (leads : sharedName? path = some shared) :
    Joining shared session (session.openPath path) := by
  obtain ⟨ready, spares, opens | ⟨error, failed⟩⟩ := session.openPath_cases shared path
  · rw [opens, connectPath, (remembers.spares spares).connectBy used leads]
    exact .settles spares
  · rw [failed]
    exact .fails spares rfl

variable {origin : Origin}

/-- A command that joins the handles on the dataset becomes one of them, unless it fails. -/
theorem Remembers.open_joining (remembers : session.Remembers shared team db) (used : team ≠ [])
    {command : Command} {name : String} {given : Option Origin} {opening : Step Connection}
    (opens : session.Opens command name given opening)
    (own : ∀ origin, given = some origin → sharedName? origin.locator = some shared)
    (joins : command.joins origin team = true) (joining : Joining shared session opening) :
    (session.execute command).session.Remembers shared (session.teamAfter origin team command)
      db := by
  cases joining with
  | fails spares failed =>
      rcases opens.cases origin team with
        ⟨error, -, left, -, unchanged⟩ | ⟨connection, opened, -, -, -⟩
      · rw [left, unchanged]
        exact remembers.spares spares
      · cases opened.symm.trans failed
  | @settles ready spares =>
      have ready := remembers.spares spares
      rcases opens.cases origin team with
        ⟨error, failed, -, -, -⟩ | ⟨connection, opened, left, -, longer⟩
      · rw [ready.settle used] at failed
        cases failed
      · rw [ready.settle used] at opened left
        cases opened
        rw [left, longer, joins]
        exact (ready.save ready.standing).attach name (lookup_saveMemory _ _ _) own

/-- Opening something else. -/
theorem Remembers.open_other (remembers : session.Remembers shared team db) {command : Command}
    {name : String} {given : Option Origin} {opening : Step Connection}
    (opens : session.Opens command name given opening)
    (apart : ∀ origin, given = some origin → sharedName? origin.locator ≠ some shared)
    (elsewhere : command.joins origin team = false) (clear : Clear shared session opening) :
    (session.execute command).session.Remembers shared (session.teamAfter origin team command)
      db := by
  rcases opens.cases origin team with
    ⟨error, -, left, -, unchanged⟩ | ⟨connection, opened, left, -, filtered⟩
  · rw [left, unchanged]
    exact remembers.spares clear.spares
  · rw [left, filtered, elsewhere]
    refine (remembers.spares clear.spares).attach_other name ?_ apart
    exact fun on => clear.other connection opened (Option.some.inj on)

/-- A handle on the dataset that can be copied leads to it. -/
theorem Remembers.leads_of_member (remembers : session.Remembers shared team db) {name : String}
    {handle : Handle} {given : Origin} (member : name ∈ team)
    (found : session.handle? name = some handle) (known : handle.origin? = some given) :
    sharedName? given.locator = some shared := by
  have on := (remembers.manned name).mp member
  rw [found] at on
  exact (remembers.own _ (mem_of_handle? found) on).2 given known

/-- A handle on the dataset can be copied, if it has not been opened by a configuration. -/
theorem Remembers.reply_copy (remembers : session.Remembers shared team db) {name : String}
    {handle : Handle} {given : Origin} (member : name ∈ team)
    (found : session.handle? name = some handle) (known : handle.origin? = some given)
    (newName : String) : (session.execute (.copy name newName)).reply = .ok .done := by
  have used : team ≠ [] := List.ne_nil_of_mem member
  obtain ⟨-, replied⟩ := (Opens.copy found known newName).execute
  rw [remembers.connect used (remembers.leads_of_member member found known),
    remembers.settle used] at replied
  exact replied

/-- Copying a handle, which joins those on the dataset if it is one of them. -/
theorem Remembers.copy (remembers : session.Remembers shared team db) {name : String}
    {handle : Handle} {given : Origin} (found : session.handle? name = some handle)
    (known : handle.origin? = some given) (newName : String) :
    (session.execute (.copy name newName)).session.Remembers shared
      (session.teamAfter origin team (.copy name newName)) db := by
  have opens := Opens.copy found known newName
  by_cases member : name ∈ team
  · have used : team ≠ [] := List.ne_nil_of_mem member
    have same := remembers.leads_of_member member found known
    refine remembers.open_joining used opens ?_ (decide_eq_true member)
      (remembers.joining_connect used same)
    exact fun other copied => Option.some.inj copied ▸ same
  · have apart : sharedName? given.locator ≠ some shared := fun same =>
      member ((remembers.manned name).mpr (by
        rw [found]
        exact remembers.origins _ (mem_of_handle? found) given known same))
    refine remembers.open_other opens ?_ (decide_eq_false member) (clear_connect apart)
    exact fun other copied => Option.some.inj copied ▸ apart

/-- A command that opens nothing and replies leaves the team as it is. -/
theorem Remembers.idle (remembers : session.Remembers shared team db) {command : Command}
    (idle : command.teamAfter origin team = team)
    (spares : Spares shared session (session.execute command).session) :
    (session.execute command).session.Remembers shared (session.teamAfter origin team command)
      db := by
  rw [teamAfter_of_idle idle]
  exact remembers.spares spares

/-- A handle that does not belong to those on the dataset is on something else. -/
theorem Remembers.elsewhere (remembers : session.Remembers shared team db) {name : String}
    {handle : Handle} (found : session.handle? name = some handle) (outside : name ∉ team) :
    handle.dataset? ≠ some (.named .standard shared) := by
  intro on
  exact outside ((remembers.manned name).mpr (by rw [found]; exact on))

section Opening

variable (leads : sharedName? origin.locator = some shared)
include leads

/-- Opening a dataset in some way, whether that leads to this one or to another. -/
theorem Remembers.open_by (remembers : session.Remembers shared team db) {command : Command}
    {name : String} {given : Option Origin} {way : Origin} {opening : Step Connection}
    (opens : session.Opens command name given opening)
    (own : ∀ other, given = some other → other = way)
    (joins : command.joins origin team = origin.meets way)
    (alive : command.joins origin team = true → team ≠ [])
    (joining : team ≠ [] → sharedName? way.locator = some shared → Joining shared session opening)
    (clear : sharedName? way.locator ≠ some shared → Clear shared session opening) :
    (session.execute command).session.Remembers shared (session.teamAfter origin team command)
      db := by
  by_cases same : sharedName? way.locator = some shared
  · have met := joins.trans ((Origin.meets_of_shared leads).mpr same)
    refine remembers.open_joining (alive met) opens ?_ met (joining (alive met) same)
    exact fun other known => own other known ▸ same
  · have unmet : command.joins origin team = false := by
      rw [joins, Bool.eq_false_iff]
      exact fun meets => same ((Origin.meets_of_shared leads).mp meets)
    refine remembers.open_other opens ?_ unmet (clear same)
    exact fun other known => own other known ▸ same

/-- Opening a dataset, whether it is this one or another. -/
theorem Remembers.opens (remembers : session.Remembers shared team db) {command : Command}
    {name : String} {given : Option Origin} {opening : Step Connection}
    (opens : session.Opens command name given opening)
    (alive : command.joins origin team = true → team ≠ []) :
    (session.execute command).session.Remembers shared (session.teamAfter origin team command)
      db := by
  cases opens with
  | file name path =>
      exact remembers.open_by leads (.file name path) (fun _ same => (Option.some.inj same).symm)
        rfl alive remembers.joining_openPath clear_openPath
  | memory name bits =>
      exact remembers.open_by leads (.memory name bits) (fun _ same => (Option.some.inj same).symm)
        rfl alive remembers.joining_connect clear_connect
  | configuredFile name path bits =>
      exact remembers.open_by leads (.configuredFile name path bits) (by simp) rfl alive
        remembers.joining_openPath clear_openPath
  | configuredMemory name bits =>
      exact remembers.open_by leads (.configuredMemory name bits) (by simp) rfl alive
        remembers.joining_connect clear_connect
  | copy found known => exact remembers.copy found known _

/-- Whatever a session does with other commands than operations through handles on it, a dataset
in memory holds what it held, unless it is opened again after the last handle on it was closed. -/
theorem Remembers.execute_other (remembers : session.Remembers shared team db) (command : Command)
    (alive : command.joins origin team = true → team ≠ [])
    (other : ∀ name ∈ team, (∀ operation, command ≠ .perform name operation) ∧
      command ≠ .publishDue name) :
    (session.execute command).session.Remembers shared (session.teamAfter origin team command)
      db := by
  cases session.deed command with
  | stays idle handles memories =>
      exact remembers.idle (idle _ _) (spares_of_same handles memories)
  | fails left failed =>
      rw [left, teamAfter_of_failed failed]
      exact remembers
  | opens opens => exact remembers.opens leads opens alive
  | discards opened apart left done =>
      rw [left, teamAfter_of_opened done opened, apart]
      exact remembers.attach_other _ (by simp [Handle.dataset?, Handle.connection?])
        (by simp [Handle.origin?])
  | closes name => exact remembers.close name
  | @performs name handle found operation =>
      have outside : name ∉ team := fun member => (other name member).1 operation rfl
      refine remembers.idle rfl ?_
      rw [execute_perform found]
      exact spares_perform session (remembers.elsewhere found outside) operation
  | @publishes name handle found =>
      have outside : name ∉ team := fun member => (other name member).2 rfl
      refine remembers.idle rfl ?_
      rw [execute_publishDue found]
      exact spares_publishDue session (remembers.elsewhere found outside)
  | builds path earlier => exact remembers.idle rfl (spares_build session path earlier)

end Opening

/-! ## A new dataset in memory -/

theorem setup_empty : (Schema.setup .empty).outcome = .ok () := by
  rfl

/-- Nothing is in memory under a name, and no handle leads to it. -/
structure IsNew (session : Session) (shared : List UInt8) : Prop where
  handles : ∀ entry ∈ session.handles,
    entry.2.dataset? ≠ some (.named .standard shared) ∧
      ∀ origin, entry.2.origin? = some origin → sharedName? origin.locator ≠ some shared
  memories : session.memories.lookup (.named .standard shared) = none

theorem standing_fresh : Standing currentVersion Store.fresh :=
  Schema.standing_of_setup_ok (by intro table found; cases found) setup_empty

/-- A dataset in memory that nobody uses can be any current database. -/
theorem IsNew.remembers (new : session.IsNew shared) (standing : Standing currentVersion db) :
    session.Remembers shared [] db where
  manned name := by
    refine iff_of_false List.not_mem_nil fun on => ?_
    obtain ⟨handle, found, on⟩ := Option.bind_eq_some_iff.mp on
    exact (new.handles _ (mem_of_handle? found)).1 on
  own entry member on := absurd on (new.handles entry member).1
  origins entry member origin known leads :=
    absurd leads ((new.handles entry member).2 origin known)
  kept := fun ⟨entry, member, on⟩ => absurd on (new.handles entry member).1
  standing := standing

theorem IsNew.sharedAccess? (new : session.IsNew shared) :
    session.sharedAccess? (.named .standard shared) .standard = none := by
  refine List.findSome?_eq_none_iff.mpr fun entry member => ?_
  rw [Option.map_eq_none_iff, Option.filter_eq_none_iff]
  intro connection connected alike
  refine (new.handles entry member).1 ?_
  unfold Handle.dataset?
  rw [connected]
  simp_all

/-- A new dataset in memory is a new store. -/
theorem remembers_of_opened {bits : Nat}
    (new : session.IsNew (Text.encode (Target.nameOfBits bits))) {command : Command} {name : String}
    (opens : command = .openMemory name bits ∨ command = .openConfigured name .memory bits) :
    (session.execute command).session.Remembers (Text.encode (Target.nameOfBits bits)) [name]
      Store.fresh := by
  obtain ⟨origin, own, opens⟩ : ∃ origin : Option Origin,
      (∀ given, origin = some given → given = .memory bits) ∧
        session.Opens command name origin (session.connect (.memory bits)) := by
    rcases opens with rfl | rfl
    · exact ⟨_, fun given same => (Option.some.inj same).symm, .memory name bits⟩
    · exact ⟨none, by simp, .configuredMemory name bits⟩
  have loaded : session.load (underName (Text.encode (Target.nameOfBits bits))) = .ok .empty := by
    simp [load, underName, new.memories]
  have settled : session.connect (.memory bits) =
      ⟨session.saveMemory (.named .standard (Text.encode (Target.nameOfBits bits))) Store.fresh,
        (Schema.setup .empty).log,
        .ok (underName (Text.encode (Target.nameOfBits bits)))⟩ := by
    rw [connect_memory, new.sharedAccess?]
    exact settle_of_loaded loaded rfl setup_empty
  rw [opens.execute.1, settled]
  refine ((new.remembers standing_fresh).save standing_fresh).attach name
    (lookup_saveMemory _ _ _) fun given known => ?_
  rw [own given known, Origin.sharedName?_memory]

end MessageStore.Session
