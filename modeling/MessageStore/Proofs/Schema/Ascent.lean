import MessageStore.Proofs.Schema.Record

/-!
# Ascents

A database that is brought up to a version passes through every version between.
The version that is counted while it climbs is the version that it records: this
is so when the climb begins and after every step.  Therefore a climb that stops,
because it was to stop or because a step fails, can be taken up again where it
stopped, from nothing but the database that it left.
-/

namespace MessageStore.Schema

open Relational (Database Fault Statement sameName)

/-- The steps from a version up to another. -/
def stepsBetween (source target : Nat) : List Step :=
  steps.filter fun step => source ≤ step.source ∧ step.source < target

/-- The database after all steps from a version up to another, each of which has to succeed. -/
def ascend (source target : Nat) (db : Database) : Except Error Database :=
  (stepsBetween source target).foldlM (fun db step => step.apply none db) db

/-- A database with a table of messages and a plain record of a version, or no record for
version 0. -/
structure Standing (version : Nat) (db : Database) : Prop where
  messages : messageTable ∈ db.tables.map (·.name)
  plain : PlainVersions db
  stored : storedVersion db = .ok version

/-! ## One step -/

/-- The statements of a step, whatever the database needs. -/
def Body.statements : Body → List Statement
  | always statements => statements
  | unlessColumn _ _ statements => statements

theorem Body.statementsFor_eq (db : Database) (body : Body) :
    body.statementsFor db = body.statements ∨ body.statementsFor db = [] := by
  cases body with
  | always all => exact .inl rfl
  | unlessColumn table column all =>
      by_cases present : hasColumn db table column
      · exact .inr (if_pos present)
      · exact .inl (if_neg present)

/-- No step touches the table of the version before it records its own. -/
theorem body_spares_versions {step : Step} (member : step ∈ steps) :
    ∀ other ∈ step.body.statements.flatMap Statement.touched,
      sameName other versionTable = false := by
  revert step
  decide

theorem Step.apply_eq_ok_iff {step : Step} {db after : Database} :
    step.apply none db = .ok after ↔
      ∃ changed, Statement.execAll db (step.body.statementsFor db) = .ok changed ∧
        Statement.execAll changed step.recordVersion = .ok after := by
  unfold Step.apply
  simp only [bind_eq_ok_iff, during_eq_ok_iff, ofEngine_eq_ok_iff, Statement.execUnder_none]

/-- The body of a step leaves the record of the version alone. -/
theorem body_frame {step : Step} {db changed : Database} (member : step ∈ steps)
    (done : Statement.execAll db (step.body.statementsFor db) = .ok changed) :
    changed.table? versionTable = db.table? versionTable := by
  apply Statement.execAll_frame done
  rcases step.body.statementsFor_eq db with all | none
  · rw [all]
    exact body_spares_versions member
  · simp [none]

/-- The rebuilt table of messages has the name of the old one. -/
theorem rebuild_messages {db changed : Database}
    (done : Statement.execAll db rebuild = .ok changed) :
    messageTable ∈ changed.tables.map (·.name) := by
  obtain ⟨_, _, done⟩ := bind_eq_ok_iff.mp done
  obtain ⟨_, _, done⟩ := bind_eq_ok_iff.mp done
  obtain ⟨_, _, done⟩ := bind_eq_ok_iff.mp done
  obtain ⟨_, renamed, done⟩ := bind_eq_ok_iff.mp done
  exact Statement.execAll_keeps done (by decide) (Database.renameTable_names renamed)

/-- A step other than the one that rebuilds the table takes no name away. -/
theorem body_removes_nothing {step : Step} (member : step ∈ steps) :
    step.body = .always rebuild ∨ step.body.statements.flatMap Statement.removed = [] := by
  revert step
  decide

theorem body_messages {step : Step} {db changed : Database} (member : step ∈ steps)
    (done : Statement.execAll db (step.body.statementsFor db) = .ok changed)
    (present : messageTable ∈ db.tables.map (·.name)) :
    messageTable ∈ changed.tables.map (·.name) := by
  rcases body_removes_nothing member with rebuilds | removes
  · rw [rebuilds] at done
    exact rebuild_messages done
  · refine Statement.execAll_keeps done ?_ present
    rcases step.body.statementsFor_eq db with all | none
    · simp [all, removes]
    · simp [none]

theorem target_le {step : Step} (member : step ∈ steps) : step.target ≤ currentVersion := by
  revert step
  decide

/-- Recording a version takes no name away. -/
theorem recordVersion_removes_nothing (step : Step) :
    step.recordVersion.flatMap Statement.removed = [] := by
  unfold Step.recordVersion
  split <;> rfl

/-- A step that succeeds leads to the version above its own. -/
theorem Standing.step {step : Step} {db after : Database} (standing : Standing step.source db)
    (member : step ∈ steps) (done : step.apply none db = .ok after) :
    Standing step.target after := by
  obtain ⟨changed, body, record⟩ := Step.apply_eq_ok_iff.mp done
  obtain ⟨plainChanged, sameVersion⟩ :=
    storedVersion_congr standing.plain (body_frame member body)
  have storedChanged := sameVersion.trans standing.stored
  have messages : messageTable ∈ after.tables.map (·.name) := by
    apply Statement.execAll_keeps record _ (body_messages member body standing.messages)
    simp [recordVersion_removes_nothing]
  have recorded : PlainVersions after ∧ storedVersion after = .ok step.target := by
    unfold Step.recordVersion at record
    split at record
    · exact storedVersion_insertVersion plainChanged (target_le member) record
    · exact storedVersion_updateVersion plainChanged storedChanged (target_le member) record
  exact ⟨messages, recorded.1, recorded.2⟩

/-! ## Chains of steps -/

/-- In an ordered chain, the steps from a version on are its own step and those from the next
version on. -/
theorem filter_eq_cons {chain : List Step} {step : Step} {target : Nat}
    (ordered : chain.Pairwise fun first second => first.source < second.source)
    (member : step ∈ chain) (climbs : step.source < target) :
    (chain.filter fun other => step.source ≤ other.source ∧ other.source < target) =
      step :: chain.filter fun other => step.source + 1 ≤ other.source ∧ other.source < target := by
  induction chain with
  | nil => cases member
  | cons first rest ih =>
      obtain ⟨firstBelow, restOrdered⟩ := List.pairwise_cons.mp ordered
      rcases List.mem_cons.mp member with rfl | later
      · have sameRest :
            (rest.filter fun other => step.source ≤ other.source ∧ other.source < target) =
              rest.filter fun other => step.source + 1 ≤ other.source ∧ other.source < target := by
          apply List.filter_congr
          intro other otherMember
          have above := firstBelow other otherMember
          simp only [decide_eq_decide]
          omega
        rw [List.filter_cons_of_pos (by simpa using climbs),
          List.filter_cons_of_neg (by simp only [decide_eq_true_eq]; omega), sameRest]
      · have below := firstBelow step later
        rw [List.filter_cons_of_neg (by simp only [decide_eq_true_eq]; omega),
          List.filter_cons_of_neg (by simp only [decide_eq_true_eq]; omega)]
        exact ih restOrdered later

theorem steps_ordered : steps.Pairwise fun first second => first.source < second.source := by
  decide

/-- There is a step from every version below the current one. -/
theorem exists_step {version : Nat} (below : version < currentVersion) :
    ∃ step ∈ steps, step.source = version := by
  revert version
  decide

/-- A step is the one that is looked up under its version. -/
theorem find?_source {step : Step} (member : step ∈ steps) :
    (steps.find? fun other => other.source == step.source) = some step := by
  revert step
  decide

@[simp]
theorem stepsBetween_self (version : Nat) : stepsBetween version version = [] := by
  unfold stepsBetween
  rw [List.filter_eq_nil_iff]
  intro step _
  simp

@[simp]
theorem ascend_self (version : Nat) (db : Database) : ascend version version db = .ok db := by
  simp [ascend, pure, Except.pure]

/-- A chain to a higher version begins with the step from the lower one. -/
theorem stepsBetween_eq_cons {step : Step} {target : Nat} (member : step ∈ steps)
    (climbs : step.source < target) :
    stepsBetween step.source target = step :: stepsBetween (step.source + 1) target :=
  filter_eq_cons steps_ordered member climbs

/-- An ascent to a higher version begins with the step from the lower one. -/
theorem ascend_eq_bind {step : Step} {target : Nat} (member : step ∈ steps)
    (climbs : step.source < target) (db : Database) :
    ascend step.source target db =
      (step.apply none db).bind fun next => ascend (step.source + 1) target next := by
  unfold ascend
  rw [stepsBetween_eq_cons member climbs, List.foldlM_cons]
  rfl

/-! ## Climbs -/

/-- Whether a record is the notice that a step begins. -/
def isNotice (record : Log.Record) : Bool :=
  record.level == .info

/-- The notices of a step are its own. -/
theorem notices_log (step : Step) (db : Database) :
    (step.log db).filter isNotice = [step.notice] := by
  have silent : (step.body.notesFor db).filter isNotice = [] := by
    unfold Body.notesFor
    split
    · rfl
    · split <;> rfl
  unfold Step.log
  rw [List.filter_cons_of_pos rfl, silent]

/-- Where a climb from a version to another has come to: the version that it reached through
every version between, and why it stopped. -/
structure Reached (source target version : Nat) (db : Database) (run : Run) : Prop where
  lower : source ≤ version
  chain : ascend source version db = .ok run.db
  standing : Standing version run.db
  /-- The climb reached its target, or the next step fails on the database that it leaves. -/
  stop :
    (version = target ∧ run.outcome = .ok () ∧
      run.log.filter isNotice = (stepsBetween source target).map Step.notice) ∨
    (version < target ∧ ∃ step ∈ steps, step.source = version ∧ ∃ error,
      step.apply none run.db = .error error ∧ run.outcome = .error error ∧
        run.log.filter isNotice = (stepsBetween source (version + 1)).map Step.notice)

theorem climb_zero (version : Nat) (db : Database) :
    climb none steps 0 version db = ⟨db, [], .ok ()⟩ :=
  rfl

theorem climb_succ_of_ok {barrier : Option Fault} {step : Step} {count : Nat} {db next : Database}
    (member : step ∈ steps) (done : step.apply barrier db = .ok next) :
    climb barrier steps (count + 1) step.source db =
      { climb barrier steps count step.target next with
        log := step.log db ++ (climb barrier steps count step.target next).log } := by
  rw [climb, find?_source member]
  simp only [done]
  rfl

theorem climb_succ_of_error {barrier : Option Fault} {step : Step} {count : Nat} {db : Database}
    {error : Error} (member : step ∈ steps) (failed : step.apply barrier db = .error error) :
    climb barrier steps (count + 1) step.source db = ⟨db, step.log db, .error error⟩ := by
  rw [climb, find?_source member]
  simp only [failed]

/-- A climb that goes on after a step has come as far as what follows the step. -/
theorem Reached.cons {step : Step} {target version : Nat} {db next : Database} {run : Run}
    (reached : Reached step.target target version next run) (member : step ∈ steps)
    (climbs : step.source < target) (done : step.apply none db = .ok next) :
    Reached step.source target version db { run with log := step.log db ++ run.log } := by
  have below : step.source < version := reached.lower
  have chain : ascend step.source version db = .ok run.db := by
    rw [ascend_eq_bind member below, done]
    exact reached.chain
  refine ⟨Nat.le_of_lt below, chain, reached.standing, ?_⟩
  rcases reached.stop with ⟨atTarget, succeeded, notices⟩ |
    ⟨short, next, nextMember, atVersion, error, failed, outcome, notices⟩
  · refine .inl ⟨atTarget, succeeded, ?_⟩
    rw [List.filter_append, notices_log, notices, stepsBetween_eq_cons member climbs]
    rfl
  · refine .inr ⟨short, next, nextMember, atVersion, error, failed, outcome, ?_⟩
    rw [List.filter_append, notices_log, notices,
      stepsBetween_eq_cons member (Nat.lt_succ_of_lt below)]
    rfl

/-- Every climb stops at a version that it has reached and recorded. -/
theorem climb_reached {source count : Nat} {db : Database} (standing : Standing source db)
    (bounded : source + count ≤ currentVersion) :
    ∃ version, Reached source (source + count) version db (climb none steps count source db) := by
  induction count generalizing source db with
  | zero =>
      exact ⟨source, Nat.le_refl source, ascend_self source db, standing,
        .inl ⟨rfl, rfl, by simp [climb_zero]⟩⟩
  | succ count ih =>
      obtain ⟨step, member, rfl⟩ := exists_step (show source < currentVersion by omega)
      have climbs : step.source < step.source + (count + 1) := by omega
      cases applied : step.apply none db with
      | ok next =>
          have bound : step.target + count ≤ currentVersion := by
            unfold Step.target
            omega
          obtain ⟨version, reached⟩ := ih (standing.step member applied) bound
          have sameTarget : step.target + count = step.source + (count + 1) := by
            unfold Step.target
            omega
          rw [sameTarget] at reached
          rw [climb_succ_of_ok member applied]
          exact ⟨version, reached.cons member climbs applied⟩
      | error error =>
          rw [climb_succ_of_error member applied]
          refine ⟨step.source, Nat.le_refl _, ascend_self _ db, standing,
            .inr ⟨climbs, step, member, rfl, error, applied, rfl, ?_⟩⟩
          rw [notices_log, stepsBetween_eq_cons member (Nat.lt_succ_self _), stepsBetween_self]
          rfl

/-! ## Setups -/

section Setups

variable {barrier : Option Fault} {chain : List Step} {target : Nat} {db : Database}

/-- A database without a table of messages is built anew. -/
theorem setupTo_of_absent (absent : db.tableNamed? messageTable = none) :
    setupTo barrier chain target db =
      match Statement.execUnder barrier db (createFresh target) with
      | .error fault =>
          ⟨db, [⟨.debug, Log.migrate, s!"Creating cache database schema at version {target}"⟩],
            .error (.of (.engine fault))⟩
      | .ok fresh =>
          ⟨fresh, [⟨.debug, Log.migrate, s!"Creating cache database schema at version {target}"⟩],
            .ok ()⟩ := by
  unfold setupTo
  rw [absent]
  cases Statement.execUnder barrier db (createFresh target) <;> rfl

/-- A database whose version cannot be read is left alone. -/
theorem setupTo_of_error (present : (db.tableNamed? messageTable).isSome) {error : Error}
    (stored : storedVersion db = .error error) :
    setupTo barrier chain target db = ⟨db, [], .error error⟩ := by
  simp [setupTo, Option.isSome_iff_ne_none.mp present, stored]

/-- A database of a version to come is left alone. -/
theorem setupTo_of_newer (present : (db.tableNamed? messageTable).isSome) {version : Nat}
    (stored : storedVersion db = .ok version) (newer : target < version) :
    setupTo barrier chain target db = ⟨db, [], .error (.of (.futureSchema version target))⟩ := by
  simp [setupTo, Option.isSome_iff_ne_none.mp present, stored, newer]

/-- A database of a version up to the target climbs from it. -/
theorem setupTo_of_version (present : (db.tableNamed? messageTable).isSome) {version : Nat}
    (stored : storedVersion db = .ok version) (reachable : version ≤ target) :
    setupTo barrier chain target db = climb barrier chain (target - version) version db := by
  simp [setupTo, Option.isSome_iff_ne_none.mp present, stored, Nat.not_lt.mpr reachable]

end Setups

theorem setupTo_of_standing {version target : Nat} {db : Database}
    (standing : Standing version db) (reachable : version ≤ target) :
    setupTo none steps target db = climb none steps (target - version) version db :=
  setupTo_of_version (tableNamed?_isSome_iff.mpr standing.messages) standing.stored reachable

/-- A setup stops at a version that it has reached and recorded. -/
theorem setupTo_reached {source target : Nat} {db : Database} (standing : Standing source db)
    (reachable : source ≤ target) (bounded : target ≤ currentVersion) :
    ∃ version, Reached source target version db (setupTo none steps target db) := by
  have sum : source + (target - source) = target := by omega
  have reached := climb_reached standing (show source + (target - source) ≤ currentVersion by omega)
  rw [sum] at reached
  rw [setupTo_of_standing standing reachable]
  exact reached

/-- A database of the current version needs nothing. -/
theorem setup_of_current {db : Database} (standing : Standing currentVersion db) :
    setup db = ⟨db, [], .ok ()⟩ := by
  change setupTo none steps currentVersion db = _
  rw [setupTo_of_standing standing (Nat.le_refl _), Nat.sub_self]
  rfl

/-- A setup of a database on which the next step fails does nothing. -/
theorem setupTo_of_failing {step : Step} {target : Nat} {db : Database} {error : Error}
    (standing : Standing step.source db) (member : step ∈ steps) (climbs : step.source < target)
    (failed : step.apply none db = .error error) :
    setupTo none steps target db = ⟨db, step.log db, .error error⟩ := by
  obtain ⟨count, rfl⟩ := Nat.exists_eq_add_of_lt climbs
  rw [setupTo_of_standing standing (Nat.le_of_lt climbs),
    show step.source + count + 1 - step.source = count + 1 by omega]
  exact climb_succ_of_error member failed

/-- A database that is built anew is of the version that it is built for. -/
theorem standing_createFresh {version : Nat} {db fresh : Database} (plain : PlainVersions db)
    (bounded : version ≤ currentVersion)
    (done : Statement.execAll db (createFresh version) = .ok fresh) :
    Standing version fresh := by
  obtain ⟨middle, tables, record⟩ := Statement.execAll_append_eq_ok_iff.mp done
  have untouched : middle.table? versionTable = db.table? versionTable :=
    Statement.execAll_frame tables (by decide)
  have plainMiddle := (storedVersion_congr plain untouched).1
  have messages : messageTable ∈ middle.tables.map (·.name) := by
    obtain ⟨made, create, indexes⟩ := bind_eq_ok_iff.mp tables
    apply Statement.execAll_keeps indexes (by decide)
    rcases Database.createTable_eq_ok_iff.mp create with ⟨⟨⟩, _⟩ | ⟨_, _, _, rfl⟩
    simp
  have recorded := storedVersion_insertVersion plainMiddle bounded record
  refine ⟨Statement.execAll_keeps record ?_ messages, recorded.1, recorded.2⟩
  intro other member
  cases member

/-- A setup that succeeds leaves a database of the current version. -/
theorem standing_of_setup_ok {db : Database} (plain : PlainVersions db)
    (succeeded : (setup db).outcome = .ok ()) : Standing currentVersion (setup db).db := by
  change Standing currentVersion (setupTo none steps currentVersion db).db
  change (setupTo none steps currentVersion db).outcome = .ok () at succeeded
  by_cases present : messageTable ∈ db.tables.map (·.name)
  · have some := tableNamed?_isSome_iff.mpr present
    cases stored : storedVersion db with
    | error error =>
        rw [setupTo_of_error some stored] at succeeded
        cases succeeded
    | ok version =>
        by_cases reachable : version ≤ currentVersion
        · obtain ⟨reachedVersion, reached⟩ :=
            setupTo_reached ⟨present, plain, stored⟩ reachable (Nat.le_refl _)
          rcases reached.stop with ⟨rfl, _, _⟩ | ⟨_, _, _, _, error, _, failed, _⟩
          · exact reached.standing
          · rw [failed] at succeeded
            cases succeeded
        · rw [setupTo_of_newer some stored (Nat.lt_of_not_le reachable)] at succeeded
          cases succeeded
  · have absent : db.tableNamed? messageTable = none := by
      rw [← tableNamed?_isSome_iff] at present
      simpa using present
    rw [setupTo_of_absent absent, Statement.execUnder_none] at succeeded ⊢
    cases made : Statement.execAll db (createFresh currentVersion) with
    | error fault =>
        rw [made] at succeeded
        cases succeeded
    | ok fresh => exact standing_createFresh plain (Nat.le_refl _) made

end MessageStore.Schema
