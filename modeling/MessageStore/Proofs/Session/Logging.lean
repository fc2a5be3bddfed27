import MessageStore.Proofs.Session.Facades

/-!
# Logging stays apart from data

Commands that use the logger change nothing but what records are reported to,
and no other command changes that or looks at it.  So the other commands of a
program have the same replies and leave the same data, whatever is done with the
logger.  Once a logger is installed, the facade and the logger always have the
same level, so that a record reaches the sink exactly if it is at least as
severe as the level that was set last, and the sink is attached.
-/

namespace MessageStore

open Log (Facade Level)

/-! ## Commands that use the logger -/

namespace Command

/-- Whether a command uses the logger, and nothing else. -/
def isLogging : Command → Bool
  | .logging _ => true
  | .isLogged _ => true
  | .makeLogger _ => true
  | _ => false

/-- The level that a command sets. -/
def level? : Command → Option Level
  | .logging (.setLevel level) => some level
  | _ => none

/-- Whether a command attaches the sink or detaches it. -/
def attachment? : Command → Option Bool
  | .logging (.setAttached attached) => some attached
  | _ => none

end Command

/-- The level that has been set last, after a logger was installed with a level. -/
def levelAfter (installed : Level) (commands : List Command) : Level :=
  (commands.filterMap Command.level?).getLast?.getD installed

/-- Whether a sink is attached, after a logger was installed. -/
def attachedAfter (commands : List Command) : Bool :=
  (commands.filterMap Command.attachment?).getLast?.getD false

/-- The facade for which a logger has been installed with a level, after some commands. -/
def facadeAfter (installed : Level) (commands : List Command) : Facade where
  logger? := some ⟨levelAfter installed commands, attachedAfter commands⟩
  installed := true
  limit? := some (levelAfter installed commands)

section Facades

variable {installed : Level} {commands : List Command} {command : Command}

theorem levelAfter_append :
    levelAfter installed (commands ++ [command]) =
      command.level?.getD (levelAfter installed commands) := by
  unfold levelAfter
  cases found : command.level? <;> simp [List.filterMap_append, found]

theorem attachedAfter_append :
    attachedAfter (commands ++ [command]) =
      command.attachment?.getD (attachedAfter commands) := by
  unfold attachedAfter
  cases found : command.attachment? <;> simp [List.filterMap_append, found]

theorem enabled_facadeAfter (level : Level) :
    (facadeAfter installed commands).enabled level =
      (attachedAfter commands && level.rank ≤ (levelAfter installed commands).rank) := by
  simp only [facadeAfter, Facade.enabled, Log.Logger.enabled, Option.any_some, Bool.true_and]
  cases attachedAfter commands <;> simp

/-- What a command makes of the facade. -/
def Command.facadeAfter (facade : Facade) : Command → Facade
  | .logging action => action.apply facade
  | .makeLogger level => (facade.install level).1
  | _ => facade

/-- Another command, another facade: what it sets counts from then on, and nothing else changes. -/
theorem facadeAfter_append :
    command.facadeAfter (facadeAfter installed commands) =
      facadeAfter installed (commands ++ [command]) := by
  unfold MessageStore.facadeAfter
  rw [levelAfter_append, attachedAfter_append]
  cases command with
  | logging action => cases action <;> rfl
  | _ => rfl

end Facades

namespace Session

variable (session : Session) (facade : Facade)

/-! ## What single commands do -/

theorem withHandle_reportingTo (name : String) {use otherUse : Handle → Execution}
    (uses : ∀ handle, otherUse handle = (use handle).reportingTo facade) :
    (session.reportingTo facade).withHandle name otherUse =
      (session.withHandle name use).reportingTo facade := by
  unfold withHandle
  rw [handle?_reportingTo]
  cases session.handle? name with
  | none => rfl
  | some handle => exact uses handle

theorem execution_reportingTo {α : Type} (step : Step α) (reply : α → Reply) :
    (step.reportingTo facade).execution reply = (step.execution reply).reportingTo facade :=
  rfl

/-- A command that does not use the logger does the same whatever records are reported to. -/
theorem execute_reportingTo {command : Command} (apart : command.isLogging = false) :
    (session.reportingTo facade).execute command =
      (session.execute command).reportingTo facade := by
  cases command with
  | logging | isLogged | makeLogger => cases apart
  | setClock | writeFile | makeDirectories | isThere => rfl
  | openFile name path =>
      exact congrArg (Step.execution · _) (openFile_reportingTo session facade name path)
  | openMemory name bits =>
      simp only [execute, openMemory_reportingTo, execution_reportingTo]
  | openDiscarding name =>
      exact congrArg (fun left => (Step.mk left [] (.ok ())).execution _)
        (attach_reportingTo session facade name .discarding)
  | openConfigured name config bits =>
      exact congrArg (Step.execution · _)
        (openConfigured_reportingTo session facade name config bits)
  | copy name newName =>
      refine withHandle_reportingTo session facade name fun handle => ?_
      cases handle.origin? with
      | none => rfl
      | some origin =>
          exact congrArg (Step.execution · _) (copy_reportingTo session facade origin newName)
  | close name =>
      exact congrArg (replied · (.truth (session.handle? name).isSome))
        (close_reportingTo session facade name)
  | perform name operation =>
      refine withHandle_reportingTo session facade name fun handle => ?_
      exact congrArg (Step.execution · _) (perform_reportingTo session facade handle operation)
  | publishDue name =>
      refine withHandle_reportingTo session facade name fun handle => ?_
      exact congrArg (Step.execution · _) (publishDue_reportingTo session facade handle)
  | build path earlier =>
      exact congrArg (Step.execution · _) (build_reportingTo session facade path earlier)
  | inspect path =>
      simp only [execute, inspect_reportingTo]
      cases session.inspect path with
      | error error => rfl
      | ok inventory? => cases inventory? <;> rfl

/-- A command that uses the logger changes nothing but what records are reported to. -/
theorem execute_logging {command : Command} (logs : command.isLogging = true) :
    (session.execute command).session =
      session.reportingTo (command.facadeAfter session.facade) := by
  cases command with
  | logging | isLogged | makeLogger => rfl
  | _ => cases logs

/-- Only commands that use the logger change what records are reported to. -/
theorem facade_execute (command : Command) :
    (session.execute command).session.facade = command.facadeAfter session.facade := by
  cases logs : command.isLogging with
  | true => rw [execute_logging session logs, facade_reportingTo]
  | false =>
      have same := execute_reportingTo session session.facade logs
      have kept : command.facadeAfter session.facade = session.facade := by
        cases command with
        | logging | isLogged | makeLogger => cases logs
        | _ => rfl
      rw [kept]
      exact congrArg (·.session.facade) same

/-- What a command reports goes to what records were reported to before it. -/
theorem reached_execute (command : Command) :
    (session.execute command).reached = session.facade.passed (session.execute command).reported := by
  unfold Execution.reached
  rw [facade_execute]
  cases command with
  | logging action => cases action <;> rfl
  | makeLogger level => rfl
  | _ => rfl

/-! ## What programs do -/

/-- The session that a program leaves. -/
def after (session : Session) (program : List Command) : Session :=
  program.foldl (fun session command => (session.execute command).session) session

/-- How the commands of a program are replied, and what each of them reports, apart from those that
use the logger. -/
def dealings (session : Session) : List Command → List (Except Refusal Reply × List Log.Record)
  | [] => []
  | command :: rest =>
      let execution := session.execute command
      (if command.isLogging then [] else [(execution.reply, execution.reported)]) ++
        execution.session.dealings rest

/-- The records that a program reports, each with the commands that were carried out before. -/
def emitted (session : Session) (before : List Command) :
    List Command → List (List Command × Log.Record)
  | [] => []
  | command :: rest =>
      let execution := session.execute command
      execution.reported.map (before, ·) ++ execution.session.emitted (before ++ [command]) rest

/-- The records of a program that reach the sink. -/
def reached (session : Session) : List Command → List Log.Record
  | [] => []
  | command :: rest =>
      let execution := session.execute command
      execution.reached ++ execution.session.reached rest

variable {session facade}

/-- Whatever records are reported to, a program does what it does without the commands that use the
logger. -/
theorem dealings_reportingTo (program : List Command) :
    (session.reportingTo facade).dealings program =
        session.dealings (program.filter (!·.isLogging)) ∧
      ∃ left, (session.reportingTo facade).after program =
        (session.after (program.filter (!·.isLogging))).reportingTo left := by
  induction program generalizing session facade with
  | nil => exact ⟨rfl, facade, rfl⟩
  | cons command rest ih =>
      cases logs : command.isLogging with
      | true =>
          have next := execute_logging (session.reportingTo facade) logs
          rw [reportingTo_reportingTo] at next
          simp only [dealings, after, List.foldl_cons, next, logs, List.filter_cons,
            Bool.not_true, Bool.false_eq_true, if_false, if_true, List.nil_append]
          exact ih
      | false =>
          have next := execute_reportingTo session facade logs
          simp only [dealings, after, List.foldl_cons, next, logs, List.filter_cons,
            Bool.not_false, Bool.false_eq_true, if_false, if_true]
          obtain ⟨same, left⟩ := @ih (session.execute command).session facade
          exact ⟨congrArg (_ :: ·) same, left⟩

variable {installed : Level} {before : List Command}

/-- Once a logger is installed, its level and its sink are those that have been set last. -/
theorem facade_after (reports : session.facade = facadeAfter installed before)
    (program : List Command) :
    (session.after program).facade = facadeAfter installed (before ++ program) := by
  induction program generalizing session before with
  | nil =>
      rw [List.append_nil]
      exact reports
  | cons command rest ih =>
      have next : (session.execute command).session.facade =
          facadeAfter installed (before ++ [command]) := by
        rw [facade_execute, reports, facadeAfter_append]
      rw [List.append_cons]
      exact ih next

/-- Of the records that a program reports, those reach the sink that are severe enough when they are
reported, while the sink is attached. -/
theorem reached_eq (reports : session.facade = facadeAfter installed before)
    (program : List Command) :
    session.reached program =
      ((session.emitted before program).filter fun (before, record) =>
        attachedAfter before && record.level.rank ≤ (levelAfter installed before).rank).map
          Prod.snd := by
  induction program generalizing session before with
  | nil => rfl
  | cons command rest ih =>
      have next : (session.execute command).session.facade =
          facadeAfter installed (before ++ [command]) := by
        rw [facade_execute, reports, facadeAfter_append]
      have now : (session.execute command).reached =
          (((session.execute command).reported.map (before, ·)).filter fun (before, record) =>
            attachedAfter before && record.level.rank ≤ (levelAfter installed before).rank).map
              Prod.snd := by
        rw [reached_execute, reports, Facade.passed, List.filter_map, List.map_map]
        simp only [enabled_facadeAfter]
        exact (List.map_id _).symm
      simp only [reached, emitted, List.filter_append, List.map_append]
      rw [now, ih next]

/-- Whatever a program does with a logger that has been installed, its other commands are replied
and report the same, and leave the same data.  The records that reach the sink are those that are at
least as severe as the level that was set last, in order and once each, while the sink is attached.
No other logger can be installed. -/
theorem logging_stays_apart (session : Session) :
    (∀ level otherLevel program otherProgram,
      program.filter (!·.isLogging) = otherProgram.filter (!·.isLogging) →
        (session.reportingTo (.started level)).dealings program =
            (session.reportingTo (.started otherLevel)).dealings otherProgram ∧
          ∃ facade, (session.reportingTo (.started level)).after program =
            ((session.reportingTo (.started otherLevel)).after otherProgram).reportingTo facade) ∧
    ∀ level program,
      (session.reportingTo (.started level)).reached program =
        (((session.reportingTo (.started level)).emitted [] program).filter
          fun (before, record) =>
            attachedAfter before && record.level.rank ≤ (levelAfter level before).rank).map
              Prod.snd ∧
      ∀ again,
        (((session.reportingTo (.started level)).after program).execute (.makeLogger again)).reply =
          .error (.failed (.of .loggerInstalled)) := by
  constructor
  · intro level otherLevel program otherProgram same
    obtain ⟨dealings, left, after⟩ := @dealings_reportingTo session (.started level) program
    obtain ⟨otherDealings, otherLeft, otherAfter⟩ :=
      @dealings_reportingTo session (.started otherLevel) otherProgram
    rw [same] at dealings after
    refine ⟨dealings.trans otherDealings.symm, left, ?_⟩
    rw [after, otherAfter, reportingTo_reportingTo]
  · intro level program
    have reports : (session.reportingTo (.started level)).facade = facadeAfter level [] := rfl
    refine ⟨reached_eq reports program, fun again => ?_⟩
    simp only [execute, facade_after reports]
    rfl

/-- A record that is reported before the sink is attached, and one that is reported after the level
has been raised above it, do not reach the sink; the data is the same as without the logger. -/
theorem logging_stays_apart_instances :
    let clock : Instant := ⟨5, 0, by decide, by decide, by decide⟩
    let session := (Session.start clock []).reportingTo (.started .info)
    let opens (name : String) : Command := .openConfigured name .discard 0
    let program : List Command :=
      [opens "a", .logging (.setAttached true), .makeLogger .trace, opens "b",
        .logging (.setLevel .warn), opens "c"]
    let silent := [opens "a", opens "b", opens "c"]
    program.filter (!·.isLogging) = silent.filter (!·.isLogging) ∧
      session.dealings program = session.dealings silent ∧
      session.reached program = [opening .discard] ∧
      ((session.after program).execute (.makeLogger .trace)).reply =
        .error (.failed (.of .loggerInstalled)) := by
  intro clock session opens program silent
  have same : program.filter (!·.isLogging) = silent.filter (!·.isLogging) := rfl
  obtain ⟨apart, reaches⟩ := logging_stays_apart (Session.start clock [])
  obtain ⟨reached, refused⟩ := reaches .info program
  exact ⟨same, (apart .info .info program silent same).1, reached.trans (by decide),
    refused .trace⟩

end Session

end MessageStore
