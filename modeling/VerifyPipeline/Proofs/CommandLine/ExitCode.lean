import VerifyPipeline.CommandLine.Run
import VerifyPipeline.Proofs.Run.Success

namespace VerifyPipeline

/-!
# The exit code of the command

The command exits with 2 exactly if something hinders its work: before the run, that the project or
the log file is out of reach or a warning cannot be logged, and after it, that the report cannot be
written.  Otherwise it exits with 0 exactly if the run was flawless, and with 1 if it was not.
-/

namespace Surroundings

/-- The command has found its project, opened its log, and written its warnings there. -/
structure Begins
    (around : Surroundings)
    (options : Options)
    (project : Project)
    (log : CommandLog)
    (emitter : Emitter)
    (host : Host) : Prop where
  root : around.host.tree.canonicalize around.host.here options.root = .ok project.root
  opened : CommandLog.start options.log around.host = (.ok log, host)
  warned : around.warn log host.clock = (none, emitter)

/-- Something prevents the command from executing its plan. -/
inductive Prevented (around : Surroundings) (options : Options) : Prop where
  /-- The project's root cannot be canonicalized. -/
  | root
      {why : OsError} :
      around.host.tree.canonicalize around.host.here options.root = .error why →
      Prevented around options
  /-- The log file cannot be created. -/
  | logFile
      {path : String}
      {why : OsError}
      {tree : FileTree} :
      options.log = some path →
      LogFile.create around.host.tree around.host.here path = (.error why, tree) →
      Prevented around options
  /-- A warning about the configuration cannot be written to the log. -/
  | warning
      {log : CommandLog}
      {host : Host}
      {why : OsError}
      {emitter : Emitter} :
      CommandLog.start options.log around.host = (.ok log, host) →
      around.warn log host.clock = (some why, emitter) →
      Prevented around options

/-- The report about a result cannot be written when the run has ended. -/
inductive Unreported
    (around : Surroundings)
    (options : Options)
    (result : RunResult)
    (ended : CommandResult) : Prop where
  | markdown
      {path : String}
      {why : OsError}
      {tree : FileTree} :
      options.report = some path →
      ended.host.tree.saveText ended.host.here path
          (around.report options result ended.host.clock).markdown =
        (some why, tree) →
      Unreported around options result ended
  | sibling
      {path : String}
      {why : OsError}
      {saved tree : FileTree} :
      options.report = some path →
      ended.host.tree.saveText ended.host.here path
          (around.report options result ended.host.clock).markdown =
        (none, saved) →
      saved.saveText ended.host.here (Path.jsonSibling path)
          (around.report options result ended.host.clock).jsonText =
        (some why, tree) →
      Unreported around options result ended

/-- Something hinders the command in its work. -/
inductive Hindered (around : Surroundings) (options : Options) : Prop where
  | before :
      around.Prevented options →
      Hindered around options
  | after
      {project : Project}
      {log : CommandLog}
      {emitter : Emitter}
      {host : Host} :
      around.Begins options project log emitter host →
      around.Unreported options (around.execution options project host).result
        (around.executed options project log emitter host) →
      Hindered around options

variable
  {around : Surroundings}
  {options : Options}
  {project : Project}
  {log : CommandLog}
  {emitter : Emitter}
  {host : Host}
  {result : RunResult}
  {ended : CommandResult}

/-- Writing a report starts nothing. -/
theorem processes_finish
    (around : Surroundings)
    (options : Options)
    (result : RunResult)
    (ended : CommandResult) :
    (around.finish options result ended).processes = ended.processes := by
  unfold finish
  split
  · rfl
  · simp only
    split <;> rfl

/-- A report that cannot be written decides the exit code. -/
theorem exitCode_finish_of_unreported
    (unreported : around.Unreported options result ended) :
    (around.finish options result ended).exitCode = failureCode := by
  cases unreported with
  | markdown asked failed =>
      simp only [finish, asked, RunReport.write, failed]
  | sibling asked saved failed =>
      simp only [finish, asked, RunReport.write, saved, failed]

theorem exitCode_finish_of_reported
    (reported : ¬ around.Unreported options result ended) :
    (around.finish options result ended).exitCode = ended.exitCode := by
  unfold finish
  cases asked : options.report with
  | none =>
      rfl
  | some path =>
      rcases first :
        ended.host.tree.saveText ended.host.here path
          (around.report options result ended.host.clock).markdown with ⟨_ | why, saved⟩
      · rcases second :
          saved.saveText ended.host.here (Path.jsonSibling path)
            (around.report options result ended.host.clock).jsonText with ⟨_ | why, both⟩
        · simp only [RunReport.write, first, second]
        · exact absurd (.sibling asked first second) reported
      · exact absurd (.markdown asked first) reported

theorem perform_of_begins
    (begins : around.Begins options project log emitter host) :
    around.perform options = around.carryOut options project log emitter host := by
  obtain ⟨root, opened, warned⟩ := begins
  unfold perform
  simp only [Project.locate, root, opened, warned]

/-- The only reason not to open a log is that its file cannot be created. -/
theorem create_of_start_error
    {path? : Option String}
    {host left : Host}
    {error : CommandError}
    (failed : CommandLog.start path? host = (.error error, left)) :
    ∃ path why tree,
      path? = some path ∧ LogFile.create host.tree host.here path = (.error why, tree) := by
  unfold CommandLog.start at failed
  cases path? with
  | none =>
      simp at failed
  | some path =>
      rcases created : LogFile.create host.tree host.here path with ⟨why | _, tree⟩
      · exact ⟨path, why, tree, rfl, created⟩
      · simp [created] at failed

/-- A command that does not begin its run is prevented from it, and refuses. -/
theorem begins_or_refuses
    (around : Surroundings)
    (options : Options) :
    (∃ project log emitter host, around.Begins options project log emitter host) ∨
      around.Prevented options ∧
        ∃ host error, around.perform options = around.refuse host error := by
  unfold perform
  cases located : around.host.tree.canonicalize around.host.here options.root with
  | error why =>
      simp only [Project.locate, located]
      exact .inr ⟨.root located, around.host, _, rfl⟩
  | ok root =>
      simp only [Project.locate, located]
      rcases started : CommandLog.start options.log around.host with ⟨error | log, host⟩
      · obtain ⟨_, _, _, asked, failed⟩ := create_of_start_error started
        exact .inr ⟨.logFile asked failed, host, error, rfl⟩
      · rcases warned : around.warn log host.clock with ⟨_ | why, emitter⟩
        · exact .inl ⟨⟨root⟩, log, emitter, host, located, started, warned⟩
        · refine .inr ⟨.warning started warned, log.store emitter.writer host, .logEntry why, ?_⟩
          simp only [warned]

/-- Nothing prevents a command that begins its run. -/
theorem Begins.not_prevented
    (begins : around.Begins options project log emitter host) :
    ¬ around.Prevented options := by
  obtain ⟨found, opened, warned⟩ := begins
  intro prevented
  cases prevented with
  | root missing =>
      rw [found] at missing
      contradiction
  | logFile asked failed =>
      simp [CommandLog.start, asked, failed] at opened
  | warning otherwise failed =>
      rw [opened] at otherwise
      simp only [Prod.mk.injEq, Except.ok.injEq] at otherwise
      obtain ⟨rfl, rfl⟩ := otherwise
      rw [warned] at failed
      simp at failed

/-- A command begins its run in one way only. -/
theorem Begins.unique
    {otherProject : Project}
    {otherLog : CommandLog}
    {otherEmitter : Emitter}
    {otherHost : Host}
    (begins : around.Begins options project log emitter host)
    (otherwise : around.Begins options otherProject otherLog otherEmitter otherHost) :
    otherProject = project ∧ otherLog = log ∧ otherEmitter = emitter ∧ otherHost = host := by
  obtain ⟨found, opened, warned⟩ := begins
  obtain ⟨otherFound, otherOpened, otherWarned⟩ := otherwise
  rw [found] at otherFound
  rw [opened] at otherOpened
  simp only [Except.ok.injEq] at otherFound
  simp only [Prod.mk.injEq, Except.ok.injEq] at otherOpened
  obtain ⟨rfl, rfl⟩ := otherOpened
  rw [warned] at otherWarned
  simp only [Prod.mk.injEq, true_and] at otherWarned
  cases project
  cases otherProject
  exact ⟨by simpa using otherFound.symm, rfl, otherWarned.symm, rfl⟩

/-- A command that is prevented starts nothing and fails. -/
theorem perform_of_prevented
    (prevented : around.Prevented options) :
    (around.perform options).exitCode = failureCode ∧
      (around.perform options).processes = {} := by
  rcases around.begins_or_refuses options with ⟨_, _, _, _, begins⟩ | ⟨_, _, _, refuses⟩
  · exact absurd prevented begins.not_prevented
  · rw [refuses]
    exact ⟨rfl, rfl⟩

theorem plan_steps_ne_nil (around : Surroundings) : around.plan.steps ≠ [] := by
  simp [plan, Plan.build, Plan.baselineBlock, Plan.baselineSelections]

/-- What the exit code of a command that is not a dry run tells. -/
structure ExitCodeTells
    (around : Surroundings)
    (options : Options)
    (result : CommandResult) : Prop where
  hinderedIff : result.exitCode = 2 ↔ around.Hindered options
  /-- Nothing is started if something prevents the run. -/
  idle : around.Prevented options → result.processes.attempts = []
  /-- A run that nothing hinders is judged by what it has started. -/
  judged :
    ¬ around.Hindered options →
      ∃ project log emitter host,
        around.Begins options project log emitter host ∧
          (result.exitCode = 0 ↔
            (around.runner options.cargo).Flawless project around.plan host result.processes) ∧
          (result.exitCode = 0 ∨ result.exitCode = 1)

/-- What hinders a command that begins its run is that its report fails. -/
theorem Begins.hindered_iff
    (begins : around.Begins options project log emitter host) :
    around.Hindered options ↔
      around.Unreported options (around.execution options project host).result
        (around.executed options project log emitter host) := by
  constructor
  · intro hindered
    cases hindered with
    | before prevented =>
        exact absurd prevented begins.not_prevented
    | after otherwise unreported =>
        obtain ⟨rfl, rfl, rfl, rfl⟩ := begins.unique otherwise
        exact unreported
  · exact .after begins

/-- The execution of the plan passes exactly if what it has started is flawless. -/
theorem exitCode_execution_iff
    (around : Surroundings)
    (options : Options)
    (project : Project)
    (host : Host) :
    (around.execution options project host).result.exitCode = 0 ↔
      (around.runner options.cargo).Flawless project around.plan host
        (around.execution options project host).state := by
  rw [RunResult.exitCode_eq_zero_iff]
  exact ProcessRunner.execute_succeeded_iff rfl project options.onInterrupt
    around.plan_steps_ne_nil host

/-- A run that nothing hinders decides the exit code. -/
theorem Begins.exitCode_of_unhindered
    (begins : around.Begins options project log emitter host)
    (unhindered : ¬ around.Hindered options) :
    (around.carryOut options project log emitter host).exitCode =
      (around.execution options project host).result.exitCode :=
  exitCode_finish_of_reported fun unreported => unhindered (.after begins unreported)

theorem Begins.exitCode_of_hindered
    (begins : around.Begins options project log emitter host)
    (hindered : around.Hindered options) :
    (around.carryOut options project log emitter host).exitCode = failureCode :=
  exitCode_finish_of_unreported (begins.hindered_iff.mp hindered)

/-- What the exit code of a command that begins its run tells. -/
theorem Begins.exitCodeTells
    (begins : around.Begins options project log emitter host) :
    around.ExitCodeTells options (around.carryOut options project log emitter host) := by
  have processes :
      (around.carryOut options project log emitter host).processes =
        (around.execution options project host).state :=
    around.processes_finish options _ _
  have judged := (around.execution options project host).result.exitCode_eq_zero_or_one
  by_cases hindered : around.Hindered options
  · exact {
      hinderedIff := ⟨fun _ => hindered, fun _ => begins.exitCode_of_hindered hindered⟩
      idle := fun prevented => absurd prevented begins.not_prevented
      judged := fun unhindered => absurd hindered unhindered
    }
  · have exitCode := begins.exitCode_of_unhindered hindered
    refine {
      hinderedIff := ?_
      idle := fun prevented => absurd prevented begins.not_prevented
      judged := fun _ => ⟨project, log, emitter, host, begins, ?_, ?_⟩
    }
    · rw [exitCode]
      constructor
      · intro two
        omega
      · exact fun otherwise => absurd otherwise hindered
    · rw [exitCode, processes]
      exact around.exitCode_execution_iff options project host
    · rw [exitCode]
      exact judged

/--
The command exits with 2 exactly if something hinders it, before or after its
run, and nothing is started in the former case.  Otherwise it exits with 0
exactly if its run was flawless, and with 1 if it was not.  A dry run exits
with 0.
-/
theorem run_exitCode_tells
    (around : Surroundings)
    (arguments : List String)
    (options : Options)
    (parsed : Request.ofArguments arguments = .ok (.run options)) :
    (options.dryRun = true → (around.run arguments).exitCode = 0) ∧
      (options.dryRun = false → around.ExitCodeTells options (around.run arguments)) := by
  unfold run
  rw [parsed]
  constructor
  · intro dry
    simp only [dry]
    rfl
  · intro wet
    simp only [wet, Bool.false_eq_true, ↓reduceIte]
    rcases around.begins_or_refuses options with
      ⟨project, log, emitter, host, begins⟩ | ⟨prevented, _⟩
    · rw [perform_of_begins begins]
      exact begins.exitCodeTells
    · obtain ⟨exitCode, processes⟩ := perform_of_prevented prevented
      exact {
        hinderedIff := ⟨fun _ => .before prevented, fun _ => exitCode⟩
        idle := fun _ => by rw [processes]
        judged := fun unhindered => absurd (.before prevented) unhindered
      }

/-- The theorem at a command that skips all but the baseline, and whose second child fails.  The
program is given by its path. -/
theorem run_exitCode_tells_failing_baseline :
    let around : Surroundings :=
      { host := {
          tree := { entries := [(["tool"], .file 0)], files := [(0, { executable := true })] }
          here := .root }
        environment := fun _ => some "1"
        installed := []
        children := fun number => if number = 1 then { ending := 256 } else {} }
    let left := around.run ["--cargo", "/tool"]
    Request.ofArguments ["--cargo", "/tool"] = .ok (.run { cargo := "/tool" }) ∧
      around.ExitCodeTells { cargo := "/tool" } left ∧
      left.exitCode = 1 ∧
      left.processes.started = 2 := by
  intro around left
  have tells := run_exitCode_tells around ["--cargo", "/tool"] { cargo := "/tool" } rfl
  exact ⟨rfl, tells.2 rfl, by decide +kernel, by decide +kernel⟩

end Surroundings

end VerifyPipeline
