import VerifyPipeline.CommandLine.Arguments
import VerifyPipeline.Log.File
import VerifyPipeline.Plan.Build
import VerifyPipeline.Plan.Preview
import VerifyPipeline.Report.Write
import VerifyPipeline.Run.Execute
import VerifyPipeline.Run.Narration
import VerifyPipeline.Runner.Process

/-!
# Running the command

What the command prints, which programs it starts, and what it leaves behind, as a function of its
arguments and of what it finds around it.  The exit code is 0 if every planned step has passed, 1 if
one has not, and 2 if the command could not do its work.
-/

namespace VerifyPipeline

/-- What the command finds around it. -/
structure Surroundings where
  host : Host
  /-- The values of the environment variables that are set. -/
  environment : String → Option String
  /-- The programs that are found by their names alone. -/
  installed : List String
  /-- What the programs do, by the number of those started before. -/
  children : Nat → Child
  /-- Why the system does not start a program although it is there, by the number of attempts made
  before. -/
  refusals : Nat → Option OsError := fun _ => none
  /-- The signals that arrive during an attempt that starts no program, in order, by the number of
  attempts made before. -/
  alarms : Nat → List Int32 := fun _ => []
  /-- The signals that arrive before a step, in order, by the number of steps begun before. -/
  interim : Nat → List Int32 := fun _ => []

/-- What has come of the command. -/
structure CommandResult where
  exitCode : Nat
  /-- The lines of the standard output. -/
  output : List String := []
  /-- The lines of the standard error output. -/
  messages : List String := []
  /-- What has been started. -/
  processes : ProcessState := {}
  host : Host

/-- Why the command could not do its work. -/
inductive CommandError where
  | root (error : RootError)
  /-- The log file could not be opened. -/
  | logFile (path : String) (why : OsError)
  /-- A warning could not be written to the log. -/
  | logEntry (why : OsError)
  | report (error : ReportError)
  deriving Repr, DecidableEq

namespace CommandError

def text : CommandError → String
  | .root error => error.text
  | .logFile path why => "cannot open log file " ++ path ++ ": " ++ why.text
  | .logEntry why => why.text
  | .report error => error.text

/-- The line that is printed about the error. -/
def line (error : CommandError) : String := commandName ++ ": error: " ++ error.text

end CommandError

/-- The exit code when the command could not do its work. -/
def failureCode : Nat := 2

/-- The log of a command: its writer, and the file that takes the lines, if there is one. -/
structure CommandLog where
  file? : Option LogFile
  writer : LogWriter
  deriving Repr, DecidableEq

namespace CommandLog

/-- Open the log. -/
def start (path? : Option String) (host : Host) : Except CommandError CommandLog × Host :=
  match path? with
  | none => (.ok ⟨none, .discard⟩, host)
  | some path =>
    match LogFile.create host.tree host.here path with
    | (.error why, tree) => (.error (.logFile path why), { host with tree := tree })
    | (.ok (file, writer), tree) => (.ok ⟨some file, writer⟩, { host with tree := tree })

/-- The host when the file of the log holds the lines of a writer. -/
def store (log : CommandLog) (writer : LogWriter) (host : Host) : Host :=
  match log.file? with
  | none => host
  | some file => { host with tree := file.store writer host.tree }

end CommandLog

/-- The entry of the log about an inconsistency. -/
def Inconsistency.entry (issue : Inconsistency) (clock : Instant) : LogEntry :=
  (LogEntry.create clock "" .warn "config_inconsistency").withDetails
    (.object [
      ("skip_flag", .string issue.skipFlag),
      ("exhaustive_flag", .string issue.exhaustiveFlag)])

/-- The warning about an inconsistency. -/
def Inconsistency.warning (issue : Inconsistency) : String := "warning: " ++ issue.text

/-- What is shown before the first step. -/
def Plan.announcement (plan : Plan) (project : Project) : String :=
  commandName ++ ": " ++ toString plan.size ++ " steps planned (" ++ plan.runId ++ ") in "
    ++ project.root.text

namespace Surroundings

/-- The configuration that the environment variables give. -/
def config (around : Surroundings) : Config := .ofLookup around.environment

/-- The plan of the command. -/
def plan (around : Surroundings) : Plan := .build around.config .lexical .lexical

/-- The warnings about the configuration. -/
def warnings (around : Surroundings) : List String :=
  around.config.inconsistencies.map Inconsistency.warning

/-- The runner that starts the program for the tools. -/
def runner (around : Surroundings) (program : String) : ProcessRunner where
  program := program
  listens := true
  installed := around.installed
  rustflags := around.environment "RUSTFLAGS"
  rustdocflags := around.environment "RUSTDOCFLAGS"
  children := around.children
  refusals := around.refusals
  alarms := around.alarms
  interim := around.interim

/-- What executes the plan. -/
def pipeline
    (around : Surroundings)
    (options : Options)
    (project : Project) :
    Pipeline ProcessState where
  runner := (around.runner options.cargo).toRunner
  project := project
  interruptPolicy := options.onInterrupt

/-- The report about a result. -/
def report
    (around : Surroundings)
    (options : Options)
    (result : RunResult)
    (clock : Instant) :
    RunReport :=
  .ofResult result around.config options.onInterrupt options.cargo clock.text

/-- What has come of a dry run. -/
def preview (around : Surroundings) (options : Options) : CommandResult where
  exitCode := 0
  output := [around.plan.previewText around.config options.cargo]
  messages := around.warnings
  host := around.host

/-- What has come of a command that fails before it starts any program. -/
def refuse (around : Surroundings) (host : Host) (error : CommandError) : CommandResult where
  exitCode := failureCode
  messages := around.warnings ++ [error.line]
  host := host

/-- Write the report, if one is asked for, about a run that has ended. -/
def finish
    (around : Surroundings)
    (options : Options)
    (result : RunResult)
    (ended : CommandResult) :
    CommandResult :=
  match options.report with
  | none => ended
  | some path =>
    let host := ended.host
    let report := around.report options result host.clock
    match report.write host.tree host.here path with
    | (.error error, tree) =>
      { ended with
        exitCode := failureCode
        messages := ended.messages ++ [(CommandError.report error).line]
        host := { host with tree := tree } }
    | (.ok sibling, tree) =>
      { ended with
        messages := ended.messages ++ ["Report written to " ++ path ++ " and " ++ sibling]
        host := { host with tree := tree } }

/-- Write the warnings about the configuration to a log. -/
def warn (around : Surroundings) (log : CommandLog) (clock : Instant) :
    Option OsError × Emitter :=
  (Emitter.ofWriter log.writer around.plan.runId).emitAll
    (around.config.inconsistencies.map fun issue => issue.entry clock)

/-- The execution of the plan. -/
def execution
    (around : Surroundings)
    (options : Options)
    (project : Project)
    (host : Host) :
    Execution ProcessState :=
  (around.pipeline options project).execute around.plan {} host

/-- What has come of the command when the plan has been executed, with an open log whose emitter
has written the warnings. -/
def executed
    (around : Surroundings)
    (options : Options)
    (project : Project)
    (log : CommandLog)
    (emitter : Emitter)
    (host : Host) :
    CommandResult :=
  let execution := around.execution options project host
  let narrator : Narrator := { emitter := emitter, progress := true }
  let told := narrator.tellRun around.plan.size execution.occurrences
  { exitCode := execution.result.exitCode
    messages := around.warnings ++ around.plan.announcement project :: told.shown.toList
      ++ execution.result.summaryLines
    processes := execution.state
    host := log.store told.emitter.writer execution.host }

/-- Execute the plan, and write the report. -/
def carryOut
    (around : Surroundings)
    (options : Options)
    (project : Project)
    (log : CommandLog)
    (emitter : Emitter)
    (host : Host) :
    CommandResult :=
  around.finish options (around.execution options project host).result
    (around.executed options project log emitter host)

/-- Locate the project, open the log, and execute the plan. -/
def perform (around : Surroundings) (options : Options) : CommandResult :=
  match Project.locate around.host options.root with
  | .error error => around.refuse around.host (.root error)
  | .ok project =>
    match CommandLog.start options.log around.host with
    | (.error error, host) => around.refuse host error
    | (.ok log, host) =>
      match around.warn log host.clock with
      | (some why, emitter) => around.refuse (log.store emitter.writer host) (.logEntry why)
      | (none, emitter) => around.carryOut options project log emitter host

/-- Do what the arguments ask for. -/
def run (around : Surroundings) (arguments : List String) : CommandResult :=
  match Request.ofArguments arguments with
  | .error error =>
    { exitCode := failureCode, messages := error.lines, host := around.host }
  | .ok .help => { exitCode := 0, output := helpLines, host := around.host }
  | .ok (.run options) =>
    if options.dryRun then around.preview options else around.perform options

end Surroundings

end VerifyPipeline
