import VerifyPipeline.Calendar
import VerifyPipeline.Json.Writer
import VerifyPipeline.Plan.Step
import VerifyPipeline.Runner.Status

/-!
# Log entries

An entry of the structured log says when something happened, and what; the rest of it, which may be
missing, says to which step of which run.  An entry is written as one line of JSON.
-/

namespace VerifyPipeline

/-- How serious an entry is. -/
inductive LogLevel where
  | info
  | warn
  | error
  deriving Repr, DecidableEq

namespace LogLevel

def label : LogLevel → String
  | .info => "info"
  | .warn => "warn"
  | .error => "error"

/-- All levels. -/
def all : List LogLevel := [.info, .warn, .error]

def toJson (level : LogLevel) : Json := .string level.label

/-- Levels from their names. -/
def decoder : Json.Decoder LogLevel := .choice (all.map fun level => (level.label, level))

end LogLevel

/-- What became of a step. -/
inductive Outcome where
  | pass
  | fail
  /-- Never started, because the run ended before. -/
  | skip
  | error
  | interrupted
  deriving Repr, DecidableEq

namespace Outcome

def label : Outcome → String
  | .pass => "pass"
  | .fail => "fail"
  | .skip => "skip"
  | .error => "error"
  | .interrupted => "interrupted"

/-- All outcomes. -/
def all : List Outcome := [.pass, .fail, .skip, .error, .interrupted]

/-- The outcome of a step that ended with a status. -/
def ofStatus : StepStatus → Outcome
  | .passed => .pass
  | .failed _ _ => .fail
  | .interrupted _ => .interrupted
  | .launchFailed _ => .error

def toJson (outcome : Outcome) : Json := .string outcome.label

/-- Outcomes from their names. -/
def decoder : Json.Decoder Outcome := .choice (all.map fun outcome => (outcome.label, outcome))

end Outcome

/-- One entry of the structured log. -/
structure LogEntry where
  timestamp : String
  traceId : String
  level : LogLevel
  event : String
  runId : Option String := none
  /-- The position of the step in its plan. -/
  stepIndex : Option Nat := none
  stepId : Option String := none
  tier : Option String := none
  tool : Option String := none
  workspace : Option String := none
  features : Option String := none
  policy : Option String := none
  command : Option String := none
  outcome : Option Outcome := none
  exitCode : Option Int32 := none
  signal : Option Int32 := none
  durationMs : Option Nat := none
  /-- Anything else, in canonical form. -/
  details : Option Json := none

namespace LogEntry

/-- An entry about nothing but an event. -/
def create (now : Instant) (traceId : String) (level : LogLevel) (event : String) : LogEntry where
  timestamp := now.text
  traceId := traceId
  level := level
  event := event

/-- The entry with what identifies a step. -/
def withStep (entry : LogEntry) (index : Nat) (step : Step) : LogEntry :=
  { entry with
    stepIndex := some index
    stepId := some step.id
    tier := some step.tier.label
    tool := some step.tool.label
    workspace := some step.workspace.name
    features := some step.features.label
    policy := some step.policy.label }

/-- The entry with command lines. -/
def withCommand (entry : LogEntry) (command : String) : LogEntry :=
  { entry with command := some command }

/-- The entry with an outcome. -/
def withOutcome (entry : LogEntry) (outcome : Outcome) : LogEntry :=
  { entry with outcome := some outcome }

/-- The entry with an exit code. -/
def withExitCode (entry : LogEntry) (code : Int32) : LogEntry :=
  { entry with exitCode := some code }

/-- The entry with a duration. -/
def withDurationMs (entry : LogEntry) (milliseconds : Nat) : LogEntry :=
  { entry with durationMs := some milliseconds }

/-- The entry with anything else. -/
def withDetails (entry : LogEntry) (details : Json) : LogEntry :=
  { entry with details := some details.canonical }

/-- The entry with what a status says.  The words for a failed start go into the details, which
otherwise stay. -/
def withStatus (entry : LogEntry) (status : StepStatus) : LogEntry :=
  { entry with
    outcome := some (.ofStatus status)
    exitCode := status.exitCode?
    signal := status.signal?
    details :=
      match status with
      | .launchFailed message => some (.object [("launch_error", .string message)])
      | _ => entry.details }

/-- A member that is left out when there is nothing to write. -/
def member (key : String) (encode : α → Json) : Option α → List (String × Json)
  | none => []
  | some a => [(key, encode a)]

def toJson (entry : LogEntry) : Json :=
  .object (
    [("timestamp", .string entry.timestamp), ("trace_id", .string entry.traceId),
      ("level", entry.level.toJson), ("event", .string entry.event)]
    ++ member "run_id" .string entry.runId
    ++ member "step_index" .count entry.stepIndex
    ++ member "step_id" .string entry.stepId
    ++ member "tier" .string entry.tier
    ++ member "tool" .string entry.tool
    ++ member "workspace" .string entry.workspace
    ++ member "features" .string entry.features
    ++ member "policy" .string entry.policy
    ++ member "command" .string entry.command
    ++ member "outcome" Outcome.toJson entry.outcome
    ++ member "exit_code" StepStatus.word entry.exitCode
    ++ member "signal" StepStatus.word entry.signal
    ++ member "duration_ms" .count entry.durationMs
    ++ member "details" (fun details => details) entry.details)

/-- The line of the log, without its end. -/
def line (entry : LogEntry) : String := entry.toJson.compact

def decoder : Json.Decoder LogEntry :=
  .record "LogEntry"
    (.field "timestamp" .string <| .field "trace_id" .string <|
      .field "level" LogLevel.decoder <| .field "event" .string <|
      .field "run_id" (.optional .string) <| .field "step_index" (.optional .size) <|
      .field "step_id" (.optional .string) <| .field "tier" (.optional .string) <|
      .field "tool" (.optional .string) <| .field "workspace" (.optional .string) <|
      .field "features" (.optional .string) <| .field "policy" (.optional .string) <|
      .field "command" (.optional .string) <| .field "outcome" (.optional Outcome.decoder) <|
      .field "exit_code" (.optional .int32) <| .field "signal" (.optional .int32) <|
      .field "duration_ms" (.optional .wide) <| .field "details" (.optional .any) .done)
    fun (timestamp, traceId, level, event, runId, stepIndex, stepId, tier, tool, workspace,
        features, policy, command, outcome, exitCode, signal, durationMs, details, ()) =>
      { timestamp, traceId, level, event, runId, stepIndex, stepId, tier, tool, workspace,
        features, policy, command, outcome, exitCode, signal, durationMs, details }

end LogEntry

end VerifyPipeline
