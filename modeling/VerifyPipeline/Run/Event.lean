import VerifyPipeline.Log.Entry
import VerifyPipeline.Run.InterruptPolicy
import VerifyPipeline.Run.Result
import VerifyPipeline.Workspace.Slot

/-!
# What happens in a run

A run is a sequence of events, each with the clock reading at which it happened.  An event is told
by notices: lines for the user, and entries of the structured log.
-/

namespace VerifyPipeline

/-- Something that happens in a run. -/
inductive RunEvent where
  /-- A run was to start while a workspace was held. -/
  | reentered (held : String)
  | started (planned : Nat) (fingerprint : String) (policy : InterruptPolicy)
  | stepStarted (index : Nat) (step : Step) (command : String)
  | workspaceUnavailable (index : Nat) (step : Step) (message : String)
  | restoreFailed (failure : RestoreFailure)
  | stepFinished
      (index : Nat)
      (step : Step)
      (command : String)
      (status : StepStatus)
      (durationMs : Nat)
  | stepSkipped (index : Nat) (step : Step)
  | ended (result : RunResult)
  deriving DecidableEq

/-- An event and the clock reading at which it happened. -/
structure Occurrence where
  clock : Instant
  event : RunEvent
  deriving DecidableEq

/-- A part of what is told about a run. -/
inductive Notice where
  /-- A line for users who want to see the progress. -/
  | progress (line : String)
  /-- A line for every user. -/
  | warning (line : String)
  /-- An entry of the log, which gets its trace id when it is emitted. -/
  | entry (entry : LogEntry)
  /-- The log is to be flushed. -/
  | flush

namespace RunEvent

/-- An entry of the log without a trace id. -/
def entryAt (clock : Instant) (level : LogLevel) (event : String) : LogEntry :=
  .create clock "" level event

/-- The entry about the end of a run. -/
def endEntry (clock : Instant) (result : RunResult) : LogEntry :=
  let entry :=
    if result.termination.isCompleted then entryAt clock .info "pipeline_complete"
    else entryAt clock .error "pipeline_aborted"
  (entry.withExitCode (.ofNat result.exitCode)).withDetails
    (.object [
      ("executed", .count result.records.length),
      ("passed", .count result.passedCount),
      ("failed", .count result.failedCount),
      ("skipped", .count result.skippedCount)])

/-- The entry of the log about an event, if there is one. -/
def entry? (clock : Instant) : RunEvent → Option LogEntry
  | reentered held =>
    some ((entryAt clock .error "pipeline_reentered").withDetails
      (.object [("held_workspace", .string held)]))
  | started planned fingerprint policy =>
    some ((entryAt clock .info "pipeline_start").withDetails
      (.object [
        ("planned", .count planned),
        ("plan_fingerprint", .string fingerprint),
        ("interrupt_policy", .string policy.label)]))
  | stepStarted index step command =>
    some (((entryAt clock .info "step_start").withStep index step).withCommand command)
  | workspaceUnavailable index step message =>
    some (((entryAt clock .error "workspace_unavailable").withStep index step).withDetails
      (.object [("error", .string message)]))
  | restoreFailed _ => none
  | stepFinished index step command status durationMs =>
    let level := if status.isSuccess then LogLevel.info else LogLevel.error
    some (((((entryAt clock level "step_result").withStep index step).withCommand
      command).withStatus status).withDurationMs durationMs)
  | stepSkipped index step =>
    some (((entryAt clock .warn "step_skipped").withStep index step).withOutcome .skip)
  | ended result => some (endEntry clock result)

/-- What stands before every line about a step. -/
def stepMark (total index : Nat) : String :=
  "[" ++ toString (index + 1) ++ "/" ++ toString total ++ "] "

/-- The lines that are shown before the entry of the log. -/
def linesBefore (total : Nat) : RunEvent → List Notice
  | stepStarted index step command =>
    [.progress (stepMark total index ++ step.id ++ " :: " ++ command)]
  | workspaceUnavailable index _ message =>
    [.progress (stepMark total index ++ "workspace error: " ++ message)]
  | restoreFailed failure => [.warning failure.text]
  | _ => []

/-- What comes after the entry of the log. -/
def noticesAfter (total : Nat) : RunEvent → List Notice
  | stepFinished index step _ status _ =>
    if status.isSuccess then []
    else
      [.progress (stepMark total index ++ step.id ++ " " ++ status.label ++ " ("
        ++ step.policy.label ++ ")")]
  | ended _ => [.flush]
  | _ => []

end RunEvent

/-- All that is told about an occurrence in a run of so many steps. -/
def Occurrence.notices (total : Nat) (occurrence : Occurrence) : List Notice :=
  occurrence.event.linesBefore total
    ++ ((occurrence.event.entry? occurrence.clock).map Notice.entry).toList
    ++ occurrence.event.noticesAfter total

end VerifyPipeline
