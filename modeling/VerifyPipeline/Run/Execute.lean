import VerifyPipeline.Plan.Fingerprint
import VerifyPipeline.Run.Event
import VerifyPipeline.Runner.Basic

/-!
# Executing a plan

The steps of a plan are executed in order, each inside its workspace.  A failing step whose policy
is to abort ends the run, and so does a workspace that cannot be entered; under the interrupt policy
`abort`, so does every interruption.  What is told about the run follows from the events and has no
influence on it.
-/

namespace VerifyPipeline

/-- What executes plans: a runner, the project whose workspaces are entered, and what an
interruption does. -/
structure Pipeline (σ : Type) where
  runner : Runner σ
  project : Project
  interruptPolicy : InterruptPolicy

/-- What has come of executing steps. -/
structure Passage (σ : Type) where
  records : List StepRecord
  termination : Termination
  occurrences : List Occurrence
  state : σ
  host : Host

/-- What has come of executing a plan. -/
structure Execution (σ : Type) where
  result : RunResult
  occurrences : List Occurrence
  state : σ
  host : Host

/-- The greatest number of milliseconds that a duration is recorded with. -/
def durationLimit : Nat := UInt64.size - 1

/-- The whole milliseconds between two clock readings. -/
def millisecondsBetween (first last : Instant) : Nat :=
  min (Int.toNat (last - first) / 1000000) durationLimit

/-- Why a run stops after a step that ended with a status, if it does. -/
def abortReason?
    (interruptPolicy : InterruptPolicy)
    (policy : FailurePolicy)
    (status : StepStatus) :
    Option AbortReason :=
  match status with
  | .passed => none
  | .interrupted signal =>
    if interruptPolicy = .abort || policy.aborts then some (.interrupted signal) else none
  | _ => if policy.aborts then some .stepFailed else none

namespace Pipeline

/-- Execute steps, the first of which has the position `index` in its plan. -/
def runSteps (pipeline : Pipeline σ) : Nat → List Step → σ → Host → Passage σ
  | _, [], state, host => ⟨[], .completed, [], state, host⟩
  | index, step :: rest, state, host =>
    let command := step.renderCommands pipeline.runner.program
    let started : Occurrence := ⟨host.clock, .stepStarted index step command⟩
    match host.within pipeline.project step.workspace (pipeline.runner.run step state) with
    | .error why =>
      { records := []
        termination := .aborted index (some step.id) (.workspaceUnavailable why.text)
        occurrences := [started, ⟨host.clock, .workspaceUnavailable index step why.text⟩]
        state := state
        host := host }
    | .ok ((status, after), left, failure?) =>
      let durationMs := millisecondsBetween host.clock left.clock
      let record := StepRecord.ofStep index step command status durationMs
      let restored := failure?.toList.map fun failure => ⟨left.clock, .restoreFailed failure⟩
      let finished := ⟨left.clock, .stepFinished index step command status durationMs⟩
      let occurrences := started :: restored ++ [finished]
      match abortReason? pipeline.interruptPolicy step.policy status with
      | some reason =>
        { records := [record]
          termination := .aborted index (some step.id) reason
          occurrences := occurrences
          state := after
          host := left }
      | none =>
        let later := pipeline.runSteps (index + 1) rest after left
        { records := record :: later.records
          termination := later.termination
          occurrences := occurrences ++ later.occurrences
          state := later.state
          host := later.host }

/-- The occurrences of skipping steps, the first of which has the position `index`. -/
def skipSteps (clock : Instant) : Nat → List Step → List Occurrence
  | _, [] => []
  | index, step :: rest => ⟨clock, .stepSkipped index step⟩ :: skipSteps clock (index + 1) rest

/-- The result of a run of a plan. -/
def resultOf (plan : Plan) (records : List StepRecord) (termination : Termination) : RunResult where
  runId := plan.runId
  planFingerprint := plan.fingerprint
  planned := plan.size
  records := records
  termination := termination

/-- Execute a plan while no workspace is held. -/
def executeFree (pipeline : Pipeline σ) (plan : Plan) (state : σ) (host : Host) : Execution σ :=
  let passage := pipeline.runSteps 0 plan.steps state host
  let result := resultOf plan passage.records passage.termination
  let clock := passage.host.clock
  let skipped := skipSteps clock passage.records.length (plan.steps.drop passage.records.length)
  { result := result
    occurrences :=
      ⟨host.clock, .started plan.size plan.fingerprint pipeline.interruptPolicy⟩
        :: passage.occurrences ++ skipped ++ [⟨clock, .ended result⟩]
    state := passage.state
    host := passage.host }

/-- Refuse to execute a plan because a workspace is held. -/
def refuse (plan : Plan) (held : String) (state : σ) (host : Host) : Execution σ where
  result := resultOf plan [] (.aborted 0 none (.reentrant held))
  occurrences := [⟨host.clock, .reentered held⟩]
  state := state
  host := host

/-- Execute a plan.  Nothing is executed if a workspace is held. -/
def execute (pipeline : Pipeline σ) (plan : Plan) (state : σ) (host : Host) : Execution σ :=
  match host.held? with
  | some held => refuse plan held.name state host
  | none => pipeline.executeFree plan state host

end Pipeline

end VerifyPipeline
