import VerifyPipeline.Run.Record
import VerifyPipeline.Run.Termination

/-!
# Results

The result of a run holds a record of every executed step, in the order of the plan, and how the run
ended.  The run has passed only if every step of the plan was executed and passed.
-/

namespace VerifyPipeline

/-- Whether a run has passed. -/
inductive Verdict where
  | passed
  | failed
  deriving Repr, DecidableEq

namespace Verdict

def label : Verdict → String
  | .passed => "passed"
  | .failed => "failed"

/-- The verdict as it is announced. -/
def announced : Verdict → String
  | .passed => "PASSED"
  | .failed => "FAILED"

def toJson (verdict : Verdict) : Json := .string verdict.label

/-- Verdicts from their names. -/
def decoder : Json.Decoder Verdict := .choice [("passed", .passed), ("failed", .failed)]

end Verdict

/-- The result of a run. -/
structure RunResult where
  runId : String
  planFingerprint : String
  /-- The number of steps of the plan. -/
  planned : Nat
  records : List StepRecord
  termination : Termination
  deriving Repr, DecidableEq

namespace RunResult

/-- Whether the run has passed. -/
def verdict (result : RunResult) : Verdict :=
  if result.termination.isCompleted && result.records.all StepRecord.passed then .passed
  else .failed

/-- Whether the run has passed. -/
def succeeded (result : RunResult) : Bool := result.verdict = .passed

/-- The exit code for the run. -/
def exitCode (result : RunResult) : Nat := if result.succeeded then 0 else 1

/-- The records of the steps that did not pass. -/
def failures (result : RunResult) : List StepRecord :=
  result.records.filter fun record => !record.passed

/-- The number of steps that passed. -/
def passedCount (result : RunResult) : Nat := result.records.countP StepRecord.passed

/-- The number of steps that were executed and did not pass. -/
def failedCount (result : RunResult) : Nat := result.records.length - result.passedCount

/-- The number of steps that were not executed. -/
def skippedCount (result : RunResult) : Nat := result.planned - result.records.length

def toJson (result : RunResult) : Json :=
  .object [
    ("run_id", .string result.runId),
    ("plan_fingerprint", .string result.planFingerprint),
    ("planned", .count result.planned),
    ("records", .array (result.records.map StepRecord.toJson)),
    ("termination", result.termination.toJson)]

def decoder : Json.Decoder RunResult :=
  .record "RunResult"
    (.field "run_id" .string <| .field "plan_fingerprint" .string <| .field "planned" .size <|
      .field "records" (.list StepRecord.decoder) <|
      .field "termination" Termination.decoder .done)
    fun (runId, planFingerprint, planned, records, termination, ()) =>
      ⟨runId, planFingerprint, planned, records, termination⟩

end RunResult

end VerifyPipeline
