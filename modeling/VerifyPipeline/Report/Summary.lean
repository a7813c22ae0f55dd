import VerifyPipeline.Run.Result
import VerifyPipeline.Text.Lines

/-!
# Summaries

The counts of a run and its verdict, and the text that tells a user what failed and how to run it
again.
-/

namespace VerifyPipeline

/-- The counts of a run and its verdict. -/
structure RunSummary where
  planned : Nat
  executed : Nat
  passed : Nat
  failed : Nat
  skipped : Nat
  verdict : Verdict
  deriving Repr, DecidableEq

namespace RunSummary

/-- The summary of a result. -/
def ofResult (result : RunResult) : RunSummary where
  planned := result.planned
  executed := result.records.length
  passed := result.passedCount
  failed := result.failedCount
  skipped := result.skippedCount
  verdict := result.verdict

def toJson (summary : RunSummary) : Json :=
  .object [
    ("planned", .count summary.planned),
    ("executed", .count summary.executed),
    ("passed", .count summary.passed),
    ("failed", .count summary.failed),
    ("skipped", .count summary.skipped),
    ("verdict", summary.verdict.toJson)]

def decoder : Json.Decoder RunSummary :=
  .record "RunSummary"
    (.field "planned" .size <| .field "executed" .size <| .field "passed" .size <|
      .field "failed" .size <| .field "skipped" .size <|
      .field "verdict" Verdict.decoder .done)
    fun (planned, executed, passed, failed, skipped, verdict, ()) =>
      ⟨planned, executed, passed, failed, skipped, verdict⟩

/-- The line that announces the verdict. -/
def headline (summary : RunSummary) : String :=
  match summary.verdict with
  | .passed =>
    "lexical-verify: PASSED (" ++ toString summary.passed ++ " of " ++ toString summary.planned
      ++ " steps)"
  | .failed =>
    "lexical-verify: FAILED (" ++ toString summary.passed ++ " passed, "
      ++ toString summary.failed ++ " failed, " ++ toString summary.skipped ++ " skipped of "
      ++ toString summary.planned ++ " planned)"

end RunSummary

/-- The lines that tell about a failure and how to run the step again. -/
def StepRecord.failureLines (record : StepRecord) : List String := [
  "  " ++ record.stepId ++ " [" ++ record.status.label ++ "]",
  "    tier: " ++ record.tier.label ++ "  tool: " ++ record.tool.label ++ "  features: "
    ++ record.features ++ "  workspace: " ++ record.workspace,
  "    re-run (in " ++ record.workspace ++ "): " ++ record.command]

namespace RunResult

/-- The lines of the summary for a user. -/
def summaryLines (result : RunResult) : List String :=
  (RunSummary.ofResult result).headline ::
    match result.verdict with
    | .passed => []
    | .failed =>
      result.failures.flatMap StepRecord.failureLines
        ++ (result.termination.text?.map ("  " ++ ·)).toList

/-- The summary for a user. -/
def summaryText (result : RunResult) : String := Text.ofLines result.summaryLines

end RunResult

end VerifyPipeline
