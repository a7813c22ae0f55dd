import VerifyPipeline.Report.Basic

/-!
# Reports in Markdown

The Markdown text of a report has a head with its counts, the warnings, a table with a row for every
record, why the run stopped, and a list of the failures with the commands that run them again.
-/

namespace VerifyPipeline

namespace StepRecord

/-- The row of the table for a record, which counts from one.  With the greatest word as the index
there is no word for the count; no run has a step at that index. -/
def row (record : StepRecord) : String :=
  "| " ++ toString (record.index + 1) ++ " | " ++ record.tier.label ++ " | " ++ record.tool.label
    ++ " | " ++ record.features ++ " | " ++ record.workspace ++ " | " ++ record.policy.label
    ++ " | " ++ (if record.passed then "PASS" else "FAIL") ++ " | "
    ++ toString record.durationMs ++ " |"

/-- The item of the list of failures for a record. -/
def bullet (record : StepRecord) : String :=
  "- `" ++ record.stepId ++ "` (" ++ record.status.label ++ "): in `" ++ record.workspace
    ++ "` run `" ++ record.command ++ "`"

end StepRecord

namespace RunReport

/-- The lines above everything else. -/
def headLines (report : RunReport) : List String := [
  "# " ++ report.title,
  "",
  "- Run: " ++ report.result.runId,
  "- Plan fingerprint: " ++ report.result.planFingerprint,
  "- Timestamp: " ++ report.timestamp,
  "- Program: " ++ report.program,
  "- Interrupt policy: " ++ report.interruptPolicy.label,
  "- Verdict: " ++ report.summary.verdict.announced,
  "- Planned: " ++ toString report.summary.planned,
  "- Passed: " ++ toString report.summary.passed,
  "- Failed: " ++ toString report.summary.failed,
  "- Skipped: " ++ toString report.summary.skipped,
  ""]

/-- The lines of the warnings. -/
def warningLines (report : RunReport) : List String :=
  match report.warnings with
  | [] => []
  | warnings => ["## Warnings", ""] ++ warnings.map ("- " ++ ·) ++ [""]

/-- The lines above the rows of the table. -/
def tableHead : List String := [
  "| # | Tier | Tool | Features | Workspace | Policy | Status | ms |",
  "|---|------|------|----------|-----------|--------|--------|----|"]

/-- The lines that tell why the run stopped. -/
def terminationLines (report : RunReport) : List String :=
  match report.result.termination.text? with
  | none => []
  | some line => ["", line]

/-- The lines of the failures. -/
def failureLines (report : RunReport) : List String :=
  match report.result.failures with
  | [] => []
  | failures => ["", "## Failures", ""] ++ failures.map StepRecord.bullet

/-- The lines of the report. -/
def markdownLines (report : RunReport) : List String :=
  report.headLines ++ report.warningLines ++ tableHead ++ report.result.records.map StepRecord.row
    ++ report.terminationLines ++ report.failureLines

/-- The Markdown text of the report. -/
def markdown (report : RunReport) : String := Text.ofLines report.markdownLines

end RunReport

end VerifyPipeline
