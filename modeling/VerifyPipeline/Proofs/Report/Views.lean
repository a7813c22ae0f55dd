import VerifyPipeline.Proofs.Report.Reading
import VerifyPipeline.Proofs.Run.Counts
import VerifyPipeline.Proofs.Run.Logging
import VerifyPipeline.Report.Basic

namespace VerifyPipeline

/-!
# The views of a run

The log of a run, the Markdown text of its report and the summary for a user are made from the same
result and say the same of it: they give the same counts, show the same steps as failed, and tell of
the same stop, whatever mix of failures the run came to.
-/

/-! ## What has to agree -/

/-- The position of the step that is marked as executed without passing. -/
def LogMark.failedIndex? (mark : LogMark) : Option Nat :=
  if mark.event = "step_result" ∧ mark.outcome ≠ some .pass then mark.stepIndex else none

/-- The positions of the steps that a log shows as executed without passing. -/
def LogEntry.failedIndexes (entries : List LogEntry) : List Nat :=
  entries.filterMap fun entry => entry.mark.failedIndex?

/-- The entry gives the counts of a summary. -/
structure LogEntry.Counts (entry : LogEntry) (summary : RunSummary) : Prop where
  executed : entry.detail? "executed" = some (.count summary.executed)
  passed : entry.detail? "passed" = some (.count summary.passed)
  failed : entry.detail? "failed" = some (.count summary.failed)
  skipped : entry.detail? "skipped" = some (.count summary.skipped)

/-- The line for a user about a run that has passed. -/
def RunSummary.passedLine (summary : RunSummary) : String :=
  "lexical-verify: PASSED (" ++ toString summary.passed ++ " of " ++ toString summary.planned
    ++ " steps)"

/-- The texts that are made from a report, and the entries of a log, are views of the same run. -/
structure RunReport.Agrees (report : RunReport) (entries : List LogEntry) : Prop where
  summary : report.summary = .ofResult report.result
  /-- The log ends with the exit code and the counts. -/
  ended :
    ∃ last,
      entries.getLast? = some last ∧
        last.exitCode = some (.ofNat report.result.exitCode) ∧
        last.Counts report.summary
  /-- The first line for a user gives the counts. -/
  headline :
    (Text.endedLines report.result.summaryText).head?.map (fun line => Text.numbers line.toList) =
      some
        (if report.result.exitCode = 0 then [report.summary.passed, report.summary.planned]
        else [report.summary.passed, report.summary.failed, report.summary.skipped,
          report.summary.planned])
  /-- The table shows those steps as failed that the log does. -/
  rows :
    (Markdown.rows (Text.endedLines report.markdown)).filterMap Markdown.failedIndex? =
      LogEntry.failedIndexes entries
  /-- Their records are the items of the section about failures. -/
  bullets :
    (Markdown.bullets (Text.endedLines report.markdown)).map some =
      (LogEntry.failedIndexes entries).map fun index =>
        report.result.records[index]?.map StepRecord.bullet
  /-- Their records are the blocks for a user. -/
  blocks :
    (Summary.blocks (Text.endedLines report.result.summaryText)).map some =
      (LogEntry.failedIndexes entries).map fun index =>
        report.result.records[index]?.map StepRecord.failureLines
  titled :
    Markdown.failuresTitle ∈ Text.endedLines report.markdown ↔
      LogEntry.failedIndexes entries ≠ []
  /-- Both texts tell of a stop exactly if there was one, and in the same words. -/
  stop :
    stopLines 0 (Text.endedLines report.markdown) =
      report.result.termination.text?.toList
  sameStop :
    stopLines 2 (Text.endedLines report.result.summaryText) =
      report.result.termination.text?.toList
  stopped :
    report.result.termination.text?.isSome ↔
      ∃ index id reason, report.result.termination = .aborted index id reason
  passed :
    Text.endedLines report.result.summaryText = [report.summary.passedLine] ↔
      report.result.exitCode = 0

/-! ## The steps that the log shows as failed -/

namespace RunResult

/-- The marks of records tell which of them have failed. -/
theorem filterMap_recordMarks
    {records : List StepRecord}
    {start : Nat}
    (indexed : records.map StepRecord.index = List.range' start records.length) :
    (recordMarks start records).filterMap LogMark.failedIndex? =
      (records.filter fun record => !record.passed).map StepRecord.index := by
  induction records generalizing start with
  | nil =>
      rfl
  | cons record others inductionHypothesis =>
      rw [List.map_cons, List.length_cons, List.range'_succ, List.cons.injEq] at indexed
      obtain ⟨rfl, later⟩ := indexed
      have others := inductionHypothesis later
      have first :
          (record.marks record.index).filterMap LogMark.failedIndex? =
            if record.passed then [] else [record.index] := by
        unfold StepRecord.marks StepRecord.passed
        cases record.status <;> rfl
      rw [recordMarks, List.zipIdx_cons, List.flatMap_cons, List.filterMap_append, first,
        ← recordMarks, others]
      cases passed : record.passed <;> simp [passed]

/-- The log of a result shows the failures of the result as failed. -/
theorem filterMap_marks
    {result : RunResult}
    (indexed : result.records.map StepRecord.index = List.range result.records.length) :
    result.marks.filterMap LogMark.failedIndex? = result.failures.map StepRecord.index := by
  rw [List.range_eq_range'] at indexed
  have barred : result.termination.barredMarks.filterMap LogMark.failedIndex? = [] := by
    unfold Termination.barredMarks
    split <;> rfl
  have skipped (positions : List Nat) :
      (positions.map skippedMark).filterMap LogMark.failedIndex? = [] := by
    rw [List.filterMap_map]
    exact List.filterMap_eq_nil_iff.mpr fun _ _ => rfl
  have ended : [result.endMark].filterMap LogMark.failedIndex? = [] := by
    unfold endMark
    split <;> rfl
  have started : [{ event := "pipeline_start" }].filterMap LogMark.failedIndex? = [] := rfl
  simp only [marks, List.filterMap_append, filterMap_recordMarks indexed, barred, skipped, ended,
    started, List.append_nil, List.nil_append, failures]

/-- A record stands at its position. -/
theorem getElem?_index
    {result : RunResult}
    (indexed : result.records.map StepRecord.index = List.range result.records.length)
    {record : StepRecord}
    (member : record ∈ result.records) :
    result.records[record.index]? = some record := by
  obtain ⟨position, found⟩ := List.mem_iff_getElem?.mp member
  have bound := (List.getElem?_eq_some_iff.mp found).1
  have same := congrArg (fun indexes => indexes[position]?) indexed
  simp only [List.getElem?_map, found, Option.map_some, List.getElem?_range bound,
    Option.some.injEq] at same
  rwa [same]

/-- What is made of the failures is what is made of the records at their positions. -/
theorem map_failures
    {result : RunResult}
    (indexed : result.records.map StepRecord.index = List.range result.records.length)
    (view : StepRecord → β) :
    (result.failures.map view).map some =
      (result.failures.map StepRecord.index).map fun index =>
        result.records[index]?.map view := by
  rw [List.map_map, List.map_map]
  refine List.map_congr_left fun record failed => ?_
  simp [getElem?_index indexed (List.mem_filter.mp failed).1]

/-- The exit code tells the verdict. -/
theorem exitCode_eq_zero_iff_verdict (result : RunResult) :
    result.exitCode = 0 ↔ result.verdict = .passed := by
  rw [exitCode_eq_zero_iff, succeeded, decide_eq_true_iff]

/-- The only line for a user is the one about a run that has passed, if it has.  The lines about a
passed and about another run part at the verdict. -/
theorem summaryLines_eq_iff (result : RunResult) :
    result.summaryLines = [(RunSummary.ofResult result).passedLine] ↔ result.exitCode = 0 := by
  have verdict : (RunSummary.ofResult result).verdict = result.verdict := rfl
  rw [exitCode_eq_zero_iff_verdict, summaryLines]
  unfold RunSummary.headline RunSummary.passedLine
  rw [verdict]
  cases result.verdict with
  | passed =>
      exact ⟨fun _ => rfl, fun _ => rfl⟩
  | failed =>
      refine ⟨fun same => ?_, nofun⟩
      have letter := congrArg (fun line => line.toList[16]?) (List.cons.inj same).1
      simp at letter

end RunResult

/-- If no text breaks a line and the records stand at their positions, the texts made from a report
agree with a log that tells its result. -/
theorem RunReport.agrees
    {report : RunReport}
    {entries : List LogEntry}
    (unbroken : report.Unbroken)
    (counted : report.summary = .ofResult report.result)
    (indexed :
      report.result.records.map StepRecord.index = List.range report.result.records.length)
    (named : ∀ record ∈ report.result.records, record.stepId.toList.head? ≠ some 'R')
    (told : report.result.ToldBy entries) :
    report.Agrees entries := by
  have failed :
      LogEntry.failedIndexes entries = report.result.failures.map StepRecord.index := by
    rw [← RunResult.filterMap_marks indexed, ← told.order, List.filterMap_map]
    rfl
  have markdown : Text.endedLines report.markdown = report.markdownLines :=
    Text.endedLines_ofLines unbroken.markdownLines
  have summary : Text.endedLines report.result.summaryText = report.result.summaryLines :=
    Text.endedLines_ofLines unbroken.result.summaryLines
  obtain ⟨last, isLast, closes⟩ := told.closes
  constructor
  case summary =>
    exact counted
  case ended =>
    refine ⟨last, isLast, closes.exitCode, ?_⟩
    rw [counted]
    exact ⟨closes.executed, closes.passed, closes.failed, closes.skipped⟩
  case headline =>
    have verdict : (RunSummary.ofResult report.result).verdict = report.result.verdict := rfl
    rw [summary, RunResult.summaryLines, List.head?_cons, Option.map_some,
      Summary.numbers_headline, counted, verdict]
    cases judged : report.result.verdict <;>
      simp [RunResult.exitCode_eq_zero_iff_verdict, judged]
  case rows =>
    have shown :
        Markdown.failedIndex? ∘ StepRecord.row =
          fun record => if !record.passed then some record.index else none := by
      funext record
      cases passed : record.passed <;> simp [StepRecord.failedIndex?_row, passed]
    rw [markdown, Markdown.rows_markdownLines, failed, List.filterMap_map, shown,
      RunResult.failures, ← List.filterMap_eq_map, List.filterMap_filter]
    rfl
  case bullets =>
    rw [markdown, Markdown.bullets_markdownLines, failed, RunResult.map_failures indexed]
  case blocks =>
    rw [summary, Summary.blocks_summaryLines, failed, RunResult.map_failures indexed]
  case titled =>
    rw [markdown, Markdown.failuresTitle_mem_markdownLines_iff, failed, Ne, Ne,
      List.map_eq_nil_iff]
  case stop =>
    rw [markdown, Markdown.stopLines_markdownLines]
  case sameStop =>
    rw [summary, Summary.stopLines_summaryLines named]
  case stopped =>
    cases report.result.termination <;> simp [Termination.text?]
  case passed =>
    rw [summary, counted, RunResult.summaryLines_eq_iff]

/-! ## The texts of a run -/

open Text

/-- The names in a step break no line. -/
structure Step.Unbroken (step : Step) : Prop where
  workspace : Text.Unbroken step.workspace.name
  features : ∀ name ∈ step.features.names, Text.Unbroken name

namespace Step

variable {step : Step}

theorem Unbroken.id
    (unbroken : step.Unbroken) :
    Text.Unbroken step.id :=
  step.forall_mem_id ofVisible_unbroken unbroken.workspace unbroken.features

/-- A record of the step breaks no line. -/
theorem Unbroken.record
    (unbroken : step.Unbroken)
    {program : String}
    (unbrokenProgram : Text.Unbroken program)
    {record : StepRecord}
    {index : Nat}
    (isOf : record.IsOf program index step) :
    record.Unbroken := by
  rw [isOf]
  exact {
    stepId := unbroken.id
    workspace := unbroken.workspace
    features := FeatureSelection.forall_mem_label ofVisible_unbroken unbroken.features
    command := step.forall_mem_renderCommands ofVisible_unbroken unbrokenProgram unbroken.features
  }

end Step

theorem unbroken_toString_int (n : Int) : Text.Unbroken (toString n) := by
  cases n with
  | ofNat n =>
      exact unbroken_toString n
  | negSucc n =>
      exact unbroken_append.mpr ⟨by decide, unbroken_toString (n + 1)⟩

/-- The line about a stop breaks only if the step's identity or the reason does. -/
theorem Termination.unbroken_text?
    {termination : Termination}
    (unbroken :
      ∀ index stepId reason,
        termination = .aborted index stepId reason →
          (∀ id ∈ stepId, Text.Unbroken id) ∧ Text.Unbroken reason.text) :
    ∀ line ∈ termination.text?, Text.Unbroken line := by
  cases termination with
  | completed =>
      exact nofun
  | aborted index stepId reason =>
      obtain ⟨identity, reason⟩ := unbroken index stepId reason rfl
      rintro line ⟨rfl⟩
      cases stepId with
      | none =>
          simp only [unbroken_append, unbroken_toString, reason, and_true]
          decide
      | some id =>
          simp only [unbroken_append, unbroken_toString, reason, identity id rfl, and_true]
          decide

theorem Plan.unbroken_fingerprint (plan : Plan) : Text.Unbroken plan.fingerprint :=
  ofVisible_unbroken.forall_mem_hexDigest _

theorem Plan.unbroken_runId (plan : Plan) : Text.Unbroken plan.runId := by
  refine unbroken_append.mpr ⟨by decide, ?_⟩
  rw [Text.Unbroken, String.toList_ofList]
  exact fun c member => plan.unbroken_fingerprint c (List.mem_of_mem_take member)

namespace Pipeline

/-- A step that was executed gives a reason to stop that breaks no line. -/
theorem unbroken_reason?
    {pipeline : Pipeline σ}
    {call : Call σ}
    {reason : AbortReason}
    (stops : pipeline.reason? call = some reason) :
    Text.Unbroken reason.text := by
  obtain ⟨_, rfl⟩ := (pipeline.reason?_eq_some_iff call 0 reason).mp stops
  unfold StepRecord.stopReason
  split
  · exact unbroken_append.mpr ⟨by decide, unbroken_toString_int _⟩
  · decide

/-- Every record is that of a step of the plan. -/
theorem Passes.exists_step
    {pipeline : Pipeline σ}
    {steps : List Step}
    {state : σ}
    {host : Host}
    {calls : List (Call σ)}
    {passage : Passage σ}
    (passes : pipeline.Passes 0 steps state host calls passage)
    {record : StepRecord}
    (member : record ∈ passage.records) :
    ∃ index, ∃ step ∈ steps, record.IsOf pipeline.runner.program index step := by
  obtain ⟨step, isStep, isOf⟩ := passes.step_of_record member
  exact ⟨record.index, step, List.mem_of_getElem? isStep, isOf⟩

/-- No text in the result of a run breaks a line, unless a name or a message does. -/
theorem Passes.unbroken
    {pipeline : Pipeline σ}
    {plan : Plan}
    {state : σ}
    {host : Host}
    {calls : List (Call σ)}
    {passage : Passage σ}
    (passes : pipeline.Passes 0 plan.steps state host calls passage)
    (steps : ∀ step ∈ plan.steps, step.Unbroken)
    (program : Text.Unbroken pipeline.runner.program)
    (messages :
      ∀ index stepId message,
        passage.termination = .aborted index stepId (.workspaceUnavailable message) →
          Text.Unbroken message) :
    (resultOf plan passage.records passage.termination).Unbroken where
  runId := plan.unbroken_runId
  planFingerprint := plan.unbroken_fingerprint
  records := by
    intro record member
    obtain ⟨index, step, isStep, isOf⟩ := passes.exists_step member
    exact (steps step isStep).record program isOf
  reason := by
    refine Termination.unbroken_text? fun index stepId reason aborted => ?_
    have ending := passes.ending
    change passage.termination = _ at aborted
    rw [aborted] at ending
    cases ending with
    | @stopped earlier call _ _ quiet stops =>
        have isStep := passes.step_of_call (@List.getElem?_concat_length _ earlier call)
        refine ⟨?_, unbroken_reason? stops⟩
        rintro _ ⟨rfl⟩
        exact (steps call.step (List.mem_of_getElem? isStep)).id
    | @barred _ _ step why quiet isStep refused =>
        refine ⟨?_, messages _ _ _ aborted⟩
        rintro _ ⟨rfl⟩
        exact (steps step (List.mem_of_getElem? isStep)).id

end Pipeline

end VerifyPipeline
