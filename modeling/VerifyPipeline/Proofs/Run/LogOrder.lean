import VerifyPipeline.Proofs.Run.Calls

namespace VerifyPipeline

/-!
# The order of a log

A run that finds the workspace slot free is logged from its start to its end, step by step and in
the order of the plan: first the records, then the workspace that could not be entered, if there was
one, and then the steps that were not executed.
-/

/-- What tells the entries of a run apart. -/
structure LogMark where
  event : String
  stepIndex : Option Nat := none
  outcome : Option Outcome := none
  deriving Repr, DecidableEq

def LogEntry.mark (entry : LogEntry) : LogMark := ⟨entry.event, entry.stepIndex, entry.outcome⟩

/-- The entry of the log about an occurrence, if there is one. -/
def Occurrence.entry? (occurrence : Occurrence) : Option LogEntry :=
  occurrence.event.entry? occurrence.clock

/-- The marks of the entries about occurrences. -/
def marksOf (occurrences : List Occurrence) : List LogMark :=
  (occurrences.filterMap Occurrence.entry?).map LogEntry.mark

/-- The entries about a run, as they are before they are emitted. -/
def Execution.entries (execution : Execution σ) : List LogEntry :=
  execution.occurrences.filterMap Occurrence.entry?

/-- The marks of an executed step. -/
def StepRecord.marks (index : Nat) (record : StepRecord) : List LogMark := [
  { event := "step_start", stepIndex := some index },
  { event := "step_result", stepIndex := some index, outcome := some (.ofStatus record.status) }]

/-- The marks of a step whose workspace could not be entered. -/
def Termination.barredMarks : Termination → List LogMark
  | .aborted index _ (.workspaceUnavailable _) => [
    { event := "step_start", stepIndex := some index },
    { event := "workspace_unavailable", stepIndex := some index }]
  | _ => []

/-- The mark of a step that was not executed. -/
def skippedMark (index : Nat) : LogMark :=
  { event := "step_skipped", stepIndex := some index, outcome := some .skip }

namespace RunResult

/-- The marks of the records, the first of which has the position `index`. -/
def recordMarks (index : Nat) (records : List StepRecord) : List LogMark :=
  (records.zipIdx index).flatMap fun (record, position) => record.marks position

/-- The marks of the end of a run. -/
def endMark (result : RunResult) : LogMark :=
  { event := if result.termination.isCompleted then "pipeline_complete" else "pipeline_aborted" }

/-- The marks of a run that has come to a result. -/
def marks (result : RunResult) : List LogMark :=
  [{ event := "pipeline_start" }]
    ++ recordMarks 0 result.records
    ++ result.termination.barredMarks
    ++ (List.range' result.records.length (result.planned - result.records.length)).map skippedMark
    ++ [result.endMark]

end RunResult

namespace Pipeline

theorem marksOf_append (first second : List Occurrence) :
    marksOf (first ++ second) = marksOf first ++ marksOf second := by
  simp [marksOf]

/-- What happens around a call is logged as its record says. -/
theorem marksOf_call
    (call : Call σ)
    (program : String)
    (index : Nat) :
    marksOf (call.occurrences program index) = (call.record program index).marks index := by
  cases restored : call.left.leave.2 <;>
    simp [marksOf, Call.occurrences, restored, Occurrence.entry?, RunEvent.entry?] <;>
    rfl

/-- A run that was stopped by a step leaves no marks about a workspace. -/
theorem barredMarks_of_reason?
    {pipeline : Pipeline σ}
    {call : Call σ}
    {reason : AbortReason}
    (stops : pipeline.reason? call = some reason)
    (index : Nat)
    (stepId : Option String) :
    (Termination.aborted index stepId reason).barredMarks = [] := by
  cases reason with
  | workspaceUnavailable message =>
      unfold reason? abortReason? at stops
      repeat' split at stops
      all_goals cases stops
  | _ =>
      rfl

/-- Executing steps is logged record by record.  A step that was executed gives no reason that would
leave marks of its own. -/
theorem marksOf_runSteps
    (pipeline : Pipeline σ)
    (index : Nat)
    (steps : List Step)
    (state : σ)
    (host : Host) :
    marksOf (pipeline.runSteps index steps state host).occurrences =
      RunResult.recordMarks index (pipeline.runSteps index steps state host).records
        ++ (pipeline.runSteps index steps state host).termination.barredMarks := by
  refine pipeline.runSteps_induction
    (motive := fun index _ _ passage =>
      marksOf passage.occurrences =
        RunResult.recordMarks index passage.records ++ passage.termination.barredMarks)
    ?nil ?barred ?stopped ?goesOn index steps state host
  case nil =>
    exact fun _ _ _ => rfl
  case barred =>
    exact fun _ _ _ _ _ _ _ => rfl
  case stopped =>
    intro index rest host call reason _ stops
    have quiet := barredMarks_of_reason? stops index (some call.step.id)
    simp [marksOf_call call pipeline.runner.program index, quiet, RunResult.recordMarks]
  case goesOn =>
    intro index rest host call later _ inductionHypothesis
    simp [marksOf_append, marksOf_call call pipeline.runner.program index, inductionHypothesis,
      RunResult.recordMarks, List.zipIdx_cons]

/-- Skipping steps is logged step by step. -/
theorem marksOf_skipSteps
    (clock : Instant)
    (index : Nat)
    (steps : List Step) :
    marksOf (skipSteps clock index steps) = (List.range' index steps.length).map skippedMark := by
  induction steps generalizing index with
  | nil =>
      rfl
  | cons step rest inductionHypothesis =>
      have later := inductionHypothesis (index + 1)
      rw [skipSteps, List.length_cons, List.range'_succ, List.map_cons, ← later]
      rfl

/-- The entry about the end has the mark that the result gives. -/
theorem mark_endEntry
    (clock : Instant)
    (result : RunResult) :
    (RunEvent.endEntry clock result).mark = result.endMark := by
  unfold RunEvent.endEntry RunResult.endMark
  split <;> rfl

/-- What happens in a run that finds the slot free. -/
theorem occurrences_of_free
    {host : Host}
    (free : host.held? = none)
    (pipeline : Pipeline σ)
    (plan : Plan)
    (state : σ) :
    let execution := pipeline.execute plan state host
    let passage := pipeline.runSteps 0 plan.steps state host
    execution.result = resultOf plan passage.records passage.termination ∧
      execution.occurrences =
        [⟨host.clock, .started plan.size plan.fingerprint pipeline.interruptPolicy⟩]
          ++ passage.occurrences
          ++ skipSteps passage.host.clock passage.records.length
            (plan.steps.drop passage.records.length)
          ++ [⟨passage.host.clock, .ended execution.result⟩] := by
  simp only [execute_of_free free]
  exact ⟨rfl, rfl⟩

/-- A run that finds the slot free is logged as its result says. -/
theorem marks_entries_of_free
    {host : Host}
    (free : host.held? = none)
    (pipeline : Pipeline σ)
    (plan : Plan)
    (state : σ) :
    (pipeline.execute plan state host).entries.map LogEntry.mark =
      (pipeline.execute plan state host).result.marks := by
  obtain ⟨result, occurrences⟩ := pipeline.occurrences_of_free free plan state
  have ended (clock : Instant) (result : RunResult) :
      marksOf [⟨clock, .ended result⟩] = [result.endMark] :=
    congrArg (fun mark => [mark]) (mark_endEntry clock result)
  change marksOf (pipeline.execute plan state host).occurrences = _
  rw [occurrences, marksOf_append, marksOf_append, marksOf_append, marksOf_runSteps,
    marksOf_skipSteps, ended, List.length_drop, RunResult.marks, result]
  simp only [List.append_assoc]
  rfl

end Pipeline

end VerifyPipeline
