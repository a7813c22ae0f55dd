import VerifyPipeline.Proofs.Report.RoundTrip
import VerifyPipeline.Proofs.Run.Calls

namespace VerifyPipeline

/-!
# Reports of runs

A run records positions in its plan, and durations that have been cut off.  So its report is read
back from its text, whatever the runner does.
-/

open Json Json.Decoder

namespace Pipeline

variable
  {pipeline : Pipeline σ}
  {steps : List Step}
  {state : σ}
  {host : Host}
  {calls : List (Call σ)}
  {passage : Passage σ}

/-- The numbers in the records of a run are words if its steps can be counted by one. -/
theorem Passes.inRange_records
    (passes : pipeline.Passes 0 steps state host calls passage)
    (addressable : steps.length < wordLimit) :
    ∀ record ∈ passage.records, record.InRange := by
  intro record member
  obtain ⟨index, isRecord⟩ := List.mem_iff_getElem?.mp member
  have bound := (List.getElem?_eq_some_iff.mp isRecord).1
  have short := passes.length_calls_le
  rw [passes.length_records] at bound
  obtain ⟨call, _, rfl⟩ := passes.call_of_record isRecord
  have least :
      millisecondsBetween call.entered.clock call.left.clock ≤ durationLimit :=
    Nat.min_le_right _ _
  exact {
    index := Nat.lt_trans (Nat.lt_of_lt_of_le bound short) addressable
    duration := Nat.lt_of_le_of_lt least (by decide)
  }

/-- The position at which a run has ended is in range, if the steps can be counted. -/
theorem Passes.inRange_termination
    (passes : pipeline.Passes 0 steps state host calls passage)
    (addressable : steps.length < wordLimit) :
    passage.termination.InRange := by
  have short := passes.length_calls_le
  have ending := passes.ending
  generalize passage.termination = termination at ending
  cases ending with
  | completed _ _ =>
      trivial
  | stopped _ _ =>
      rw [List.length_append] at short
      change 0 + _ < wordLimit
      omega
  | barred _ _ _ =>
      change 0 + _ < wordLimit
      omega

/-- Whatever comes of a run, its result is about its plan. -/
theorem exists_resultOf
    (pipeline : Pipeline σ)
    (plan : Plan)
    (state : σ)
    (host : Host) :
    ∃ records termination,
      (pipeline.execute plan state host).result = resultOf plan records termination := by
  cases holder : host.held? with
  | some held =>
      rw [execute_of_held holder]
      exact ⟨_, _, rfl⟩
  | none =>
      rw [execute_of_free holder]
      exact ⟨_, _, rfl⟩

/-- The numbers in the result of a run belong to its plan, or have been cut off. -/
theorem inRange_execute
    (pipeline : Pipeline σ)
    {plan : Plan}
    (addressable : plan.size < wordLimit)
    (state : σ)
    (host : Host) :
    (pipeline.execute plan state host).result.InRange ∧
      (pipeline.execute plan state host).result.records.length ≤ plan.size := by
  cases holder : host.held? with
  | some held =>
      rw [execute_of_held holder]
      refine ⟨⟨addressable, List.forall_mem_nil _, ?_⟩, Nat.zero_le _⟩
      change 0 < wordLimit
      decide
  | none =>
      rw [execute_of_free holder]
      obtain ⟨calls, passes⟩ := pipeline.passes_runSteps 0 plan.steps state host
      refine ⟨⟨addressable, passes.inRange_records addressable,
        passes.inRange_termination addressable⟩, ?_⟩
      exact Nat.le_trans (Nat.le_of_eq passes.length_records) passes.length_calls_le

end Pipeline

/-- The counts of a result in range are in range. -/
theorem RunResult.InRange.summary
    {result : RunResult}
    (inRange : result.InRange)
    (short : result.records.length ≤ result.planned) :
    (RunSummary.ofResult result).InRange := by
  have passed : result.passedCount ≤ result.records.length := List.countP_le_length
  have failed : result.failedCount ≤ result.records.length := Nat.sub_le _ _
  have skipped : result.skippedCount ≤ result.planned := Nat.sub_le _ _
  have planned := inRange.planned
  exact {
    planned := planned
    executed := Nat.lt_of_le_of_lt short planned
    passed := Nat.lt_of_le_of_lt (Nat.le_trans passed short) planned
    failed := Nat.lt_of_le_of_lt (Nat.le_trans failed short) planned
    skipped := Nat.lt_of_le_of_lt skipped planned
  }

/-- A report in range is read back from its text. -/
theorem RunReport.InRange.reads_jsonText
    {report : RunReport}
    (inRange : report.InRange) :
    RunReport.decoder.ofText report.jsonText.toList = .ok report := by
  rw [jsonText, indented, String.toList_ofList]
  exact inRange.reads.ofText_write (Nat.lt_of_le_of_lt report.depth_toJson_le (by decide)) .indented

end VerifyPipeline
