import VerifyPipeline.Proofs.Run.FailFast
import VerifyPipeline.Proofs.Run.Verdict

namespace VerifyPipeline

/-!
# What the counts of a run say

Every step of a plan has passed, or failed, or was skipped, and no step is counted twice, whatever
the run came to.  The exit code is 0 only for a run that found no workspace held and has a passing
record for every step of the plan: a run that stopped has another one even if all of its records
pass.
-/

namespace RunResult

/-- Every record has passed or failed. -/
theorem passedCount_add_failedCount (result : RunResult) :
    result.passedCount + result.failedCount = result.records.length := by
  have few : result.passedCount ≤ result.records.length := List.countP_le_length
  rw [failedCount]
  omega

/-- Unless there are more records than steps, the counts add up to the number of steps. -/
theorem counts_add
    {result : RunResult}
    (short : result.records.length ≤ result.planned) :
    result.passedCount + result.failedCount + result.skippedCount = result.planned := by
  rw [passedCount_add_failedCount, skippedCount]
  omega

/-- The failures are the records that have not passed. -/
theorem mem_failures_iff
    {result : RunResult}
    {record : StepRecord} :
    record ∈ result.failures ↔ record ∈ result.records ∧ record.status ≠ .passed := by
  simp [failures, StepRecord.passed, ← StepStatus.isSuccess_eq_true_iff]

/-- What the counts, the failures and the exit code say about a run of a plan, which found a
workspace held or none. -/
structure Tallies
    (result : RunResult)
    (plan : Plan)
    (program : String)
    (held? : Option HeldWorkspace) : Prop where
  planned : result.planned = plan.size
  counts : result.passedCount + result.failedCount + result.skippedCount = result.planned
  /-- The failures are the records that do not pass, each of them once and in the order of the
  plan. -/
  failures : ∀ record, record ∈ result.failures ↔ record ∈ result.records ∧ record.status ≠ .passed
  ordered : result.failures.Pairwise fun first second => first.index < second.index
  placed :
    ∀ record ∈ result.failures,
      ∃ step, plan.steps[record.index]? = some step ∧ record.IsOf program record.index step
  exitCode :
    result.exitCode = 0 ↔
      held? = none ∧
        result.records.map StepRecord.index = List.range plan.size ∧
        ∀ record ∈ result.records, record.status = .passed
  /-- A run that stopped has not passed: not after its last step, and not at a workspace that
  cannot be entered after records that all pass. -/
  ofStopped : ∀ index id reason, result.termination = .aborted index id reason → result.exitCode = 1
  /-- A run that found a workspace held has not passed, even if there was nothing to do. -/
  ofHeld : held? ≠ none → result.exitCode = 1
  ofEmpty : held? = none → plan.isEmpty = true → result.exitCode = 0

theorem exitCode_of_aborted
    {result : RunResult}
    {index : Nat}
    {id : Option String}
    {reason : AbortReason}
    (aborted : result.termination = .aborted index id reason) :
    result.exitCode = 1 :=
  exitCode_of_not_succeeded (succeeded_of_aborted aborted)

end RunResult

/-- A record that passes does not end its run. -/
theorem StepRecord.stops_of_passed
    {record : StepRecord}
    (passed : record.status = .passed)
    (interruptPolicy : InterruptPolicy) :
    record.stops interruptPolicy = false := by
  simp [stops, passed]

namespace Pipeline

/-- The records bear the positions of the first steps. -/
theorem Passes.map_index_records
    {pipeline : Pipeline σ}
    {steps : List Step}
    {state : σ}
    {host : Host}
    {calls : List (Call σ)}
    {passage : Passage σ}
    (passes : pipeline.Passes 0 steps state host calls passage) :
    passage.records.map StepRecord.index = List.range passage.records.length := by
  refine List.ext_getElem (by simp) fun index bound _ => ?_
  rw [List.length_map] at bound
  obtain ⟨call, _, same⟩ := passes.call_of_record (List.getElem?_eq_getElem bound)
  rw [List.getElem_map, List.getElem_range, same]
  rfl

/-- Every record is that of the step at its position. -/
theorem Passes.step_of_record
    {pipeline : Pipeline σ}
    {steps : List Step}
    {state : σ}
    {host : Host}
    {calls : List (Call σ)}
    {passage : Passage σ}
    (passes : pipeline.Passes 0 steps state host calls passage)
    {record : StepRecord}
    (member : record ∈ passage.records) :
    ∃ step,
      steps[record.index]? = some step ∧
        record.IsOf pipeline.runner.program record.index step := by
  obtain ⟨index, isRecord⟩ := List.mem_iff_getElem?.mp member
  obtain ⟨step, isStep, isOf⟩ := passes.recordsOf.exists_step_of_take isRecord
  have position : record.index = index := congrArg StepRecord.index isOf
  rw [position]
  exact ⟨step, isStep, isOf⟩

/-- A run that is recorded in the order of its plan has passed exactly if every step of the plan
has a passing record. -/
theorem Follows.exitCode_eq_zero_iff
    {pipeline : Pipeline σ}
    {plan : Plan}
    {state : σ}
    {calls : List (Call σ)}
    {execution : Execution σ}
    (follows : pipeline.Follows plan state calls execution)
    (indexed :
      execution.result.records.map StepRecord.index =
        List.range execution.result.records.length) :
    execution.result.exitCode = 0 ↔
      execution.result.records.map StepRecord.index = List.range plan.size ∧
        ∀ record ∈ execution.result.records, record.status = .passed := by
  rw [RunResult.exitCode_eq_zero_iff, RunResult.succeeded_iff, follows.completedIff, indexed]
  constructor
  · rintro ⟨⟨all, _⟩, passed⟩
    exact ⟨congrArg List.range all, passed⟩
  · rintro ⟨all, passed⟩
    have same : execution.result.records.length = plan.size := by
      simpa using congrArg List.length all
    have quiet :
        ∀ record ∈ execution.result.records,
          record.stops pipeline.interruptPolicy = false :=
      fun record member => StepRecord.stops_of_passed (passed record member) _
    exact ⟨⟨same, quiet⟩, passed⟩

/-- A run that is refused tallies with its plan. -/
theorem tallies_of_held
    (plan : Plan)
    (program : String)
    (held : HeldWorkspace)
    (state : σ)
    (host : Host) :
    (refuse plan held.name state host).result.Tallies plan program (some held) where
  planned := rfl
  counts := RunResult.counts_add (Nat.zero_le _)
  failures := fun _ => RunResult.mem_failures_iff
  ordered := List.Pairwise.nil
  placed := List.forall_mem_nil _
  exitCode := by
    have failed : (refuse plan held.name state host).result.exitCode = 1 :=
      RunResult.exitCode_of_aborted rfl
    simp [failed]
  ofStopped := fun _ _ _ => RunResult.exitCode_of_aborted
  ofHeld := fun _ => RunResult.exitCode_of_aborted rfl
  ofEmpty := nofun

/-- A run that is not refused tallies with its plan.  The positions increase over all records, so
they do over the failures among them. -/
theorem Passes.tallies
    {pipeline : Pipeline σ}
    {plan : Plan}
    {state : σ}
    {host : Host}
    {calls : List (Call σ)}
    (passes :
      pipeline.Passes 0 plan.steps state host calls
        (pipeline.runSteps 0 plan.steps state host)) :
    (pipeline.executeFree plan state host).result.Tallies plan pipeline.runner.program none := by
  let result := (pipeline.executeFree plan state host).result
  have indexed : result.records.map StepRecord.index = List.range result.records.length :=
    passes.map_index_records
  have short : result.records.length ≤ plan.size := by
    change (pipeline.runSteps 0 plan.steps state host).records.length ≤ plan.size
    rw [passes.length_records]
    exact passes.length_calls_le
  have passedIff := passes.follows.exitCode_eq_zero_iff indexed
  refine {
    planned := rfl
    counts := RunResult.counts_add short
    failures := fun _ => RunResult.mem_failures_iff
    ordered := ?_
    placed := ?_
    exitCode := ?_
    ofStopped := fun _ _ _ => RunResult.exitCode_of_aborted
    ofHeld := fun held => absurd rfl held
    ofEmpty := ?_
  }
  · have increasing : (result.records.map StepRecord.index).Pairwise (· < ·) := by
      rw [indexed]
      exact List.pairwise_lt_range
    exact (List.pairwise_map.mp increasing).filter _
  · exact fun record failed => passes.step_of_record (RunResult.mem_failures_iff.mp failed).1
  · rw [passedIff, eq_self, true_and]
  · intro _ empty
    have none : plan.size = 0 := by
      rw [Plan.size, List.isEmpty_iff.mp empty]
      rfl
    have nothing : result.records = [] := List.length_eq_zero_iff.mp (by omega)
    exact passedIff.mpr (by simp [result, nothing, none])

/--
The counts of a run add up to the number of planned steps, its failures are
the records that do not pass, and its exit code is 0 exactly if it found no
workspace held and has a passing record for every planned step.
-/
theorem execute_tallies
    (pipeline : Pipeline σ)
    (plan : Plan)
    (state : σ)
    (host : Host) :
    (pipeline.execute plan state host).result.Tallies plan pipeline.runner.program host.held? := by
  cases holder : host.held? with
  | some held =>
      rw [execute_of_held holder]
      exact tallies_of_held plan _ held state host
  | none =>
      obtain ⟨calls, passes⟩ := pipeline.passes_runSteps 0 plan.steps state host
      rw [execute_of_free holder]
      exact passes.tallies

end Pipeline

end VerifyPipeline
