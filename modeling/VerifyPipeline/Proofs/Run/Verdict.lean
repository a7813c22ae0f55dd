import VerifyPipeline.Proofs.Run.Calls

namespace VerifyPipeline

/-!
# When a run has passed

A run has passed exactly if there was a call for every step of its plan and every call passed.  The
exit code says whether it has.
-/

theorem StepStatus.isSuccess_eq_true_iff (status : StepStatus) :
    status.isSuccess = true ↔ status = .passed := by
  cases status <;> simp [isSuccess]

theorem Termination.isCompleted_eq_true_iff (termination : Termination) :
    termination.isCompleted = true ↔ termination = .completed := by
  cases termination <;> simp [isCompleted]

namespace RunResult

/-- A run has succeeded if it was completed and all its steps have passed. -/
theorem succeeded_iff (result : RunResult) :
    result.succeeded = true ↔
      result.termination = .completed ∧ ∀ record ∈ result.records, record.status = .passed := by
  simp [succeeded, verdict, StepRecord.passed, Termination.isCompleted_eq_true_iff,
    StepStatus.isSuccess_eq_true_iff]

/-- A run that was aborted has not passed. -/
theorem succeeded_of_aborted
    {result : RunResult}
    {index : Nat}
    {id : Option String}
    {reason : AbortReason}
    (aborted : result.termination = .aborted index id reason) :
    result.succeeded = false := by
  rw [Bool.eq_false_iff]
  intro passed
  have completed := ((succeeded_iff result).mp passed).1
  rw [aborted] at completed
  contradiction

/-- Every other run has the exit code 1. -/
theorem exitCode_of_not_succeeded
    {result : RunResult}
    (notPassed : result.succeeded = false) :
    result.exitCode = 1 := by
  simp [exitCode, notPassed]

/-- The exit code is 0 exactly for success. -/
theorem exitCode_eq_zero_iff (result : RunResult) :
    result.exitCode = 0 ↔ result.succeeded = true := by
  simp [exitCode]

/-- There is no third exit code. -/
theorem exitCode_eq_zero_or_one (result : RunResult) :
    result.exitCode = 0 ∨ result.exitCode = 1 := by
  unfold exitCode
  split
  · exact .inl rfl
  · exact .inr rfl

end RunResult

namespace Pipeline

/-- A call that passes gives no reason to stop. -/
theorem reason?_of_passed
    (pipeline : Pipeline σ)
    {call : Call σ}
    (passed : call.status = .passed) :
    pipeline.reason? call = none := by
  simp [reason?, abortReason?, passed]

/-- A run has passed exactly if there was a call for every step and every call passed. -/
theorem Passes.succeeded_iff
    {pipeline : Pipeline σ}
    {plan : Plan}
    {state : σ}
    {host : Host}
    {calls : List (Call σ)}
    (passes :
      pipeline.Passes 0 plan.steps state host calls
        (pipeline.runSteps 0 plan.steps state host)) :
    (pipeline.executeFree plan state host).result.succeeded = true ↔
      calls.length = plan.steps.length ∧ ∀ call ∈ calls, call.status = .passed := by
  have recorded :
      (∀ record ∈ (pipeline.executeFree plan state host).result.records,
          record.status = .passed) ↔
        ∀ call ∈ calls, call.status = .passed := by
    constructor
    · intro passed call member
      obtain ⟨index, bound, rfl⟩ := List.mem_iff_getElem.mp member
      have isRecord := passes.record_of_call (List.getElem?_eq_getElem bound)
      exact passed _ (List.mem_of_getElem? isRecord)
    · intro passed record member
      obtain ⟨index, isRecord⟩ := List.mem_iff_getElem?.mp member
      obtain ⟨call, isCall, rfl⟩ := passes.call_of_record isRecord
      exact passed call (List.mem_of_getElem? isCall)
  have completed :
      (pipeline.executeFree plan state host).result.termination = .completed ↔ _ :=
    passes.ending.completed_iff
  rw [RunResult.succeeded_iff, recorded, completed]
  constructor
  · rintro ⟨⟨all, _⟩, passed⟩
    exact ⟨all, passed⟩
  · rintro ⟨all, passed⟩
    exact ⟨⟨all, fun call member => pipeline.reason?_of_passed (passed call member)⟩, passed⟩

end Pipeline

end VerifyPipeline
