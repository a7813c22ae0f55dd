import Mathlib.Data.List.Count
import VerifyPipeline.Proofs.Run.Counts
import VerifyPipeline.Proofs.Run.Logging

namespace VerifyPipeline

/-!
# Steps that a run leaves out

A run that stops after it has begun logs every step of its plan that has no record, each of them
once, and closes its log as aborted.  A run that is refused because a workspace is held leaves out
the whole plan, but its log has a single entry, which is about the refusal.
-/

/-- The entry is about a step that was not executed. -/
def LogMark.isSkip (mark : LogMark) : Bool := mark.event = "step_skipped"

namespace RunResult

theorem filter_recordMarks_isSkip (start : Nat) (records : List StepRecord) :
    (recordMarks start records).filter LogMark.isSkip = [] := by
  induction records generalizing start with
  | nil =>
      rfl
  | cons record others inductionHypothesis =>
      have first : (record.marks start).filter LogMark.isSkip = [] := rfl
      rw [recordMarks, List.zipIdx_cons, List.flatMap_cons, List.filter_append, first,
        List.nil_append]
      exact inductionHypothesis (start + 1)

theorem filter_barredMarks_isSkip (termination : Termination) :
    termination.barredMarks.filter LogMark.isSkip = [] := by
  unfold Termination.barredMarks
  split <;> rfl

/-- A run that has begun skips the steps behind its records, and no others. -/
theorem filter_marks_isSkip (result : RunResult) :
    result.marks.filter LogMark.isSkip =
      (List.range' result.records.length result.skippedCount).map skippedMark := by
  have started : [({ event := "pipeline_start" } : LogMark)].filter LogMark.isSkip = [] := rfl
  have skipped (positions : List Nat) :
      (positions.map skippedMark).filter LogMark.isSkip = positions.map skippedMark :=
    List.filter_eq_self.mpr (List.forall_mem_map.mpr fun _ _ => rfl)
  have ended : [result.endMark].filter LogMark.isSkip = [] := by
    unfold endMark
    split <;> rfl
  simp only [marks, List.filter_append, started, filter_recordMarks_isSkip,
    filter_barredMarks_isSkip, skipped, ended, List.append_nil, List.nil_append, skippedCount]

/-- Every step behind the records is skipped once. -/
theorem count_skippedMark_marks (result : RunResult) (index : Nat) :
    result.marks.count (skippedMark index) =
      if result.records.length ≤ index ∧ index < result.planned then 1 else 0 := by
  have injective : Function.Injective skippedMark := fun first second same =>
    Option.some.inj (congrArg LogMark.stepIndex same)
  have isSkip : (skippedMark index).isSkip = true := rfl
  have behind :
      index ∈ List.range' result.records.length result.skippedCount ↔
        result.records.length ≤ index ∧ index < result.planned := by
    rw [List.mem_range'_1, skippedCount]
    omega
  rw [← List.count_filter isSkip, filter_marks_isSkip,
    List.count_map_of_injective _ _ injective, (List.nodup_range' 1).count]
  simp only [behind]

/-- Entries account for the steps of a plan that a run has left out, and for its end. -/
structure AccountedBy (result : RunResult) (entries : List LogEntry) : Prop where
  /-- A step is skipped once if it has no record, and otherwise not at all. -/
  once :
    ∀ index < result.planned,
      (entries.map LogEntry.mark).count (skippedMark index) =
        if ∃ record ∈ result.records, record.index = index then 0 else 1
  counted : (entries.countP fun entry => entry.event = "step_skipped") = result.skippedCount
  closed :
    ∃ last,
      entries.getLast? = some last ∧
        last.event = "pipeline_aborted" ∧
        last.exitCode = some (.ofNat result.exitCode)

/-- Entries that tell a run that has stopped account for what it has left out. -/
theorem ToldBy.accountedBy
    {result : RunResult}
    {entries : List LogEntry}
    (told : result.ToldBy entries)
    (indexed : result.records.map StepRecord.index = List.range result.records.length)
    (stopped : result.termination ≠ .completed) :
    result.AccountedBy entries where
  once := by
    intro index planned
    have recorded :
        (∃ record ∈ result.records, record.index = index) ↔ index < result.records.length := by
      rw [← List.mem_map, indexed, List.mem_range]
    rw [told.order, count_skippedMark_marks]
    simp only [recorded, planned, and_true, ← Nat.not_lt, ite_not]
  counted := by
    have skips : entries.countP (LogMark.isSkip ∘ LogEntry.mark) = result.skippedCount := by
      rw [← List.countP_map, told.order, List.countP_eq_length_filter, filter_marks_isSkip,
        List.length_map, List.length_range']
    exact skips
  closed := by
    obtain ⟨last, isLast, closes⟩ := told.closes
    have ended : last.mark = result.endMark := by
      have lastMark := congrArg List.getLast? told.order
      rw [List.getLast?_map, isLast, marks, List.getLast?_concat] at lastMark
      exact Option.some.inj lastMark
    have aborted : result.termination.isCompleted = false := by
      rw [← Bool.not_eq_true, result.termination.isCompleted_eq_true_iff]
      exact stopped
    refine ⟨last, isLast, ?_, closes.exitCode⟩
    rw [endMark, aborted] at ended
    exact congrArg LogMark.event ended

end RunResult

namespace Pipeline

/-- Entries that tell a run that has begun and stopped account for what it has left out. -/
theorem accountedBy_of_free
    {host : Host}
    (free : host.held? = none)
    (pipeline : Pipeline σ)
    (plan : Plan)
    (state : σ)
    {entries : List LogEntry}
    (told : (pipeline.execute plan state host).result.ToldBy entries)
    (stopped : (pipeline.execute plan state host).result.termination ≠ .completed) :
    (pipeline.execute plan state host).result.AccountedBy entries := by
  obtain ⟨calls, passes⟩ := pipeline.passes_runSteps 0 plan.steps state host
  refine told.accountedBy ?_ stopped
  rw [execute_of_free free]
  exact passes.map_index_records

/--
A run that stops after it has begun logs every step of its plan without a
record as skipped, each of them once and no other, and ends its log as aborted
with the run's exit code.  A run that is refused because a workspace is held
logs the refusal and nothing else, although it leaves out the whole plan.
-/
theorem execute_accounts
    (pipeline : Pipeline σ)
    (plan : Plan)
    (state : σ)
    (host : Host)
    (narrator : Narrator)
    (stopped : (pipeline.execute plan state host).result.termination ≠ .completed)
    (logging : narrator.logging = true)
    (takes : narrator.emitter.writer.Takes (pipeline.execute plan state host).entries.length) :
    let execution := pipeline.execute plan state host
    ∃ entries,
      (narrator.tellRun plan.size execution.occurrences).emitter.writer =
          narrator.emitter.writer.after (entries.map LogEntry.line) ∧
        match host.held? with
        | none => execution.result.AccountedBy entries
        | some held =>
          execution.result.skippedCount = plan.size ∧
            ∃ entry,
              entries = [entry] ∧
                entry.mark = { event := "pipeline_reentered" } ∧
                entry.detail? "held_workspace" = some (.string held.name) := by
  intro execution
  have untraced := pipeline.untraced_entries plan state host
  have told :
      (narrator.tellRun plan.size execution.occurrences).emitter =
        narrator.emitter.wrote execution.entries :=
    Narrator.emitter_tellRun logging takes
  rw [told]
  refine ⟨_, rfl, ?_⟩
  cases holder : host.held? with
  | none =>
      have tells := pipeline.toldBy_entries_of_free holder plan state
      exact pipeline.accountedBy_of_free holder plan state (tells.completed untraced _ _) stopped
  | some held =>
      have only := entries_of_held holder pipeline plan state
      have refused : execution = refuse plan held.name state host :=
        execute_of_held holder pipeline plan state
      rw [only, refused]
      exact ⟨rfl, _, rfl, rfl, rfl⟩

/-- The theorem at a plan of three steps that is to be executed while a workspace is held: three
steps are left out, no entry says so, and the log does not end as aborted. -/
theorem execute_accounts_reentrant :
    let held : HeldWorkspace := ⟨"lexical-asm", ["p", "lexical-asm"], ["p"], 1⟩
    let host : Host :=
      { tree := { entries := [(["p"], .directory), (["p", "lexical-asm"], .directory)] }
        here := .ofLocation ["p", "lexical-asm"]
        held? := some held }
    let passing : Runner Unit :=
      { program := "cargo"
        run := fun _ _ inside => ((.passed, ()), inside) }
    let pipeline : Pipeline Unit := ⟨passing, ⟨["p"]⟩, .abort⟩
    let plan : Plan :=
      ⟨WorkspaceSet.lexical.auxiliary.map fun workspace =>
        ⟨.baseline, .test, workspace, .default, .recordAndContinue⟩⟩
    let narrator : Narrator :=
      { emitter := .ofWriter .memory plan.runId, progress := false }
    let execution := pipeline.execute plan () host
    ∃ entries,
      (narrator.tellRun plan.size execution.occurrences).emitter.writer.lines =
          entries.map LogEntry.line ∧
        execution.result.skippedCount = 3 ∧
        (entries.countP fun entry => entry.event = "step_skipped") = 0 ∧
        ¬ execution.result.AccountedBy entries := by
  intro held host passing pipeline plan narrator execution
  obtain ⟨entries, written, skipped, entry, rfl, mark, _⟩ :=
    execute_accounts pipeline plan () host narrator nofun rfl nofun
  have event : entry.event = "pipeline_reentered" := congrArg LogMark.event mark
  refine ⟨[entry], ?_, skipped, by simp [event], fun accounted => ?_⟩
  · rw [written]
    exact LogWriter.lines_after_memory _
  · obtain ⟨last, isLast, aborted, _⟩ := accounted.closed
    obtain rfl : entry = last := Option.some.inj isLast
    simp [event] at aborted

end Pipeline

end VerifyPipeline
