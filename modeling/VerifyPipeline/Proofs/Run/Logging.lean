import VerifyPipeline.Proofs.Log.WellFormed
import VerifyPipeline.Proofs.Run.LogOrder

namespace VerifyPipeline

/-!
# The log of a run

A run is logged by entries that keep the rules of the schema, whatever names, paths and messages
they hold, and that tell the result of the run.
-/

/-! ## The size of what is logged -/

/-- The numbers of an event belong to a plan of so many steps. -/
def RunEvent.Within (size : Nat) : RunEvent → Prop
  | .reentered _ | .restoreFailed _ => True
  | .started planned _ _ => planned ≤ size
  | .stepStarted index _ _ | .workspaceUnavailable index _ _ | .stepSkipped index _ => index < size
  | .stepFinished index _ _ _ durationMs => index < size ∧ durationMs ≤ durationLimit
  | .ended result => result.planned ≤ size ∧ result.records.length ≤ size

namespace Pipeline

/-- What happens around a call has the position of its step. -/
theorem within_call
    (call : Call σ)
    (program : String)
    {index size : Nat}
    (below : index < size) :
    ∀ occurrence ∈ call.occurrences program index, occurrence.event.Within size := by
  have short :
      millisecondsBetween call.entered.clock call.left.clock ≤ durationLimit :=
    Nat.min_le_right _ _
  cases restored : call.left.leave.2 <;>
    simp [Call.occurrences, restored, RunEvent.Within, below, short]

/-- No position in a run is beyond its plan. -/
theorem within_runSteps
    (pipeline : Pipeline σ)
    (index : Nat)
    (steps : List Step)
    (state : σ)
    (host : Host)
    {size : Nat}
    (fits : index + steps.length ≤ size) :
    ∀ occurrence ∈ (pipeline.runSteps index steps state host).occurrences,
      occurrence.event.Within size := by
  refine pipeline.runSteps_induction
    (motive := fun index steps _ passage =>
      index + steps.length ≤ size →
        ∀ occurrence ∈ passage.occurrences, occurrence.event.Within size)
    ?nil ?barred ?stopped ?goesOn index steps state host fits
  case nil =>
    exact fun _ _ _ _ => List.forall_mem_nil _
  case barred =>
    intro index step rest state host why _ fits
    rw [List.length_cons] at fits
    have below : index < size := by omega
    simp [RunEvent.Within, below]
  case stopped =>
    intro index rest host call reason _ _ fits
    rw [List.length_cons] at fits
    exact within_call call _ (by omega)
  case goesOn =>
    intro index rest host call later _ inductionHypothesis fits
    rw [List.length_cons] at fits
    exact List.forall_mem_append.mpr
      ⟨within_call call _ (by omega), inductionHypothesis (by omega)⟩

/-- A skipped step has a position within the plan. -/
theorem within_skipSteps
    (clock : Instant)
    (index : Nat)
    (steps : List Step)
    {size : Nat}
    (fits : index + steps.length ≤ size) :
    ∀ occurrence ∈ skipSteps clock index steps, occurrence.event.Within size := by
  intro occurrence member
  obtain ⟨offset, step, isStep, rfl⟩ := exists_of_mem_skipSteps member
  have bound := (List.getElem?_eq_some_iff.mp isStep).1
  change index + offset < size
  omega

/-- All numbers that a run logs belong to its plan. -/
theorem within_execute
    (pipeline : Pipeline σ)
    (plan : Plan)
    (state : σ)
    (host : Host) :
    ∀ occurrence ∈ (pipeline.execute plan state host).occurrences,
      occurrence.event.Within plan.size := by
  cases holder : host.held? with
  | some held =>
      rw [execute_of_held holder]
      simp [refuse, RunEvent.Within]
  | none =>
      obtain ⟨result, occurrences⟩ := pipeline.occurrences_of_free holder plan state
      obtain ⟨calls, passes⟩ := pipeline.passes_runSteps 0 plan.steps state host
      have short : (pipeline.runSteps 0 plan.steps state host).records.length ≤ plan.size := by
        rw [passes.length_records]
        exact passes.length_calls_le
      rw [occurrences]
      simp only [List.forall_mem_append, List.forall_mem_singleton]
      refine ⟨⟨⟨Nat.le_refl _, ?_⟩, ?_⟩, ?_⟩
      · exact pipeline.within_runSteps 0 plan.steps state host (by simp [Plan.size])
      · refine within_skipSteps _ _ _ ?_
        rw [List.length_drop]
        change _ + (plan.size - _) ≤ plan.size
        omega
      · rw [result]
        exact ⟨Nat.le_refl _, short⟩

end Pipeline

/-! ## The entries are well formed -/

open Json LogEntry

/-- The entry about the end can be emitted if its numbers are words. -/
theorem RunEvent.emittable_endEntry
    {result : RunResult}
    {size : Nat}
    (within : (RunEvent.ended result).Within size)
    (addressable : size < Decoder.wordLimit)
    (clock : Instant) :
    (endEntry clock result).Emittable := by
  obtain ⟨planned, executed⟩ := within
  have passed : result.passedCount ≤ result.records.length := List.countP_le_length
  have failed : result.failedCount ≤ result.records.length := Nat.sub_le _ _
  have skipped : result.skippedCount ≤ result.planned := Nat.sub_le _ _
  have counted {n : Nat} (few : n ≤ size) : (count n).Exact :=
    (fits_count (Nat.lt_of_le_of_lt few addressable)).1
  have exact :
      ∀ member ∈
        [("executed", count result.records.length), ("passed", count result.passedCount),
          ("failed", count result.failedCount), ("skipped", count result.skippedCount)],
        member.2.Exact := by
    simp only [List.forall_mem_cons]
    exact ⟨counted executed, counted (Nat.le_trans passed executed),
      counted (Nat.le_trans failed executed), counted (Nat.le_trans skipped planned),
      List.forall_mem_nil _⟩
  have fresh :
      (if result.termination.isCompleted then entryAt clock .info "pipeline_complete"
        else entryAt clock .error "pipeline_aborted").Emittable := by
    split <;> exact emittable_create clock _ _
  exact (fresh.withExitCode _).withDetails (fits_object exact (by simp [count, depth]))

/-- Whatever names, paths and messages an event has, its entry can be emitted. -/
theorem RunEvent.emittable_of_entry?
    {event : RunEvent}
    {size : Nat}
    (within : event.Within size)
    (addressable : size < Decoder.wordLimit)
    {clock : Instant}
    {entry : LogEntry}
    (told : event.entry? clock = some entry) :
    entry.Emittable := by
  have fresh (level : LogLevel) (event : String) : (entryAt clock level event).Emittable :=
    emittable_create clock level event
  cases event with
  | reentered held =>
      obtain rfl := Option.some.inj told
      exact (fresh _ _).withDetails (fits_object (by simp [Exact.string]) (by simp [depth]))
  | started planned fingerprint policy =>
      obtain rfl := Option.some.inj told
      have counted : (count planned).Exact :=
        (fits_count (Nat.lt_of_le_of_lt within addressable)).1
      exact (fresh _ _).withDetails
        (fits_object (by simp [counted, Exact.string]) (by simp [count, depth]))
  | stepStarted index step command =>
      obtain rfl := Option.some.inj told
      exact ((fresh _ _).withStep (Nat.lt_trans within addressable) step).withCommand command
  | workspaceUnavailable index step message =>
      obtain rfl := Option.some.inj told
      exact ((fresh _ _).withStep (Nat.lt_trans within addressable) step).withDetails
        (fits_object (by simp [Exact.string]) (by simp [depth]))
  | restoreFailed failure =>
      contradiction
  | stepFinished index step command status durationMs =>
      obtain rfl := Option.some.inj told
      let level : LogLevel := if status.isSuccess then .info else .error
      have shown := (fresh level "step_result").withStep (Nat.lt_trans within.1 addressable) step
      have short : durationMs < Decoder.wordLimit := Nat.lt_of_le_of_lt within.2 (by decide)
      exact ((shown.withCommand command).withStatus rfl status).withDurationMs short
  | stepSkipped index step =>
      obtain rfl := Option.some.inj told
      exact ((fresh _ _).withStep (Nat.lt_trans within addressable) step).withOutcome rfl .skip
  | ended result =>
      obtain rfl := Option.some.inj told
      exact emittable_endEntry within addressable clock

namespace Pipeline

/-- All entries about a run can be emitted. -/
theorem emittable_entries
    (pipeline : Pipeline σ)
    {plan : Plan}
    (addressable : plan.size < Decoder.wordLimit)
    (state : σ)
    (host : Host) :
    ∀ entry ∈ (pipeline.execute plan state host).entries, entry.Emittable := by
  intro entry member
  obtain ⟨occurrence, happened, told⟩ := List.mem_filterMap.mp member
  have within := pipeline.within_execute plan state host occurrence happened
  exact RunEvent.emittable_of_entry? within addressable told

/-- The entries about a run have no trace ids before they are emitted. -/
theorem untraced_entries
    (pipeline : Pipeline σ)
    (plan : Plan)
    (state : σ)
    (host : Host) :
    ∀ entry ∈ (pipeline.execute plan state host).entries, entry.traceId = "" := by
  intro entry member
  obtain ⟨⟨clock, event⟩, _, told⟩ := List.mem_filterMap.mp member
  cases event with
  | restoreFailed failure =>
      contradiction
  | ended result =>
      obtain rfl := Option.some.inj told
      unfold RunEvent.endEntry
      split <;> rfl
  | _ =>
      obtain rfl := Option.some.inj told
      rfl

end Pipeline

/-! ## Telling a run -/

/-- Of what is told about an occurrence, at most one notice is an entry.  Only the line about a step
that did not pass depends on more than the kind of the event. -/
theorem Occurrence.filterMap_notices
    (total : Nat)
    (occurrence : Occurrence) :
    (occurrence.notices total).filterMap Notice.entry? = occurrence.entry?.toList := by
  obtain ⟨clock, event⟩ := occurrence
  have before : (event.linesBefore total).filterMap Notice.entry? = [] := by
    cases event <;> rfl
  have behind : (event.noticesAfter total).filterMap Notice.entry? = [] := by
    cases event with
    | stepFinished _ _ _ status _ =>
        simp only [RunEvent.noticesAfter]
        split <;> rfl
    | _ =>
        rfl
  rw [notices, List.filterMap_append, List.filterMap_append, before, behind, List.nil_append,
    List.append_nil, Occurrence.entry?]
  cases event.entry? clock <;> rfl

/-- The entries that are told are those of what has happened. -/
theorem filterMap_flatMap_notices
    (total : Nat)
    (occurrences : List Occurrence) :
    (occurrences.flatMap (Occurrence.notices total)).filterMap Notice.entry? =
      occurrences.filterMap Occurrence.entry? := by
  induction occurrences with
  | nil =>
      rfl
  | cons occurrence others inductionHypothesis =>
      rw [List.flatMap_cons, List.filterMap_append, inductionHypothesis,
        Occurrence.filterMap_notices, List.filterMap_cons]
      cases occurrence.entry? <;> rfl

/-- Telling a run comes down to emitting the entries about it. -/
theorem Narrator.emitter_tellRun
    {narrator : Narrator}
    {total : Nat}
    {occurrences : List Occurrence}
    (logging : narrator.logging = true)
    (takes : narrator.emitter.writer.Takes (occurrences.filterMap Occurrence.entry?).length) :
    (narrator.tellRun total occurrences).emitter =
      narrator.emitter.wrote (occurrences.filterMap Occurrence.entry?) := by
  rw [← filterMap_flatMap_notices total] at takes ⊢
  exact (Narrator.foldl_tell logging takes).1

def LogEntry.detail? (key : String) (entry : LogEntry) : Option Json :=
  entry.details.bind (Json.get? key)

/-- The entry says how a run ended. -/
structure LogEntry.Closes (entry : LogEntry) (result : RunResult) : Prop where
  exitCode : entry.exitCode = some (.ofNat result.exitCode)
  executed : entry.detail? "executed" = some (.count result.records.length)
  passed : entry.detail? "passed" = some (.count result.passedCount)
  failed : entry.detail? "failed" = some (.count result.failedCount)
  skipped : entry.detail? "skipped" = some (.count result.skippedCount)

/-- Entries tell a run that came to a result. -/
structure RunResult.ToldBy (result : RunResult) (entries : List LogEntry) : Prop where
  order : entries.map LogEntry.mark = result.marks
  closes : ∃ last, entries.getLast? = some last ∧ last.Closes result

/-- What is told does not depend on the ids of the entries. -/
theorem RunResult.ToldBy.completed
    {result : RunResult}
    {entries : List LogEntry}
    (told : result.ToldBy entries)
    (untraced : ∀ entry ∈ entries, entry.traceId = "")
    (runId : String)
    (sequence : Nat) :
    result.ToldBy (Emitter.completed runId sequence entries) := by
  obtain ⟨last, found, closes⟩ := told.closes
  rw [List.getLast?_eq_getElem?] at found
  have ended :
      (Emitter.completed runId sequence entries).getLast? =
        some { last with
          traceId := Emitter.traceId runId (sequence + 1 + (entries.length - 1))
          runId := some (last.runId.getD runId) } := by
    rw [List.getLast?_eq_getElem?, Emitter.length_completed, Emitter.getElem?_completed untraced,
      found, Option.map_some]
  exact ⟨(Emitter.map_completed (fun _ _ _ => rfl) _ _ _).trans told.order, _, ended,
    { closes with }⟩

/-- The entry about the end closes the log of the run. -/
theorem RunEvent.closes_endEntry
    (clock : Instant)
    (result : RunResult) :
    (endEntry clock result).Closes result := by
  constructor
  case exitCode => rfl
  all_goals
    simp only [LogEntry.detail?, endEntry, LogEntry.withDetails, Option.bind_some, get?_canonical]
    rfl

namespace Pipeline

/-- The entries about a run that finds the slot free tell its result. -/
theorem toldBy_entries_of_free
    {host : Host}
    (free : host.held? = none)
    (pipeline : Pipeline σ)
    (plan : Plan)
    (state : σ) :
    let execution := pipeline.execute plan state host
    execution.result.ToldBy execution.entries := by
  intro execution
  obtain ⟨result, occurrences⟩ := pipeline.occurrences_of_free free plan state
  let clock := (pipeline.runSteps 0 plan.steps state host).host.clock
  let last := RunEvent.endEntry clock execution.result
  have ended : execution.entries.getLast? = some last := by
    rw [Execution.entries, occurrences, List.filterMap_append]
    exact List.getLast?_concat
  exact ⟨pipeline.marks_entries_of_free free plan state, last, ended,
    RunEvent.closes_endEntry clock _⟩

/-- A run that is refused has a single entry. -/
theorem entries_of_held
    {host : Host}
    {held : HeldWorkspace}
    (holder : host.held? = some held)
    (pipeline : Pipeline σ)
    (plan : Plan)
    (state : σ) :
    (pipeline.execute plan state host).entries =
      [(RunEvent.entryAt host.clock .error "pipeline_reentered").withDetails
        (.object [("held_workspace", .string held.name)])] := by
  rw [execute_of_held holder]
  rfl

/--
A run is logged completely and in order, by entries that keep the rules of the
schema whatever names, paths and messages they hold.  A run that is refused
because a workspace is held is logged by a single entry about that.

The size of a plan fits into a word, as that of every list in memory does; the
writer takes the lines, and the run id does not break the trace ids apart.
-/
theorem execute_logged
    (pipeline : Pipeline σ)
    (plan : Plan)
    (state : σ)
    (host : Host)
    (narrator : Narrator)
    (addressable : plan.size < Decoder.wordLimit)
    (logging : narrator.logging = true)
    (plain : ¬ [':', ':'] <:+: narrator.emitter.runId.toList)
    (takes : narrator.emitter.writer.Takes (pipeline.execute plan state host).entries.length) :
    ∃ entries,
      narrator.emitter.Logged
          (narrator.tellRun plan.size (pipeline.execute plan state host).occurrences).emitter
          entries ∧
        match host.held? with
        | none => (pipeline.execute plan state host).result.ToldBy entries
        | some held =>
          ∃ entry,
            entries = [entry] ∧
              entry.mark = { event := "pipeline_reentered" } ∧
              entry.detail? "held_workspace" = some (.string held.name) := by
  have emittable := pipeline.emittable_entries addressable state host
  have untraced :
      ∀ entry ∈ (pipeline.execute plan state host).entries, entry.traceId = "" :=
    fun entry member => (emittable entry member).untraced
  have told :
      (narrator.tellRun plan.size (pipeline.execute plan state host).occurrences).emitter =
        narrator.emitter.wrote (pipeline.execute plan state host).entries :=
    Narrator.emitter_tellRun logging takes
  rw [told]
  refine ⟨_, Emitter.logged_wrote emittable plain, ?_⟩
  cases holder : host.held? with
  | none =>
      exact (pipeline.toldBy_entries_of_free holder plan state).completed untraced _ _
  | some held =>
      rw [entries_of_held holder]
      exact ⟨_, rfl, rfl, rfl⟩

/-- The theorem at a run that stops because its second workspace cannot be entered, in a log that
has a line already. -/
theorem execute_logged_unavailable :
    let host : Host := { tree := { entries := [(["a \"b\"\n"], .directory)] }, here := .root }
    let passing : Runner Unit :=
      { program := "cargo\t\\"
        run := fun _ _ inside => ((.passed, ()), inside) }
    let pipeline : Pipeline Unit := ⟨passing, ⟨[]⟩, .abort⟩
    let present : Workspace := ⟨"one\n::two", "a \"b\"\n", .empty⟩
    let absent : Workspace := ⟨"\"\r", "c\\", .empty⟩
    let plan : Plan :=
      ⟨[present, absent, present].map fun workspace =>
        ⟨.baseline, .test, workspace, .default, .recordAndContinue⟩⟩
    let emitter : Emitter := ⟨.keep #["\x7b\x7d"] none none, 41, "run:7\n"⟩
    let narrator : Narrator := { emitter := emitter, progress := false }
    let execution := pipeline.execute plan () host
    ∃ entries,
      emitter.Logged (narrator.tellRun plan.size execution.occurrences).emitter entries ∧
        execution.result.ToldBy entries ∧
        entries.map LogEntry.mark = [
          { event := "pipeline_start" },
          { event := "step_start", stepIndex := some 0 },
          { event := "step_result", stepIndex := some 0, outcome := some .pass },
          { event := "step_start", stepIndex := some 1 },
          { event := "workspace_unavailable", stepIndex := some 1 },
          { event := "step_skipped", stepIndex := some 1, outcome := some .skip },
          { event := "step_skipped", stepIndex := some 2, outcome := some .skip },
          { event := "pipeline_aborted" }] := by
  intro host passing pipeline present absent plan emitter narrator execution
  obtain ⟨entries, logged, told⟩ :=
    execute_logged pipeline plan () host narrator (by decide) rfl (by decide +kernel) nofun
  exact ⟨entries, logged, told, told.order.trans (by decide +kernel)⟩

end Pipeline

end VerifyPipeline
