import VerifyPipeline.Proofs.Run.Logging
import VerifyPipeline.Proofs.Run.PlanOrder
import VerifyPipeline.Run.Conduct

namespace VerifyPipeline

/-!
# Telling has no influence

A run that is told while it goes on comes to what it comes to without being told, and what is told
is what could have been told afterwards.  A writer that takes no more lines is found out once and is
then left alone, by the same run and by all later ones.
-/

/-! ## Telling, all at once or bit by bit -/

namespace Telling

/-- Tell the occurrences of a run of so many steps. -/
def hearAll (total : Nat) (telling : Telling) (occurrences : List Occurrence) : Telling :=
  occurrences.foldl (hear total) telling

variable
  (total : Nat)
  (telling : Telling)

/-- Occurrences are heard one part after the other. -/
theorem hearAll_append (first second : List Occurrence) :
    telling.hearAll total (first ++ second) =
      (telling.hearAll total first).hearAll total second :=
  List.foldl_append

/-- Hearing occurrences is telling their notices. -/
theorem hearAll_eq_foldl_tell (occurrences : List Occurrence) :
    telling.hearAll total occurrences =
      (occurrences.flatMap (Occurrence.notices total)).foldl tell telling := by
  rw [List.foldl_flatMap]
  rfl

/-- The narrator is told the same. -/
theorem narrator_foldl_tell (notices : List Notice) :
    (notices.foldl tell telling).narrator = notices.foldl Narrator.tell telling.narrator := by
  induction notices generalizing telling with
  | nil =>
      rfl
  | cons notice rest inductionHypothesis =>
      exact inductionHypothesis (telling.tell notice)

/-- The narrator hears of a run in the middle of it what it would hear afterwards. -/
theorem narrator_hearAll (occurrences : List Occurrence) :
    (telling.hearAll total occurrences).narrator =
      telling.narrator.tellRun total occurrences := by
  rw [hearAll_eq_foldl_tell, narrator_foldl_tell]
  rfl

end Telling

/-! ## Conducting is executing -/

/-- What has come of a run, apart from what happened in it. -/
def Execution.outcome (execution : Execution σ) : RunResult × σ × Host :=
  (execution.result, execution.state, execution.host)

namespace Pipeline

/-- What happens around a call is told when it happens. -/
theorem hearAll_call
    (call : Call σ)
    (program : String)
    (total index : Nat)
    (telling : Telling) :
    telling.hearAll total (call.occurrences program index) =
      let command := call.step.renderCommands program
      let announced := telling.hear total
        ⟨call.entered.clock, .stepStarted index call.step command⟩
      (announced.hearRestored total call.left.clock call.left.leave.2).hear total
        ⟨call.left.clock, .stepFinished index call.step command call.status
          (millisecondsBetween call.entered.clock call.left.clock)⟩ := by
  cases restored : call.left.leave.2 <;>
    simp [Call.occurrences, Telling.hearAll, Telling.hearRestored, restored]

/-- Without a workspace, conducting hears about that and ends. -/
theorem conductSteps_of_enter_error
    (pipeline : Pipeline σ)
    {host : Host}
    {step : Step}
    {why : WorkspaceError}
    (refused : host.enter pipeline.project step.workspace = .error why)
    (total index : Nat)
    (rest : List Step)
    (telling : Telling)
    (state : σ) :
    let passage := pipeline.runSteps index (step :: rest) state host
    pipeline.conductSteps total index (step :: rest) telling state host =
      { records := passage.records
        termination := passage.termination
        telling := telling.hearAll total passage.occurrences
        state := passage.state
        host := passage.host } := by
  intro passage
  have executed : passage = _ := pipeline.runSteps_of_enter_error refused index rest state
  rw [executed]
  conv => lhs; unfold conductSteps
  simp only [refused]
  rfl

/-- After a call, conducting hears what has happened around it and goes on if the run does. -/
theorem conductSteps_of_makes
    {pipeline : Pipeline σ}
    {host : Host}
    {call : Call σ}
    (makes : pipeline.Makes host call)
    (total index : Nat)
    (rest : List Step)
    (telling : Telling) :
    let told := telling.hearAll total (call.occurrences pipeline.runner.program index)
    pipeline.conductSteps total index (call.step :: rest) telling call.given host =
      match pipeline.reason? call with
      | some reason =>
        { records := [call.record pipeline.runner.program index]
          termination := .aborted index (some call.step.id) reason
          telling := told
          state := call.after
          host := call.left.leave.1 }
      | none =>
        let later := pipeline.conductSteps total (index + 1) rest told call.after call.left.leave.1
        { later with records := call.record pipeline.runner.program index :: later.records } := by
  intro told
  have sameStart := (Host.enter_frame makes.entered).2
  have sameEnd := call.left.leave_frame.2
  conv => lhs; unfold conductSteps
  cases stops : abortReason? pipeline.interruptPolicy call.step.policy call.status with
  | some reason =>
      simp only [told, hearAll_call, makes.entered, makes.returned, sameStart, sameEnd, reason?,
        stops, Call.record]
  | none =>
      simp only [told, hearAll_call, makes.entered, makes.returned, sameStart, sameEnd, reason?,
        stops, Call.record]

/-- Steps are executed as if nothing was told, and told as they are executed. -/
theorem conductSteps_eq
    (pipeline : Pipeline σ)
    (total index : Nat)
    (steps : List Step)
    (telling : Telling)
    (state : σ)
    (host : Host) :
    let passage := pipeline.runSteps index steps state host
    pipeline.conductSteps total index steps telling state host =
      { records := passage.records
        termination := passage.termination
        telling := telling.hearAll total passage.occurrences
        state := passage.state
        host := passage.host } := by
  induction steps generalizing index telling state host with
  | nil =>
      rfl
  | cons step rest inductionHypothesis =>
      cases entering : host.enter pipeline.project step.workspace with
      | error why =>
          exact pipeline.conductSteps_of_enter_error entering total index rest telling state
      | ok entered =>
          let call := pipeline.callFor step state entered
          have makes : pipeline.Makes host call := pipeline.makes_callFor entering state
          have executed := runSteps_of_makes makes index rest
          have conducted := conductSteps_of_makes makes total index rest telling
          change pipeline.runSteps index (step :: rest) state host = _ at executed
          change pipeline.conductSteps total index (step :: rest) telling state host = _
            at conducted
          rw [executed, conducted]
          cases stops : pipeline.reason? call with
          | some reason =>
              rfl
          | none =>
              simp only [inductionHypothesis, Telling.hearAll_append]

/-- A run comes to what it comes to without being told, and is told as it could be afterwards. -/
theorem conduct_eq
    (pipeline : Pipeline σ)
    (plan : Plan)
    (telling : Telling)
    (state : σ)
    (host : Host) :
    let execution := pipeline.execute plan state host
    pipeline.conduct plan telling state host =
      { result := execution.result
        telling := telling.hearAll plan.size execution.occurrences
        state := execution.state
        host := execution.host } := by
  cases holder : host.held? with
  | some held =>
      simp only [conduct, holder, execute, refuse, Telling.hearAll, List.foldl_cons, List.foldl_nil]
  | none =>
      simp only [conduct, holder, execute, executeFree, conductSteps_eq, Telling.hearAll,
        List.foldl_append, List.foldl_cons, List.foldl_nil]

/-- Conducting a run comes to what executing it comes to. -/
theorem outcome_conduct
    (pipeline : Pipeline σ)
    (plan : Plan)
    (telling : Telling)
    (state : σ)
    (host : Host) :
    (pipeline.conduct plan telling state host).outcome =
      (pipeline.execute plan state host).outcome := by
  rw [conduct_eq]
  rfl

/-- A narrator that is told a run while it goes on ends as one that is told of it afterwards. -/
theorem narrator_conduct
    (pipeline : Pipeline σ)
    (plan : Plan)
    (telling : Telling)
    (state : σ)
    (host : Host) :
    (pipeline.conduct plan telling state host).telling.narrator =
      telling.narrator.tellRun plan.size (pipeline.execute plan state host).occurrences := by
  rw [conduct_eq]
  exact Telling.narrator_hearAll plan.size telling _

/-- Noting the calls of the runner has no influence on a run. -/
theorem execute_noting
    (pipeline : Pipeline σ)
    (plan : Plan)
    (noted : σ × List (Call σ))
    (host : Host) :
    (pipeline.noting.execute plan noted host).map Prod.fst =
      pipeline.execute plan noted.1 host := by
  cases holder : host.held? with
  | some held =>
      rw [execute_of_held holder, execute_of_held holder]
      rfl
  | none =>
      rw [execute_of_free holder, execute_of_free holder, executeFree, executeFree,
        ← pipeline.runSteps_noting 0 plan.steps noted host]
      rfl

end Pipeline

/-! ## What is given to the writer -/

theorem Notice.eq_entry_of_entry?
    {notice : Notice}
    {entry : LogEntry}
    (isEntry : notice.entry? = some entry) :
    notice = .entry entry := by
  cases notice with
  | entry other =>
      exact congrArg Notice.entry (Option.some.inj isEntry)
  | _ =>
      contradiction

namespace LogWriter

/-- Why the writer does not take a line when it has been given so many others, if it does not. -/
def refusal? : LogWriter → Nat → Option OsError
  | .keep lines (some (limit, why)) _, count =>
    if lines.size + count < limit then none else some why
  | _, _ => none

/-- A writer takes a line unless it refuses the next one. -/
theorem write_eq
    (writer : LogWriter)
    (line : String) :
    writer.write line =
      match writer.refusal? 0 with
      | none => .ok (writer.after [line])
      | some why => .error why := by
  cases writer with
  | discard =>
      rfl
  | keep lines limit? flushError? =>
      cases limit? with
      | none =>
          simp [write, refusal?, after]
      | some bound =>
          by_cases room : lines.size < bound.1 <;> simp [write, refusal?, after, room]

/-- What a writer refuses is counted from the lines that it has taken. -/
theorem refusal?_after
    (writer : LogWriter)
    (line : String)
    (count : Nat) :
    (writer.after [line]).refusal? count = writer.refusal? (count + 1) := by
  cases writer with
  | discard =>
      rfl
  | keep lines limit? flushError? =>
      cases limit? with
      | none =>
          rfl
      | some bound =>
          simp [refusal?, after, Nat.add_assoc, Nat.add_comm 1]

end LogWriter

/-- The writes of an emitter that has been given entries: it goes through them in order, until its
writer does not take a line. -/
structure Emitter.Attempts
    (emitter : Emitter)
    (entries : List LogEntry)
    (writes : List Write) : Prop where
  lines :
    writes.map Write.line <+:
      (completed emitter.runId emitter.sequence entries).map LogEntry.line
  outcomes :
    ∀ index write,
      writes[index]? = some write → write.error? = emitter.writer.refusal? index
  /-- Nothing is written after a line that has not been taken. -/
  once : writes.Pairwise fun earlier _ => earlier.error? = none
  /-- All entries are written, unless there is a line that has not been taken. -/
  all :
    writes.length < entries.length →
      ∃ last, writes.getLast? = some last ∧ last.error? ≠ none

namespace Emitter

theorem attempts_nil (emitter : Emitter) : emitter.Attempts [] [] :=
  ⟨List.nil_prefix, nofun, .nil, nofun⟩

/-- A line that is not taken is the last one. -/
theorem attempts_refused
    {emitter : Emitter}
    {why : OsError}
    (refused : emitter.writer.refusal? 0 = some why)
    (entry : LogEntry)
    (others : List LogEntry) :
    emitter.Attempts (entry :: others) [⟨(emitter.complete entry).line, some why⟩] where
  lines := ⟨_, rfl⟩
  outcomes := by
    intro index write found
    cases index with
    | zero =>
        obtain rfl := Option.some.inj found
        exact refused.symm
    | succ index =>
        contradiction
  once := List.pairwise_singleton _ _
  all _ := ⟨_, rfl, nofun⟩

/-- After a line that is taken, the emitter goes on with the other entries. -/
theorem Attempts.cons
    {emitter : Emitter}
    (taken : emitter.writer.refusal? 0 = none)
    {entry : LogEntry}
    {others : List LogEntry}
    {writes : List Write}
    (later : (emitter.wrote [entry]).Attempts others writes) :
    emitter.Attempts (entry :: others) (⟨(emitter.complete entry).line, none⟩ :: writes) where
  lines := by
    obtain ⟨more, split⟩ := later.lines
    refine ⟨more, ?_⟩
    rw [List.map_cons, List.cons_append, split, completed, nextSequence_eq]
    rfl
  outcomes := by
    intro index write found
    cases index with
    | zero =>
        obtain rfl := Option.some.inj found
        exact taken.symm
    | succ index =>
        rw [later.outcomes index write found]
        exact LogWriter.refusal?_after _ _ _
  once := List.pairwise_cons.mpr ⟨fun _ _ => rfl, later.once⟩
  all short := by
    obtain ⟨last, isLast, failed⟩ := later.all (Nat.lt_of_succ_lt_succ short)
    exact ⟨last, by rw [List.getLast?_cons, isLast]; rfl, failed⟩

/-- An entry is emitted unless its line is refused. -/
theorem emit_eq
    (emitter : Emitter)
    (entry : LogEntry) :
    emitter.emit entry =
      match emitter.writer.refusal? 0 with
      | none => (none, emitter.wrote [entry])
      | some why => (some why, { emitter with sequence := emitter.nextSequence entry }) := by
  simp only [emit, LogWriter.write_eq]
  cases emitter.writer.refusal? 0 with
  | none =>
      simp only [nextSequence_eq]
      rfl
  | some why =>
      rfl

end Emitter

namespace Telling

/-- Only entries are written. -/
theorem tell_of_entry?_eq_none
    (telling : Telling)
    {notice : Notice}
    (silent : notice.entry? = none) :
    (telling.tell notice).narrator.emitter = telling.narrator.emitter ∧
      (telling.tell notice).narrator.logging = telling.narrator.logging ∧
      (telling.tell notice).writes = telling.writes := by
  obtain ⟨sameEmitter, sameLogging⟩ := telling.narrator.tell_of_entry?_eq_none silent
  refine ⟨sameEmitter, sameLogging, ?_⟩
  cases notice with
  | entry entry =>
      contradiction
  | _ =>
      exact List.append_nil _

/-- A narrator that has given up the log writes nothing, and does not take the log up again. -/
theorem tell_of_not_logging
    {telling : Telling}
    (silent : telling.narrator.logging = false)
    (notice : Notice) :
    (telling.tell notice).narrator.logging = false ∧
      (telling.tell notice).writes = telling.writes := by
  cases isEntry : notice.entry? with
  | none =>
      obtain ⟨_, sameLogging, sameWrites⟩ := telling.tell_of_entry?_eq_none isEntry
      exact ⟨sameLogging.trans silent, sameWrites⟩
  | some entry =>
      obtain rfl := Notice.eq_entry_of_entry? isEntry
      simp [tell, Narrator.tell, Narrator.log, Narrator.write?, silent]

/-- A narrator that has stopped logging writes no more. -/
theorem writes_of_not_logging
    {telling : Telling}
    (silent : telling.narrator.logging = false)
    (notices : List Notice) :
    (notices.foldl tell telling).writes = telling.writes := by
  induction notices generalizing telling with
  | nil =>
      rfl
  | cons notice rest inductionHypothesis =>
      obtain ⟨still, same⟩ := tell_of_not_logging silent notice
      exact (inductionHypothesis still).trans same

/-- An entry is written, and the log is given up if the writer does not take its line. -/
theorem tell_entry
    {telling : Telling}
    (logging : telling.narrator.logging = true)
    (entry : LogEntry) :
    let line := (telling.narrator.emitter.complete entry).line
    let refusal? := telling.narrator.emitter.writer.refusal? 0
    let told := telling.tell (.entry entry)
    told.writes = telling.writes ++ [⟨line, refusal?⟩] ∧
      (refusal? = none →
        told.narrator.emitter = telling.narrator.emitter.wrote [entry]) ∧
      told.narrator.logging = refusal?.isNone := by
  cases outcome : telling.narrator.emitter.writer.refusal? 0 <;>
    simp [tell, Narrator.tell, Narrator.log, Narrator.write?, Narrator.display, logging,
      Emitter.emit_eq, outcome]

/-- A narrator that is told notices attempts to write their entries. -/
theorem attempts_foldl_tell
    {telling : Telling}
    (logging : telling.narrator.logging = true)
    (notices : List Notice) :
    ∃ writes,
      (notices.foldl tell telling).writes = telling.writes ++ writes ∧
        telling.narrator.emitter.Attempts (notices.filterMap Notice.entry?) writes := by
  induction notices generalizing telling with
  | nil =>
      exact ⟨[], (List.append_nil _).symm, Emitter.attempts_nil _⟩
  | cons notice rest inductionHypothesis =>
      rw [List.foldl_cons]
      cases isEntry : notice.entry? with
      | none =>
          obtain ⟨sameEmitter, sameLogging, sameWrites⟩ :=
            telling.tell_of_entry?_eq_none isEntry
          rw [List.filterMap_cons_none isEntry, ← sameEmitter, ← sameWrites]
          exact inductionHypothesis (sameLogging.trans logging)
      | some entry =>
          obtain rfl := Notice.eq_entry_of_entry? isEntry
          obtain ⟨written, taken, still⟩ := tell_entry logging entry
          rw [List.filterMap_cons_some isEntry]
          cases outcome : telling.narrator.emitter.writer.refusal? 0 with
          | none =>
              rw [outcome] at still written
              obtain ⟨writes, later, attempts⟩ := inductionHypothesis still
              rw [taken outcome] at attempts
              refine ⟨_, ?_, attempts.cons outcome⟩
              rw [later, written, List.append_assoc, List.singleton_append]
          | some why =>
              rw [outcome] at still written
              refine ⟨_, ?_, Emitter.attempts_refused outcome entry _⟩
              rw [writes_of_not_logging still, written]

end Telling

namespace Pipeline

/-- The narrator of several runs is told all that happens in them. -/
theorem conductAll_eq
    (pipeline : Pipeline σ)
    (telling : Telling)
    (runs : List (Plan × σ × Host)) :
    pipeline.conductAll telling runs =
      (runs.flatMap fun (plan, state, host) =>
        (pipeline.execute plan state host).occurrences.flatMap
          (Occurrence.notices plan.size)).foldl Telling.tell telling := by
  simp only [conductAll, conduct_eq, Telling.hearAll_eq_foldl_tell, List.foldl_flatMap]

/--
A run comes to the same result, in the same state and host, and makes the same
calls in the same workspaces, whoever it is told to and whatever becomes of the
log.  An emitter that is used for several runs goes through their entries in
order, and writes nothing more once its writer has not taken a line.
-/
theorem conduct_unaffected
    (pipeline : Pipeline σ)
    (plan : Plan)
    (state : σ)
    (host : Host)
    (emitter : Emitter)
    (progress : Bool)
    (runs : List (Plan × σ × Host)) :
    (∃ calls, ∀ telling : Telling,
      let execution := pipeline.execute plan state host
      (pipeline.conduct plan telling state host).outcome =
          (execution.result, execution.state, execution.host) ∧
        (pipeline.noting.conduct plan telling (state, []) host).outcome =
          (execution.result, (execution.state, calls), execution.host)) ∧
      emitter.Attempts
        (runs.flatMap fun (plan, state, host) => (pipeline.execute plan state host).entries)
        (pipeline.conductAll { narrator := { emitter, progress } } runs).writes := by
  constructor
  · refine ⟨(pipeline.noting.execute plan (state, []) host).state.2, fun telling => ?_⟩
    have same := pipeline.execute_noting plan (state, []) host
    simp only [outcome_conduct, ← same]
    exact ⟨rfl, rfl⟩
  · let telling : Telling := { narrator := { emitter, progress } }
    let notices :=
      runs.flatMap fun (plan, state, host) =>
        (pipeline.execute plan state host).occurrences.flatMap (Occurrence.notices plan.size)
    have logged :
        notices.filterMap Notice.entry? =
          runs.flatMap fun (plan, state, host) => (pipeline.execute plan state host).entries := by
      rw [List.filterMap_flatMap]
      exact congrArg runs.flatMap (funext fun run => filterMap_flatMap_notices run.1.size _)
    obtain ⟨writes, written, attempts⟩ := telling.attempts_foldl_tell rfl notices
    rw [conductAll_eq, ← logged]
    rw [List.nil_append] at written
    rwa [← written] at attempts

/-- A writer that has room for a line is given two in two runs. -/
example :
    let passing : Runner Unit :=
      { program := "cargo"
        run := fun _ _ inside => ((.passed, ()), inside) }
    let pipeline : Pipeline Unit := ⟨passing, ⟨[]⟩, .abort⟩
    let run : Plan × Unit × Host := (⟨[]⟩, (), { tree := .empty, here := .root })
    let emitter := Emitter.ofWriter (.keep #[] (some (1, .noSpace)) none) "run"
    let narrator : Narrator := { emitter := emitter, progress := false }
    (pipeline.conductAll { narrator } [run, run]).writes.map Write.error? =
      [none, some .noSpace] := by
  decide +kernel

end Pipeline

end VerifyPipeline
