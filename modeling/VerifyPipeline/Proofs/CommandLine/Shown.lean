import VerifyPipeline.Proofs.CommandLine.Artifacts
import VerifyPipeline.Proofs.Run.Messages

namespace VerifyPipeline

/-!
# The warnings that a command shows

While its log can be written, a command warns about its configuration and about directories that it
could not make current again.  There is none of those if whenever a workspace is left the directory
can be entered that the command was started from.
-/

/-! ## Directories that are made current again -/

namespace Pipeline

/-- Nothing is warned about when steps are skipped. -/
theorem warnings_skipSteps
    (clock : Instant)
    (index : Nat)
    (steps : List Step) :
    (skipSteps clock index steps).filterMap (fun occurrence => occurrence.event.warning?) = [] := by
  rw [List.filterMap_eq_nil_iff]
  intro occurrence member
  obtain ⟨_, _, _, rfl⟩ := exists_of_mem_skipSteps member
  rfl

/-- The warnings of a run are those after its calls. -/
theorem warnings_execute
    (pipeline : Pipeline σ)
    (plan : Plan)
    (state : σ)
    (host : Host) :
    (pipeline.execute plan state host).occurrences.filterMap
        (fun occurrence => occurrence.event.warning?) =
      (pipeline.noting.execute plan (state, []) host).state.2.filterMap Call.warning? := by
  cases holder : host.held? with
  | some held =>
      rw [execute_of_held holder, execute_of_held holder]
      rfl
  | none =>
      obtain ⟨_, occurrences⟩ := pipeline.occurrences_of_free holder plan state
      rw [occurrences, List.filterMap_append, List.filterMap_append, List.filterMap_append,
        (pipeline.passes_noted plan state holder).warnings, warnings_skipSteps]
      simp [RunEvent.warning?]

/-- A run that leaves every workspace for a directory that can be entered gives no warning. -/
theorem warnings_execute_of_enterable
    {pipeline : Pipeline σ}
    {plan : Plan}
    {state : σ}
    {host : Host}
    (releases : pipeline.runner.Releases)
    (enterable :
      ∀ call ∈ (pipeline.noting.execute plan (state, []) host).state.2,
        call.left.tree.Enterable host.here.live) :
    (pipeline.execute plan state host).occurrences.filterMap
        (fun occurrence => occurrence.event.warning?) =
      [] := by
  cases holder : host.held? with
  | some held =>
      rw [execute_of_held holder]
      rfl
  | none =>
      have restored :=
        (pipeline.chain_of_noted plan state holder).restores releases holder enterable
      rw [warnings_execute, List.filterMap_eq_nil_iff]
      intro call member
      rw [Call.warning?, restored call member, Option.map_none]

end Pipeline

/-- The line about an error is no warning. -/
theorem CommandError.isWarning_line (error : CommandError) : isWarning error.line = false := by
  simp only [line, String.append_assoc]
  exact isWarning_append_of_head (by rfl) (by decide) _

/-- The line that announces a run is not a warning. -/
theorem Plan.isWarning_announcement
    (plan : Plan)
    (project : Project) :
    isWarning (plan.announcement project) = false := by
  simp only [announcement, String.append_assoc]
  exact isWarning_append_of_head (by rfl) (by decide) _

/-- A writer that takes any number of lines has no limit. -/
theorem LogFile.writer_of_create
    {tree later : FileTree}
    {here : Spot}
    {path : String}
    {file : LogFile}
    {writer : LogWriter}
    (created : LogFile.create tree here path = (.ok (file, writer), later))
    (takes : ∀ count, writer.Takes count) :
    writer = .memory := by
  unfold create at created
  split at created
  · simp at created
  · split at created
    · simp at created
    · simp only [Prod.mk.injEq, Except.ok.injEq] at created
      obtain ⟨⟨-, rfl⟩, -⟩ := created
      split at takes
      · exact absurd (takes 1 0 .noSpace rfl) (by decide)
      · rename_i unlimited
        rw [if_neg unlimited]
        rfl

namespace Surroundings

variable
  {around : Surroundings}
  {options : Options}
  {project : Project}
  {log : CommandLog}
  {host : Host}
  {left : CommandResult}

/-- The log of a command can be written: it has been opened, and takes any number of lines. -/
structure OpensLog
    (around : Surroundings)
    (options : Options)
    (log : CommandLog)
    (host : Host) : Prop where
  opened : CommandLog.start options.log around.host = (.ok log, host)
  takes : ∀ count, log.writer.Takes count

/-- A log that takes any number of lines has a writer without a limit, or there is no log. -/
theorem OpensLog.writer
    (opens : around.OpensLog options log host) :
    log.writer = if options.log.isSome then .memory else .discard := by
  obtain ⟨opened, takes⟩ := opens
  unfold CommandLog.start at opened
  cases asked : options.log with
  | none =>
      rw [asked] at opened
      obtain rfl := Except.ok.inj (Prod.mk.inj opened).1
      rfl
  | some path =>
      rcases created : LogFile.create around.host.tree around.host.here path with
        ⟨why | ⟨file, writer⟩, tree⟩
      · simp [asked, created] at opened
      · simp only [asked, created, Prod.mk.injEq, Except.ok.injEq] at opened
        obtain ⟨rfl, rfl⟩ := opened
        exact LogFile.writer_of_create created takes

/-- The emitter of a log that has taken the warnings about the configuration. -/
def warned (around : Surroundings) (log : CommandLog) (clock : Instant) : Emitter :=
  (Emitter.ofWriter log.writer around.plan.runId).wrote (around.warningEntries clock)

/-- A command whose log can be written begins its run if its project is found. -/
theorem OpensLog.begins
    (opens : around.OpensLog options log host)
    (located : Project.locate around.host options.root = .ok project) :
    around.Begins options project log (around.warned log host.clock) host where
  root := by
    unfold Project.locate at located
    split at located
    · rename_i root found
      obtain rfl := Except.ok.inj located
      exact found
    · contradiction
  opened := opens.opened
  warned := Emitter.emitAll_of_takes (opens.takes _)

/-- The warnings among the lines on the standard error output are those about the configuration. -/
structure ShowsWarnings (around : Surroundings) (left : CommandResult) : Prop where
  /-- They come before all other lines. -/
  first : around.config.inconsistencies.map Inconsistency.warning <+: left.messages
  /-- There are no others. -/
  only :
    left.messages.filter isWarning = around.config.inconsistencies.map Inconsistency.warning

/-- Lines behind the warnings that are no warnings themselves do not matter. -/
theorem showsWarnings_of_quiet
    {others : List String}
    (messages : left.messages = around.warnings ++ others)
    (quiet : others.filter isWarning = []) :
    around.ShowsWarnings left where
  first := ⟨others, messages.symm⟩
  only := by
    have warns : ∀ line ∈ around.warnings, isWarning line = true :=
      List.forall_mem_map.mpr fun issue _ => isWarning_append (by decide) issue.text
    rw [messages, List.filter_append, List.filter_eq_self.mpr warns, quiet, List.append_nil]
    rfl

/-- Writing the report adds no warning. -/
theorem exists_messages_finish
    (around : Surroundings)
    (options : Options)
    (result : RunResult)
    (ended : CommandResult) :
    ∃ last,
      (around.finish options result ended).messages = ended.messages ++ last ∧
        last.filter isWarning = [] := by
  unfold finish
  split
  · exact ⟨[], (List.append_nil _).symm, rfl⟩
  · simp only
    split
    · exact ⟨_, rfl, by simp [CommandError.isWarning_line]⟩
    · refine ⟨_, rfl, ?_⟩
      have quiet (rest : String) : isWarning ("Report written to " ++ rest) = false :=
        isWarning_append_of_head (by rfl) (by decide) rest
      simp [String.append_assoc, quiet]

/-- A log that can be written gives no trouble while the run is told. -/
theorem OpensLog.untroubled
    (opens : around.OpensLog options log host)
    (clock : Instant) :
    Narrator.Untroubled { emitter := around.warned log clock, progress := true } where
  logging := rfl
  takes count := (opens.takes _).after
  flushes := by
    refine (LogWriter.flushError?_after _ _).trans ?_
    rw [Emitter.ofWriter, opens.writer]
    split <;> rfl

/-- A run shows the warnings about the configuration, and no others if it is always led back to the
directory that the command was started from. -/
theorem OpensLog.showsWarnings_carryOut
    (opens : around.OpensLog options log host)
    (located : Project.locate around.host options.root = .ok project)
    (keeps : around.KeepsStart options) :
    around.ShowsWarnings
      (around.carryOut options project log (around.warned log host.clock) host) := by
  let emitter := around.warned log host.clock
  let narrator : Narrator := { emitter := emitter, progress := true }
  let execution := around.execution options project host
  let told := narrator.tellRun around.plan.size execution.occurrences
  have begins := opens.begins located
  rw [KeepsStart, begins.calls_eq, ← begins.frame.1] at keeps
  have shown : told.shown.toList.filter isWarning = [] :=
    ((opens.untroubled _).filter_shown_tellRun around.plan.size execution.occurrences).trans
      (Pipeline.warnings_execute_of_enterable (around.runner options.cargo).releases keeps)
  obtain ⟨last, messages, quiet⟩ :=
    around.exists_messages_finish options execution.result
      (around.executed options project log emitter host)
  have announced := Bool.eq_false_iff.mp (around.plan.isWarning_announcement project)
  let others :=
    around.plan.announcement project :: told.shown.toList ++ execution.result.summaryLines ++ last
  have order :
      (around.carryOut options project log emitter host).messages = around.warnings ++ others := by
    refine messages.trans ?_
    simp only [executed, others, List.append_assoc]
    rfl
  refine showsWarnings_of_quiet order ?_
  simp only [others, List.filter_append, List.cons_append, List.filter_cons_of_neg announced, shown,
    RunResult.filter_summaryLines, quiet, List.append_nil]

/-- Whatever comes of a command whose log can be written, it shows the warnings. -/
theorem OpensLog.showsWarnings_run
    {arguments : List String}
    (opens : around.OpensLog options log host)
    (parsed : Request.ofArguments arguments = .ok (.run options))
    (keeps : options.dryRun = false → around.KeepsStart options) :
    around.ShowsWarnings (around.run arguments) := by
  cases dry : options.dryRun with
  | true =>
      have ran : around.run arguments = around.preview options := by
        simp only [run, parsed, dry, ↓reduceIte]
      rw [ran]
      exact showsWarnings_of_quiet (List.append_nil _).symm rfl
  | false =>
      have ran : around.run arguments = around.perform options := by
        simp only [run, parsed, dry, Bool.false_eq_true, ↓reduceIte]
      rw [ran]
      cases located : Project.locate around.host options.root with
      | error error =>
          have refuses :
              around.perform options = around.refuse around.host (.root error) := by
            simp only [perform, located]
          rw [refuses]
          exact showsWarnings_of_quiet rfl (by simp [CommandError.isWarning_line])
      | ok project =>
          rw [perform_of_begins (opens.begins located)]
          exact opens.showsWarnings_carryOut located (keeps dry)

end Surroundings

end VerifyPipeline
