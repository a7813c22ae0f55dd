import VerifyPipeline.Proofs.CommandLine.Shown
import VerifyPipeline.Proofs.Plan.Ignored

namespace VerifyPipeline

/-!
# Requests that are ignored

Who asks for all combinations of a tool that is skipped gets a warning instead: on the standard
error output, as one of the first entries of the log, and in the report.  Nobody else gets one.
-/

/-! ## The warnings of a log -/

/-- The entry warns about an inconsistency. -/
structure LogEntry.WarnsOf (entry : LogEntry) (issue : Inconsistency) : Prop where
  level : entry.level = .warn
  event : entry.event = "config_inconsistency"
  skipFlag : entry.detail? "skip_flag" = some (.string issue.skipFlag)
  exhaustiveFlag : entry.detail? "exhaustive_flag" = some (.string issue.exhaustiveFlag)

/-- The entry about an inconsistency warns of it. -/
theorem Inconsistency.warnsOf_entry
    (issue : Inconsistency)
    (clock : Instant) :
    (issue.entry clock).WarnsOf issue where
  level := rfl
  event := rfl
  skipFlag := by
    simp only [LogEntry.detail?, entry, LogEntry.withDetails, Option.bind_some, Json.get?_canonical]
    rfl
  exhaustiveFlag := by
    simp only [LogEntry.detail?, entry, LogEntry.withDetails, Option.bind_some, Json.get?_canonical]
    rfl

/-- No entry about a run warns about the configuration. -/
theorem RunResult.event_of_mem_marks
    {result : RunResult}
    {mark : LogMark}
    (member : mark ∈ result.marks) :
    mark.event ≠ "config_inconsistency" := by
  simp only [marks, List.mem_append, List.mem_singleton, List.mem_map] at member
  rcases member with (((rfl | recorded) | barred) | ⟨_, _, rfl⟩) | rfl
  · simp
  · obtain ⟨⟨record, index⟩, _, isMark⟩ := List.mem_flatMap.mp recorded
    simp only [StepRecord.marks, List.mem_cons, List.not_mem_nil, or_false] at isMark
    rcases isMark with rfl | rfl <;> simp
  · unfold Termination.barredMarks at barred
    split at barred
    · simp only [List.mem_cons, List.not_mem_nil, or_false] at barred
      rcases barred with rfl | rfl <;> simp
    · contradiction
  · simp [skippedMark]
  · unfold endMark
    split <;> simp

namespace Surroundings

variable
  {around : Surroundings}
  {options : Options}
  {project : Project}
  {log : CommandLog}
  {host : Host}

/-- The text of a log has the warnings about the configuration first and the run after them. -/
structure LogWarns
    (around : Surroundings)
    (text : String)
    (before during : List LogEntry) : Prop where
  lines : text = Text.ofLines ((before ++ during).map LogEntry.line)
  checked : LogCheck.ofText text.toList = ⟨(before ++ during).length, []⟩
  count : before.length = around.config.inconsistencies.length
  /-- The warnings keep the order of the configuration, and take the first trace ids. -/
  warned :
    ∀ (index : Nat) (issue : Inconsistency),
      around.config.inconsistencies[index]? = some issue →
        ∃ entry,
          before[index]? = some entry ∧
            entry.WarnsOf issue ∧
            entry.traceId = Emitter.traceId around.plan.runId (index + 1)
  started : ∃ start others, during = start :: others ∧ start.event = "pipeline_start"
  once : ∀ entry ∈ during, entry.event ≠ "config_inconsistency"

/-- A log that tells a run has the warnings first. -/
theorem logWarns_of_logs
    {result : RunResult}
    {text : String}
    {clock : Instant}
    {during : List LogEntry}
    (logs :
      result.Logs around.config text
        (Emitter.completed around.plan.runId 0 (around.warningEntries clock)) during) :
    around.LogWarns text
      (Emitter.completed around.plan.runId 0 (around.warningEntries clock)) during where
  lines := logs.lines
  checked := logs.checked
  count := by
    rw [Emitter.length_completed, warningEntries, List.length_map]
  warned := by
    intro index issue isIssue
    have blank : ∀ entry ∈ around.warningEntries clock, entry.traceId = "" :=
      List.forall_mem_map.mpr fun _ _ => rfl
    have found : (around.warningEntries clock)[index]? = some (issue.entry clock) := by
      rw [warningEntries, List.getElem?_map, isIssue]
      rfl
    have completed := Emitter.getElem?_completed blank around.plan.runId 0 index
    rw [found, Option.map_some] at completed
    refine ⟨_, completed, { issue.warnsOf_entry clock with }, ?_⟩
    rw [Nat.zero_add, Nat.add_comm]
  started := by
    have order := logs.told.order
    rw [RunResult.marks, List.append_assoc, List.append_assoc, List.append_assoc,
      List.singleton_append] at order
    obtain ⟨start, others, rfl, mark, _⟩ := List.map_eq_cons_iff.mp order
    exact ⟨start, others, rfl, congrArg LogMark.event mark⟩
  once := by
    intro entry member
    have isMark : entry.mark ∈ result.marks := by
      rw [← logs.told.order]
      exact List.mem_map_of_mem member
    exact RunResult.event_of_mem_marks isMark

/-- What is left of a run that was not a dry run, when it has ended in a host and its log has been
laid into the tree: its warnings come first in the log, and are in the report. -/
structure Records
    (around : Surroundings)
    (options : Options)
    (log : CommandLog)
    (ran : Host)
    (left : CommandResult)
    (logged : FileTree)
    (report : RunReport) : Prop where
  /-- The log has the warnings first.  It is found in its file, unless a step has changed that. -/
  log :
    ∀ path,
      options.log = some path →
        ∃ writer before during,
          around.LogWarns writer.text before during ∧
            logged = (log.store writer ran).tree ∧
            ∀ number,
              around.logNumber? path = some number →
                around.SparesFile options number →
                  (logged.file number).content = some writer.text
  /-- The report has the warnings. -/
  warnings : report.warnings = around.config.inconsistencies.map Inconsistency.text
  /-- Nothing but the report is written after the log. -/
  tree :
    left.host.tree =
      match options.report with
      | none => logged
      | some path => (report.write logged left.host.here path).2
  /-- A report that has been written is found under its path and, as JSON, beside it. -/
  reports :
    ∀ path,
      options.report = some path →
        left.host.tree.Plain left.host.here path →
          left.host.tree.Plain left.host.here (Path.jsonSibling path) →
            left.host.tree.Unlinked left.host.here path (Path.jsonSibling path) →
              left.exitCode ≠ failureCode → around.Reports path left report

/-- Finishing writes nothing but the report. -/
theorem tree_finish
    (around : Surroundings)
    (options : Options)
    (result : RunResult)
    (ended : CommandResult) :
    (around.finish options result ended).host.tree =
      match options.report with
      | none => ended.host.tree
      | some path =>
        ((around.report options result ended.host.clock).write ended.host.tree ended.host.here
          path).2 := by
  unfold finish
  cases options.report with
  | none =>
      rfl
  | some path =>
      rcases written :
        (around.report options result ended.host.clock).write ended.host.tree ended.host.here path
        with ⟨_ | _, _⟩ <;>
        simp only [written]

/-- What a run has logged and reported before it ends. -/
theorem OpensLog.exists_records
    (opens : around.OpensLog options log host)
    (located : Project.locate around.host options.root = .ok project)
    (free : around.host.held? = none) :
    let left := around.carryOut options project log (around.warned log host.clock) host
    let ran := (around.execution options project host).host
    ∃ logged report, around.Records options log ran left logged report := by
  intro left ran
  have begins := opens.begins located
  let executed := around.executed options project log (around.warned log host.clock) host
  let result := (around.execution options project host).result
  refine ⟨executed.host.tree, around.report options result executed.host.clock, ?_⟩
  exact {
    log := by
      intro path logging
      have memory : log.writer = .memory := by
        rw [opens.writer, logging]
        rfl
      obtain ⟨later, logs⟩ :=
        around.exists_logs_of_memory options project host.clock (begins.frame.2.trans free)
      simp only [← begins.emitter_of_memory memory] at logs
      refine ⟨_, _, _, logWarns_of_logs logs, rfl, fun number isNumber spares => ?_⟩
      obtain ⟨file, rfl, isFile⟩ := begins.exists_opened logging isNumber
      exact LogFile.content_store isFile (begins.file_execution free spares) _
    warnings := rfl
    tree := by
      have here : left.host.here = executed.host.here := around.here_finish options result executed
      rw [here]
      exact around.tree_finish options result executed
    reports := fun path asked plain plainToo unlinked ended =>
      (exists_reports rfl asked plain plainToo unlinked ended).1
  }

/--
The inconsistencies of a configuration are the requests that its plan ignores,
for every catalog that is not empty.  A command whose log can be written shows
them as warnings, and no others if whenever it leaves a workspace the directory
can be entered that it was started from.  If it finds its project and is not a
dry run, then they are what its log begins with before the run is started, and
the warnings of its report.

Nothing is held when a command starts.
-/
theorem ignored_requests_told :
    (∀ (lookup : String → Option String) (catalog : FeatureCatalog) (workspaces : WorkspaceSet),
        catalog.combinations ≠ [] →
          (Plan.build (.ofLookup lookup) catalog workspaces).NamesIgnored lookup) ∧
      ∀ (around : Surroundings) (arguments : List String) (options : Options)
          (log : CommandLog) (host : Host),
        Request.ofArguments arguments = .ok (.run options) →
          around.OpensLog options log host →
            ((options.dryRun = false → around.KeepsStart options) →
                around.ShowsWarnings (around.run arguments)) ∧
              (options.dryRun = false →
                around.host.held? = none →
                  ∀ project,
                    Project.locate around.host options.root = .ok project →
                      let ran := (around.execution options project host).host
                      ∃ logged report,
                        around.Records options log ran (around.run arguments) logged report) := by
  constructor
  · intro lookup catalog workspaces nonempty
    exact Plan.namesIgnored_build lookup nonempty workspaces
  · intro around arguments options log host parsed opens
    refine ⟨opens.showsWarnings_run parsed, fun wet free project located => ?_⟩
    have ran :
        around.run arguments =
          around.carryOut options project log (around.warned log host.clock) host := by
      simp only [run, parsed, wet, Bool.false_eq_true, ↓reduceIte]
      exact perform_of_begins (opens.begins located)
    rw [ran]
    exact opens.exists_records located free

/-- The theorem at an environment in which every variable is set, for a command that keeps a log and
for one that is asked for a report. -/
theorem ignored_requests_told_both :
    let around : Surroundings :=
      { host := {
          tree := { entries := [(["tool"], .file 0)], files := [(0, { executable := true })] }
          here := .root }
        environment := fun _ => some "1"
        installed := []
        children := fun _ => {} }
    let logging := around.run ["--cargo", "/tool", "--log", "out/run.jsonl"]
    let reporting := around.run ["--cargo", "/tool", "--report", "out/run"]
    let issues : List Inconsistency := [
      ⟨"SKIP_VALGRIND", "VALGRIND_EXHAUSTIVE"⟩, ⟨"SKIP_MIRI", "MIRI_EXHAUSTIVE"⟩]
    around.config.inconsistencies = issues ∧
      around.plan.NamesIgnored around.environment ∧
      logging.messages.filter isWarning = issues.map Inconsistency.warning ∧
      (∃ text before during,
        logging.host.tree.readText around.host.here "out/run.jsonl" = .ok text ∧
          around.LogWarns text before during ∧ before.length = 2) ∧
      ∃ report,
        around.Reports "out/run" reporting report ∧
          report.warnings = issues.map Inconsistency.text := by
  intro around logging reporting issues
  have named : around.config.inconsistencies = issues := by decide +kernel
  have nonempty : FeatureCatalog.lexical.combinations ≠ [] := by decide +kernel
  have located : Project.locate around.host "." = .ok ⟨[]⟩ := by decide +kernel
  obtain ⟨ignored, told⟩ := ignored_requests_told
  have keepsLog :
      logging.messages.filter isWarning = issues.map Inconsistency.warning ∧
        ∃ text before during,
          logging.host.tree.readText around.host.here "out/run.jsonl" = .ok text ∧
            around.LogWarns text before during ∧ before.length = 2 := by
    let options : Options := { cargo := "/tool", log := some "out/run.jsonl" }
    let log : CommandLog := ⟨some ⟨some (1, {})⟩, .memory⟩
    let host := (CommandLog.start (some "out/run.jsonl") around.host).2
    have opens : around.OpensLog options log host := ⟨by decide +kernel, fun _ => nofun⟩
    have parsed :
        Request.ofArguments ["--cargo", "/tool", "--log", "out/run.jsonl"] =
          .ok (.run options) := by
      rfl
    obtain ⟨shows, records⟩ := told around _ options log host parsed opens
    obtain ⟨logged, report, records⟩ := records rfl rfl ⟨[]⟩ located
    change around.Records options log _ logging logged report at records
    obtain ⟨writer, before, during, warns, _, kept⟩ := records.log _ rfl
    have spares : around.SparesFile options 1 := by
      unfold SparesFile
      decide +kernel
    have content := kept 1 (by decide +kernel) spares
    have tree : logging.host.tree = logged := records.tree
    rw [← tree] at content
    have isEntry :
        logging.host.tree.entryLocation around.host.here "out/run.jsonl" =
          .ok ["out", "run.jsonl"] := by
      decide +kernel
    have isName : logging.host.tree.number? ["out", "run.jsonl"] = some 1 := by decide +kernel
    have leads := FileTree.leadsTo_of_entry isEntry isName
    have count : before.length = 2 := warns.count.trans (by rw [named]; rfl)
    refine ⟨?_, writer.text, before, during, leads.readText content, warns, count⟩
    rw [← named]
    exact (shows fun _ _ _ => .root _).only
  have writesReport :
      ∃ report,
        around.Reports "out/run" reporting report ∧
          report.warnings = issues.map Inconsistency.text := by
    let options : Options := { cargo := "/tool", report := some "out/run" }
    have opens : around.OpensLog options ⟨none, .discard⟩ around.host := ⟨rfl, fun _ => trivial⟩
    have parsed :
        Request.ofArguments ["--cargo", "/tool", "--report", "out/run"] = .ok (.run options) := by
      rfl
    obtain ⟨_, records⟩ := told around _ options ⟨none, .discard⟩ around.host parsed opens
    obtain ⟨logged, report, records⟩ := records rfl rfl ⟨[]⟩ located
    change around.Records options _ _ reporting logged report at records
    have ended : reporting.exitCode ≠ failureCode := by decide +kernel
    have isEntry :
        reporting.host.tree.entryLocation reporting.host.here "out/run" = .ok ["out", "run"] := by
      decide +kernel
    have isSibling :
        reporting.host.tree.entryLocation reporting.host.here (Path.jsonSibling "out/run") =
          .ok ["out", "run.json"] := by
      decide +kernel
    have isName : reporting.host.tree.number? ["out", "run"] = some 1 := by decide +kernel
    have isNameToo : reporting.host.tree.number? ["out", "run.json"] = some 2 := by decide +kernel
    have reports :=
      records.reports "out/run" rfl (FileTree.plain_of_number isEntry isName)
        (FileTree.plain_of_number isSibling isNameToo)
        (FileTree.unlinked_of_number isEntry isSibling isName isNameToo (by decide)) ended
    exact ⟨report, reports, by rw [records.warnings, named]⟩
  exact ⟨named, ignored around.environment .lexical .lexical nonempty, keepsLog.1, keepsLog.2,
    writesReport⟩

/-- The log can be written and the exit code is 0, but there is one more warning when a program has
removed the directory that the command was started from, and there is no log after a dry run. -/
theorem ignored_requests_told_otherwise :
    let around : Surroundings :=
      { host := {
          tree := {
            entries := [(["tool"], .file 0), (["p"], .directory)]
            files := [(0, { executable := true })] }
          here := .ofLocation ["p"] }
        environment := fun _ => some "1"
        installed := []
        children := fun _ =>
          { acts := fun scene => { scene with tree := scene.tree.remove ["p"] } } }
    let options : Options := { root := "/", cargo := "/tool", log := some "/run.jsonl" }
    let arguments := ["--root", "/", "--cargo", "/tool", "--log", "/run.jsonl"]
    let left := around.run arguments
    let dry := around.run ("--dry-run" :: arguments)
    Request.ofArguments arguments = .ok (.run options) ∧
      Request.ofArguments ("--dry-run" :: arguments) = .ok (.run { options with dryRun := true }) ∧
      (∃ log host, around.OpensLog options log host) ∧
      around.config.inconsistencies.length = 2 ∧
      left.exitCode = 0 ∧
      (left.messages.filter isWarning).length = 3 ∧
      dry.exitCode = 0 ∧
      ∀ text, dry.host.tree.readText around.host.here "/run.jsonl" ≠ .ok text := by
  intro around options arguments left dry
  let log : CommandLog := ⟨some ⟨some (1, {})⟩, .memory⟩
  let host := (CommandLog.start options.log around.host).2
  have opens : around.OpensLog options log host := ⟨by decide +kernel, fun _ => nofun⟩
  have absent : (dry.host.tree.readText around.host.here "/run.jsonl").toOption = none := by
    decide +kernel
  refine ⟨by rfl, by rfl, ⟨log, host, opens⟩, by decide +kernel, by decide +kernel,
    by decide +kernel, by decide +kernel, fun text found => ?_⟩
  rw [found] at absent
  contradiction

end Surroundings

end VerifyPipeline
