import VerifyPipeline.Proofs.CommandLine.Report
import VerifyPipeline.Proofs.Plan.Characters
import VerifyPipeline.Proofs.Run.Logging

namespace VerifyPipeline

/-!
# Three files and two places

A command that is asked for a log and for a report writes three files.  The two files of the report
never share an entry, but nothing keeps them apart from the log: it is complete if it has an entry
of its own, and if it has not, then the report stands in its place.
-/

open Json

/-! ## Logs that tell a run -/

/-- The text of a log tells a run: warnings come before the entries about the run, each line is an
entry that keeps the rules, and the last one says how the run ended. -/
structure RunResult.Logs
    (result : RunResult)
    (config : Config)
    (text : String)
    (warnings entries : List LogEntry) : Prop where
  lines : text = Text.ofLines ((warnings ++ entries).map LogEntry.line)
  checked : LogCheck.ofText text.toList = ⟨(warnings ++ entries).length, []⟩
  warned :
    warnings.map LogEntry.event = config.inconsistencies.map fun _ => "config_inconsistency"
  told : result.ToldBy entries
  ended :
    ∃ last,
      (warnings ++ entries).getLast? = some last ∧
        (last.event = "pipeline_complete" ∨ last.event = "pipeline_aborted")

/-- The last entry about a run says that it has been completed or aborted. -/
theorem RunResult.ToldBy.exists_last
    {result : RunResult}
    {entries : List LogEntry}
    (told : result.ToldBy entries) :
    ∃ last,
      entries.getLast? = some last ∧
        (last.event = "pipeline_complete" ∨ last.event = "pipeline_aborted") := by
  have ends : (entries.map LogEntry.mark).getLast? = some result.endMark := by
    rw [told.order]
    exact List.getLast?_concat
  rw [List.getLast?_map, Option.map_eq_some_iff] at ends
  obtain ⟨last, found, mark⟩ := ends
  refine ⟨last, found, ?_⟩
  have event : last.event = result.endMark.event := congrArg LogMark.event mark
  rw [event, endMark]
  split
  · exact .inl rfl
  · exact .inr rfl

/-! ## Texts that are no logs -/

/-- A text is no log if its first line is rejected. -/
theorem LogCheck.errors_ne_nil_of_first
    {first rest : List Char}
    (unbroken : '\n' ∉ first)
    (unreturned : '\r' ∉ first)
    (rejected : (LogCheck.ofLine first 1).errors ≠ []) :
    (LogCheck.ofText (first ++ '\n' :: rest)).errors ≠ [] := by
  rw [ofText, Text.lines_append unbroken unreturned, ofLines]
  intro accepted
  exact rejected (List.append_eq_nil_iff.mp accepted).1

/-- The title of a report is no line of a log. -/
theorem RunReport.errors_markdown_ne_nil
    {report : RunReport}
    (titled : report.title = RunReport.standardTitle) :
    (LogCheck.ofText report.markdown.toList).errors ≠ [] := by
  obtain ⟨rest, shape⟩ :
      ∃ rest,
        report.markdown.toList =
          ("# " ++ RunReport.standardTitle).toList ++ '\n' :: rest := by
    simp only [markdown, markdownLines, headLines, titled, Text.ofLines, List.cons_append,
      List.map_cons, String.join_cons, String.toList_append, List.append_assoc]
    exact ⟨_, rfl⟩
  rw [shape]
  exact LogCheck.errors_ne_nil_of_first (by decide) (by decide) (by decide +kernel)

/-- Neither is the brace in front of a JSON text. -/
theorem RunReport.errors_jsonText_ne_nil (report : RunReport) :
    (LogCheck.ofText report.jsonText.toList).errors ≠ [] := by
  obtain ⟨rest, shape⟩ : ∃ rest, report.jsonText.toList = ['\x7b'] ++ '\n' :: rest := by
    rw [jsonText, indented, String.toList_ofList]
    exact ⟨_, rfl⟩
  rw [shape]
  exact LogCheck.errors_ne_nil_of_first (by decide) (by decide) (by decide +kernel)

/-! ## Emitting warnings and a run -/

namespace Emitter

theorem wrote_append
    (emitter : Emitter)
    (first second : List LogEntry) :
    emitter.wrote (first ++ second) = (emitter.wrote first).wrote second := by
  induction first generalizing emitter with
  | nil =>
      rw [List.nil_append, wrote_nil]
  | cons entry others inductionHypothesis =>
      rw [List.cons_append, wrote_cons, inductionHypothesis, ← wrote_cons]

theorem completed_append
    (runId : String)
    (sequence : Nat)
    (first second : List LogEntry) :
    ∃ later,
      completed runId sequence (first ++ second) =
        completed runId sequence first ++ completed runId later second := by
  induction first generalizing sequence with
  | nil =>
      exact ⟨sequence, rfl⟩
  | cons entry others inductionHypothesis =>
      obtain ⟨later, parted⟩ :=
        inductionHypothesis (nextSequence ⟨.discard, sequence, runId⟩ entry)
      exact ⟨later, congrArg (_ :: ·) parted⟩

end Emitter

theorem LogWriter.takes_after_memory
    (lines : List String)
    (count : Nat) :
    (LogWriter.memory.after lines).Takes count :=
  nofun

theorem Inconsistency.emittable_entry
    (issue : Inconsistency)
    (clock : Instant) :
    (issue.entry clock).Emittable :=
  (LogEntry.emittable_create clock _ _).withDetails
    (LogEntry.fits_object (by simp [Exact.string]) (by simp [depth]))

/-- The name of a run has no colon. -/
theorem Plan.colon_not_mem_runId (plan : Plan) : ':' ∉ plan.runId.toList := by
  have noColon : ∀ c ∈ plan.fingerprint.toList, c ≠ ':' :=
    Text.forall_mem_hexDigest (by decide) _
  rw [runId, String.toList_append, List.mem_append, not_or]
  refine ⟨by decide, fun member => ?_⟩
  rw [String.toList_ofList] at member
  exact noColon ':' (List.mem_of_mem_take member) rfl

namespace Surroundings

variable
  {around : Surroundings}
  {options : Options}
  {project : Project}
  {host : Host}

/-- The entries of the warnings about the configuration. -/
def warningEntries (around : Surroundings) (clock : Instant) : List LogEntry :=
  around.config.inconsistencies.map fun issue => issue.entry clock

/-- In a writer that takes every line, the warnings and the run make up a log that tells the run. -/
theorem exists_logs_of_memory
    (around : Surroundings)
    (options : Options)
    (project : Project)
    (clock : Instant)
    (free : host.held? = none) :
    let execution := around.execution options project host
    let emitter := (Emitter.ofWriter .memory around.plan.runId).wrote (around.warningEntries clock)
    let narrator : Narrator := { emitter := emitter, progress := true }
    ∃ later,
      execution.result.Logs around.config
        (narrator.tellRun around.plan.size execution.occurrences).emitter.writer.text
        (Emitter.completed around.plan.runId 0 (around.warningEntries clock))
        (Emitter.completed around.plan.runId later execution.entries) := by
  intro execution emitter narrator
  let before := around.warningEntries clock
  have told :
      (narrator.tellRun around.plan.size execution.occurrences).emitter =
        (Emitter.ofWriter .memory around.plan.runId).wrote (before ++ execution.entries) := by
    rw [Emitter.wrote_append]
    exact Narrator.emitter_tellRun rfl (LogWriter.takes_after_memory _ _)
  have emittable : ∀ entry ∈ before ++ execution.entries, entry.Emittable := by
    refine List.forall_mem_append.mpr ⟨?_, ?_⟩
    · exact List.forall_mem_map.mpr fun issue _ => issue.emittable_entry clock
    · exact (around.pipeline options project).emittable_entries around.size_plan_lt {} host
  have plain : ¬ [':', ':'] <:+: around.plan.runId.toList := fun double =>
    around.plan.colon_not_mem_runId (double.subset List.mem_cons_self)
  have untraced : ∀ entry ∈ execution.entries, entry.traceId = "" := fun entry member =>
    (emittable entry (List.mem_append_right before member)).untraced
  obtain ⟨later, parted⟩ :=
    Emitter.completed_append around.plan.runId 0 before execution.entries
  let first := Emitter.completed around.plan.runId 0 before
  let second := Emitter.completed around.plan.runId later execution.entries
  have logged := @Emitter.logged_wrote (.ofWriter .memory around.plan.runId) _ emittable plain
  change Emitter.Logged _ _ (Emitter.completed around.plan.runId 0 (before ++ execution.entries))
    at logged
  rw [parted] at logged
  have tells : execution.result.ToldBy second :=
    ((around.pipeline options project).toldBy_entries_of_free free around.plan {}).completed
      untraced _ _
  have text :
      (narrator.tellRun around.plan.size execution.occurrences).emitter.writer.text =
        Text.ofLines ((first ++ second).map LogEntry.line) := by
    rw [told, logged.written, LogWriter.text]
    exact congrArg Text.ofLines (LogWriter.lines_after_memory _)
  obtain ⟨last, found, event⟩ := tells.exists_last
  rw [text]
  refine ⟨later, ?_⟩
  exact {
    lines := rfl
    checked := logged.checked
    warned := by
      rw [Emitter.map_completed fun _ _ _ => rfl]
      exact List.map_map
    told := tells
    ended := ⟨last, by rw [List.getLast?_append, found, Option.some_or], event⟩
  }

/-! ## The file of the log -/

/-- The number of the file that the command opens for its log under a path; a device has none. -/
def logNumber? (around : Surroundings) (path : String) : Option Nat :=
  match LogFile.create around.host.tree around.host.here path with
  | (.ok (file, _), _) => file.opened?.map Prod.fst
  | (.error _, _) => none

/-- No step of the run changes the file with a number. -/
def SparesFile (around : Surroundings) (options : Options) (number : Nat) : Prop :=
  ∀ call ∈ around.calls options, call.left.tree.file number = call.entered.tree.file number

/-- A command that keeps a log in a file begins with an empty one that takes every line. -/
theorem Begins.exists_opened
    {path : String}
    {log : CommandLog}
    {emitter : Emitter}
    {number : Nat}
    (begins : around.Begins options project log emitter host)
    (logging : options.log = some path)
    (isNumber : around.logNumber? path = some number) :
    ∃ file,
      log = ⟨some file, .memory⟩ ∧ file.opened? = some (number, host.tree.file number) := by
  have opened := begins.opened
  rw [logging] at opened
  unfold CommandLog.start at opened
  unfold logNumber? at isNumber
  rcases created : LogFile.create around.host.tree around.host.here path with
    ⟨why | ⟨file, writer⟩, tree⟩
  · simp [created] at opened
  · simp only [created, Prod.mk.injEq, Except.ok.injEq] at opened
    simp only [created, Option.map_eq_some_iff, Prod.exists, exists_and_right,
      exists_eq_right] at isNumber
    obtain ⟨rfl, rfl⟩ := opened
    obtain ⟨emptied, isFile⟩ := isNumber
    obtain ⟨rfl, rfl⟩ := LogFile.memory_of_create created isFile
    exact ⟨file, rfl, isFile⟩

/-- Files that no step changes are after the run as they were before it. -/
theorem Begins.file_execution
    {log : CommandLog}
    {emitter : Emitter}
    {number : Nat}
    (begins : around.Begins options project log emitter host)
    (free : around.host.held? = none)
    (spares : around.SparesFile options number) :
    (around.execution options project host).host.tree.file number = host.tree.file number := by
  have chain :=
    (around.pipeline options project).chain_of_noted around.plan {} (begins.frame.2.trans free)
  rw [SparesFile, begins.calls_eq] at spares
  exact chain.file_eq spares

/-- What has been written before the run to a log that takes every line. -/
theorem Begins.emitter_of_memory
    {log : CommandLog}
    {emitter : Emitter}
    (begins : around.Begins options project log emitter host)
    (memory : log.writer = .memory) :
    emitter =
      (Emitter.ofWriter .memory around.plan.runId).wrote (around.warningEntries host.clock) := by
  have room :
      (Emitter.ofWriter .memory around.plan.runId).writer.Takes
        (around.warningEntries host.clock).length :=
    nofun
  have warned := begins.warned
  rw [warn, memory] at warned
  exact (congrArg Prod.snd ((Emitter.emitAll_of_takes room).symm.trans warned)).symm

/-- The log that a command keeps tells the run when that has ended, unless a step has changed its
file. -/
theorem Begins.exists_logs
    {path : String}
    {log : CommandLog}
    {emitter : Emitter}
    {number : Nat}
    (begins : around.Begins options project log emitter host)
    (free : around.host.held? = none)
    (logging : options.log = some path)
    (isNumber : around.logNumber? path = some number)
    (spares : around.SparesFile options number) :
    ∃ text later,
      ((around.executed options project log emitter host).host.tree.file number).content =
          some text ∧
        (around.execution options project host).result.Logs around.config text
          (Emitter.completed around.plan.runId 0 (around.warningEntries host.clock))
          (Emitter.completed around.plan.runId later
            (around.execution options project host).entries) := by
  obtain ⟨file, rfl, isFile⟩ := begins.exists_opened logging isNumber
  obtain rfl := begins.emitter_of_memory rfl
  obtain ⟨later, logs⟩ :=
    around.exists_logs_of_memory options project host.clock (begins.frame.2.trans free)
  exact ⟨_, later, LogFile.content_store isFile (begins.file_execution free spares) _, logs⟩

/-! ## The files that are left -/

/-- The report is written to the file of the log, under its path or beside it. -/
def Overwrites (left : CommandResult) (path : String) (number : Nat) : Prop :=
  left.host.tree.LeadsTo left.host.here path number ∨
    left.host.tree.LeadsTo left.host.here (Path.jsonSibling path) number

/-- What a command leaves that was asked for a log and for a report: the report in two files, and
the log in another one, unless that takes the report. -/
structure Artifacts
    (around : Surroundings)
    (logPath reportPath : String)
    (left : CommandResult)
    (number : Nat)
    (report : RunReport) : Prop where
  reports : around.Reports reportPath left report
  log :
    ¬ Overwrites left reportPath number →
      ∃ text warnings entries,
        left.host.tree.readText around.host.here logPath = .ok text ∧
          report.result.Logs around.config text warnings entries
  lost :
    Overwrites left reportPath number →
      ∃ text,
        left.host.tree.readText around.host.here logPath = .ok text ∧
          (LogCheck.ofText text.toList).errors ≠ []

/-- A file to which neither path of the report leads is not written to. -/
theorem file_of_savesBoth
    {path first second : String}
    {tree : FileTree}
    {left : CommandResult}
    {entry sibling : Location}
    {number : Nat}
    (saves :
      tree.SavesBoth left.host.here path first second left.host.tree entry sibling)
    (apart : ¬ Overwrites left path number) :
    left.host.tree.file number = tree.file number := by
  refine saves.grows.spared number fun location written isName => apart ?_
  rcases written with same | same
  · have sameLater := saves.grows.sameFile_iff.mpr same
    exact .inl (FileTree.leadsTo_of_entry saves.isEntry (sameLater.number?_eq isName))
  · have sameLater := saves.grows.sameFile_iff.mpr same
    exact .inr (FileTree.leadsTo_of_entry saves.isSibling (sameLater.number?_eq isName))

/-- What is read where the log was, if its file has taken the report. -/
theorem exists_read_of_savesBoth
    {logPath path : String}
    {tree : FileTree}
    {left : CommandResult}
    {entry sibling : Location}
    {number : Nat}
    {report : RunReport}
    (saves :
      tree.SavesBoth left.host.here path report.markdown report.jsonText left.host.tree entry
        sibling)
    (titled : report.title = RunReport.standardTitle)
    (leads : left.host.tree.LeadsTo around.host.here logPath number)
    (overwrites : Overwrites left path number) :
    ∃ text,
      left.host.tree.readText around.host.here logPath = .ok text ∧
        (LogCheck.ofText text.toList).errors ≠ [] := by
  rcases overwrites with leadsToo | leadsToo
  · have found := FileTree.readText_of_entry saves.isEntry saves.first
    exact ⟨_, (leads.readText_eq leadsToo).trans found, RunReport.errors_markdown_ne_nil titled⟩
  · have found := FileTree.readText_of_entry saves.isSibling saves.second
    exact ⟨_, (leads.readText_eq leadsToo).trans found, report.errors_jsonText_ne_nil⟩

/--
A command that was asked for a log and for a report and exits with 0 or 1 has
written the report, unless it was a dry run, and it has kept a log that tells
the whole run.  It is only where one of the paths of the report leads to the
file of the log that this is lost: the report stands in its place.

Programs may do anything to the files, except to that of the log, to which its
path still leads in the end.  The path of the log is seen from the directory in
which the command starts, and those of the report from the one in which it ends,
which is the same one if it can be entered whenever a workspace is left.  Nothing
is held when a command starts.
-/
theorem artifacts_left
    (around : Surroundings)
    (arguments : List String)
    (left : CommandResult)
    (options : Options)
    (logPath reportPath : String)
    (number : Nat)
    (ran : around.run arguments = left)
    (parsed : Request.ofArguments arguments = .ok (.run options))
    (wet : options.dryRun = false)
    (free : around.host.held? = none)
    (logging : options.log = some logPath)
    (asked : options.report = some reportPath)
    (isNumber : around.logNumber? logPath = some number)
    (spares : around.SparesFile options number)
    (leads : left.host.tree.LeadsTo around.host.here logPath number)
    (plain : left.host.tree.Plain left.host.here reportPath)
    (plainToo : left.host.tree.Plain left.host.here (Path.jsonSibling reportPath))
    (unlinked : left.host.tree.Unlinked left.host.here reportPath (Path.jsonSibling reportPath))
    (ended : left.exitCode = 0 ∨ left.exitCode = 1) :
    (∃ report, around.Artifacts logPath reportPath left number report) ∧
      (around.KeepsStart options → left.host.here = around.host.here) := by
  have succeeded := ne_failureCode_of_ended ended
  refine ⟨?_, here_of_succeeded ran parsed wet succeeded⟩
  obtain ⟨project, log, emitter, host, begins, carriedOut⟩ :=
    exists_begins parsed wet (ran ▸ succeeded)
  rw [ran] at carriedOut
  obtain ⟨reports, entry, sibling, saves⟩ :=
    exists_reports carriedOut.symm asked plain plainToo unlinked succeeded
  obtain ⟨text, later, content, logs⟩ := begins.exists_logs free logging isNumber spares
  let executed := around.executed options project log emitter host
  let result := (around.execution options project host).result
  refine ⟨around.report options result executed.host.clock, ?_⟩
  exact {
    reports := reports
    log := fun apart =>
      ⟨text, _, _, leads.readText (file_of_savesBoth saves apart ▸ content), logs⟩
    lost := exists_read_of_savesBoth saves rfl leads
  }

/-- The theorem at a run whose second program makes a file and fails, which leaves a log beside the
report, and at one that passes and is asked for a log where the report will be as JSON. -/
theorem artifacts_left_failing_baseline :
    let passing : Surroundings :=
      { host := {
          tree := { entries := [(["tool"], .file 0)], files := [(0, { executable := true })] }
          here := .root }
        environment := fun _ => some "1"
        installed := []
        children := fun _ => {} }
    let failing : Surroundings :=
      { passing with
        children := fun number =>
          if number = 1 then
            { ending := 256
              acts := fun scene => { scene with tree := scene.tree.put ["note"] (.file none) } }
          else {} }
    let left := failing.run ["--cargo", "/tool", "--log", "out/run.jsonl", "--report", "out/run"]
    let lost := passing.run ["--cargo", "/tool", "--log", "out/run.json", "--report", "out/run.md"]
    (left.exitCode = 1 ∧
        ∃ report text warnings entries,
          failing.Reports "out/run" left report ∧
            left.host.tree.readText .root "out/run.jsonl" = .ok text ∧
            report.result.Logs failing.config text warnings entries ∧
            warnings.length = 2) ∧
      lost.exitCode = 0 ∧
        ∃ report text,
          passing.Reports "out/run.md" lost report ∧
            lost.host.tree.readText .root "out/run.json" = .ok text ∧
            (LogCheck.ofText text.toList).errors ≠ [] := by
  intro passing failing left lost
  constructor
  · have ended : left.exitCode = 1 := by decide +kernel
    have parsed :
        Request.ofArguments
            ["--cargo", "/tool", "--log", "out/run.jsonl", "--report", "out/run"] =
          .ok (.run
            { cargo := "/tool", log := some "out/run.jsonl", report := some "out/run" }) := by
      rfl
    have spares :
        failing.SparesFile
          { cargo := "/tool", log := some "out/run.jsonl", report := some "out/run" } 1 := by
      unfold SparesFile
      decide +kernel
    have isLogEntry :
        left.host.tree.entryLocation failing.host.here "out/run.jsonl" =
          .ok ["out", "run.jsonl"] := by
      decide +kernel
    have isEntry :
        left.host.tree.entryLocation left.host.here "out/run" = .ok ["out", "run"] := by
      decide +kernel
    have isSibling :
        left.host.tree.entryLocation left.host.here (Path.jsonSibling "out/run") =
          .ok ["out", "run.json"] := by
      decide +kernel
    have isName : left.host.tree.number? ["out", "run"] = some 3 := by decide +kernel
    have isNameToo : left.host.tree.number? ["out", "run.json"] = some 4 := by decide +kernel
    obtain ⟨⟨report, artifacts⟩, _⟩ :=
      artifacts_left failing _ left _ "out/run.jsonl" "out/run" 1 rfl parsed rfl rfl rfl rfl
        (by decide +kernel) spares (FileTree.leadsTo_of_entry isLogEntry (by decide +kernel))
        (FileTree.plain_of_number isEntry isName)
        (FileTree.plain_of_number isSibling isNameToo)
        (FileTree.unlinked_of_number isEntry isSibling isName isNameToo (by decide)) (.inr ended)
    have apart : ¬ Overwrites left "out/run" 1 := by
      rintro (leads | leads)
      · exact absurd (leads.unique (FileTree.leadsTo_of_entry isEntry isName)) (by decide)
      · exact absurd (leads.unique (FileTree.leadsTo_of_entry isSibling isNameToo)) (by decide)
    obtain ⟨text, warnings, entries, found, logs⟩ := artifacts.log apart
    have warned := congrArg List.length logs.warned
    rw [List.length_map, List.length_map] at warned
    exact ⟨ended, report, text, warnings, entries, artifacts.reports, found, logs, warned⟩
  · have ended : lost.exitCode = 0 := by decide +kernel
    have parsed :
        Request.ofArguments
            ["--cargo", "/tool", "--log", "out/run.json", "--report", "out/run.md"] =
          .ok (.run
            { cargo := "/tool", log := some "out/run.json", report := some "out/run.md" }) := by
      rfl
    have spares :
        passing.SparesFile
          { cargo := "/tool", log := some "out/run.json", report := some "out/run.md" } 1 := by
      unfold SparesFile
      decide +kernel
    have isEntry :
        lost.host.tree.entryLocation lost.host.here "out/run.md" = .ok ["out", "run.md"] := by
      decide +kernel
    have isSibling :
        lost.host.tree.entryLocation lost.host.here "out/run.json" = .ok ["out", "run.json"] := by
      decide +kernel
    have same : Path.jsonSibling "out/run.md" = "out/run.json" := by decide +kernel
    have isName : lost.host.tree.number? ["out", "run.md"] = some 2 := by decide +kernel
    have isNameToo : lost.host.tree.number? ["out", "run.json"] = some 1 := by decide +kernel
    have leads := FileTree.leadsTo_of_entry isSibling isNameToo
    have back : lost.host.here = passing.host.here := by decide +kernel
    rw [← same] at isSibling
    obtain ⟨⟨report, artifacts⟩, _⟩ :=
      artifacts_left passing _ lost _ "out/run.json" "out/run.md" 1 rfl parsed rfl rfl rfl rfl
        (by decide +kernel) spares (back ▸ leads)
        (FileTree.plain_of_number isEntry isName)
        (FileTree.plain_of_number isSibling isNameToo)
        (FileTree.unlinked_of_number isEntry isSibling isName isNameToo (by decide)) (.inl ended)
    obtain ⟨text, found, rejected⟩ := artifacts.lost (.inr (same ▸ leads))
    exact ⟨ended, report, text, artifacts.reports, found, rejected⟩

end Surroundings

end VerifyPipeline
