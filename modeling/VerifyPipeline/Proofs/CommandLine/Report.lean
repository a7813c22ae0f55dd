import VerifyPipeline.Proofs.CommandLine.ExitCode
import VerifyPipeline.Proofs.Files.Saving
import VerifyPipeline.Proofs.Plan.Gating
import VerifyPipeline.Proofs.Report.Runs
import VerifyPipeline.Proofs.Run.Restoration

namespace VerifyPipeline

/-!
# The report that the command leaves

A command that was asked for a report and does not fail has saved it twice: in Markdown under the
path, and in JSON beside it.  Both are read back as the same report, and its exit code is that of
the command, unless they are written to a link or to a device, or to two names of one file.
-/

/-- The runner takes no guards. -/
theorem ProcessRunner.releases (runner : ProcessRunner) : runner.toRunner.Releases := by
  intro step state host
  obtain ⟨_, _, _, left, ran, _, leaves⟩ := runner.accounts_run step state host
  refine ⟨[.act left.tree left.here left.clock], _, rfl, rfl, ?_⟩
  change (runner.run step state host).2 = { left with held? := host.held? }
  rw [ran, ← leaves.held]

/-! ## Reports -/

namespace RunReport

/-- The Markdown text of a report begins with its title. -/
theorem exists_markdown_eq (report : RunReport) : ∃ rest, report.markdown.toList = '#' :: rest := by
  simp [markdown, markdownLines, headLines, Text.ofLines]

/-- The Markdown text of a report is not read as one. -/
theorem not_reads_markdown (report other : RunReport) :
    decoder.ofText report.markdown.toList ≠ .ok other := by
  obtain ⟨rest, shape⟩ := report.exists_markdown_eq
  have rejected : (decoder.ofText ('#' :: rest)).isOk = false := rfl
  intro accepted
  rw [← shape, accepted] at rejected
  contradiction

end RunReport

theorem ne_failureCode_of_ended
    {code : Nat}
    (ended : code = 0 ∨ code = 1) :
    code ≠ failureCode := by
  rcases ended with rfl | rfl <;> decide

namespace Surroundings

/-- No list of steps in memory is too long to be counted by a word. -/
theorem size_plan_lt (around : Surroundings) : around.plan.size < Json.Decoder.wordLimit := by
  have combinations : FeatureCatalog.lexical.size = 17 := rfl
  have auxiliary : WorkspaceSet.lexical.auxiliary.length = 3 := rfl
  have limit : 1000 < Json.Decoder.wordLimit := by decide
  rw [plan, Plan.size_build, combinations, auxiliary]
  have check := around.config.check.toNat_le
  have valgrind := around.config.valgrind.toNat_le
  have miri := around.config.miri.toNat_le
  have features := around.config.features.toNat_le
  have valgrindMatrix := around.config.valgrindMatrix.toNat_le
  have miriMatrix := around.config.miriMatrix.toNat_le
  have docs := around.config.docs.toNat_le
  omega

theorem inRange_report
    (around : Surroundings)
    (options : Options)
    (project : Project)
    (host : Host)
    (clock : Instant) :
    (around.report options (around.execution options project host).result clock).InRange := by
  obtain ⟨result, short⟩ :=
    (around.pipeline options project).inRange_execute around.size_plan_lt {} host
  have planned :
      (around.execution options project host).result.planned = around.plan.size := by
    obtain ⟨_, _, result⟩ :=
      (around.pipeline options project).exists_resultOf around.plan {} host
    rw [execution, result]
    rfl
  exact ⟨result.summary (planned ▸ short), result⟩

/-- A report is found under a path and, as JSON, beside it, and is the one that a command with these
surroundings makes of a result. -/
structure Reports
    (around : Surroundings)
    (path : String)
    (ended : CommandResult)
    (report : RunReport) : Prop where
  markdown : ended.host.tree.readText ended.host.here path = .ok report.markdown
  json :
    ∃ text,
      ended.host.tree.readText ended.host.here (Path.jsonSibling path) = .ok text ∧
        RunReport.decoder.ofText text.toList = .ok report
  exitCode : report.result.exitCode = ended.exitCode
  summary : report.summary = .ofResult report.result
  config : report.config = around.config
  warnings : report.warnings = around.config.inconsistencies.map Inconsistency.text
  runId : report.result.runId = around.plan.runId

/-- What is found under the two paths is different. -/
theorem Reports.apart
    {around : Surroundings}
    {path : String}
    {ended : CommandResult}
    {report : RunReport}
    (reports : around.Reports path ended report) :
    ended.host.tree.readText ended.host.here path ≠
      ended.host.tree.readText ended.host.here (Path.jsonSibling path) := by
  obtain ⟨text, found, reads⟩ := reports.json
  intro same
  rw [reports.markdown, found] at same
  obtain rfl := Except.ok.inj same
  exact report.not_reads_markdown report reads

/-- A report that is asked for and does not fail is saved twice. -/
theorem exists_saved_of_finish
    {around : Surroundings}
    {options : Options}
    {path : String}
    {result : RunResult}
    {executed : CommandResult}
    (asked : options.report = some path)
    (reported : (around.finish options result executed).exitCode ≠ failureCode) :
    let report := around.report options result executed.host.clock
    ∃ saved both,
      executed.host.tree.saveText executed.host.here path report.markdown = (none, saved) ∧
        saved.saveText executed.host.here (Path.jsonSibling path) report.jsonText = (none, both) ∧
        (around.finish options result executed).host = { executed.host with tree := both } ∧
        (around.finish options result executed).exitCode = executed.exitCode := by
  intro report
  have unhindered : ¬ around.Unreported options result executed := fun unreported =>
    reported (exitCode_finish_of_unreported unreported)
  rcases first : executed.host.tree.saveText executed.host.here path report.markdown with
    ⟨_ | why, saved⟩
  · rcases second : saved.saveText executed.host.here (Path.jsonSibling path) report.jsonText with
      ⟨_ | why, both⟩
    · refine ⟨saved, both, rfl, second, ?_, exitCode_finish_of_reported unhindered⟩
      simp only [finish, asked, RunReport.write, report, first, second]
    · exact absurd (.sibling asked first second) unhindered
  · exact absurd (.markdown asked first) unhindered

/-- A command that does not fail begins its run. -/
theorem exists_begins
    {around : Surroundings}
    {arguments : List String}
    {options : Options}
    (parsed : Request.ofArguments arguments = .ok (.run options))
    (wet : options.dryRun = false)
    (ended : (around.run arguments).exitCode ≠ failureCode) :
    ∃ project log emitter host,
      around.Begins options project log emitter host ∧
        around.run arguments = around.carryOut options project log emitter host := by
  have performed : around.run arguments = around.perform options := by
    simp only [run, parsed, wet, Bool.false_eq_true, ↓reduceIte]
  rw [performed] at ended ⊢
  rcases around.begins_or_refuses options with
    ⟨project, log, emitter, host, begins⟩ | ⟨_, left, error, refuses⟩
  · exact ⟨project, log, emitter, host, begins, perform_of_begins begins⟩
  · rw [refuses] at ended
    exact absurd rfl ended

theorem here_finish
    (around : Surroundings)
    (options : Options)
    (result : RunResult)
    (ended : CommandResult) :
    (around.finish options result ended).host.here = ended.host.here := by
  unfold finish
  split
  · rfl
  · simp only
    split <;> rfl

/-- A run that does not fail leaves the report, if there are different files and nothing else where
it is written. -/
theorem exists_reports
    {around : Surroundings}
    {options : Options}
    {path : String}
    {project : Project}
    {log : CommandLog}
    {emitter : Emitter}
    {host : Host}
    {left : CommandResult}
    (carriedOut : around.carryOut options project log emitter host = left)
    (asked : options.report = some path)
    (plain : left.host.tree.Plain left.host.here path)
    (plainToo : left.host.tree.Plain left.host.here (Path.jsonSibling path))
    (unlinked : left.host.tree.Unlinked left.host.here path (Path.jsonSibling path))
    (ended : left.exitCode ≠ failureCode) :
    let executed := around.executed options project log emitter host
    let report :=
      around.report options (around.execution options project host).result executed.host.clock
    around.Reports path left report ∧
      ∃ entry sibling,
        executed.host.tree.SavesBoth left.host.here path report.markdown report.jsonText
          left.host.tree entry sibling := by
  intro executed report
  subst carriedOut
  obtain ⟨saved, both, first, second, finished, exitCode⟩ := exists_saved_of_finish asked ended
  have tree : (around.carryOut options project log emitter host).host.tree = both :=
    congrArg Host.tree finished
  have here : (around.carryOut options project log emitter host).host.here = executed.host.here :=
    around.here_finish options _ executed
  rw [tree, here] at plain plainToo unlinked ⊢
  obtain ⟨entry, sibling, saves⟩ :=
    FileTree.exists_savesBoth first second plain plainToo unlinked
  refine ⟨?_, entry, sibling, saves⟩
  obtain ⟨_, _, result⟩ := (around.pipeline options project).exists_resultOf around.plan {} host
  exact {
    markdown := by
      rw [tree, here]
      exact FileTree.readText_of_entry saves.isEntry saves.first
    json := by
      rw [tree, here]
      exact ⟨report.jsonText, FileTree.readText_of_entry saves.isSibling saves.second,
        (around.inRange_report options project host _).reads_jsonText⟩
    exitCode := exitCode.symm
    summary := rfl
    config := rfl
    warnings := rfl
    runId := congrArg RunResult.runId result
  }

/-- Opening a log changes neither the directory nor the slot. -/
theorem Begins.frame
    {around : Surroundings}
    {options : Options}
    {project : Project}
    {log : CommandLog}
    {emitter : Emitter}
    {host : Host}
    (begins : around.Begins options project log emitter host) :
    host.here = around.host.here ∧ host.held? = around.host.held? := by
  obtain ⟨_, opened, _⟩ := begins
  unfold CommandLog.start at opened
  split at opened
  · obtain rfl := (Prod.mk.inj opened).2
    exact ⟨rfl, rfl⟩
  · split at opened
    · simp at opened
    · obtain rfl := (Prod.mk.inj opened).2
      exact ⟨rfl, rfl⟩

/-- The calls of the run that a command begins; there are none if it begins no run. -/
def calls (around : Surroundings) (options : Options) : List (Call ProcessState) :=
  match Project.locate around.host options.root with
  | .error _ => []
  | .ok project =>
    match CommandLog.start options.log around.host with
    | (.error _, _) => []
    | (.ok log, host) =>
      match around.warn log host.clock with
      | (some _, _) => []
      | (none, _) =>
        ((around.pipeline options project).noting.execute around.plan ({}, []) host).state.2

/-- Whenever a workspace is left, the directory can be entered in which the command was started. -/
def KeepsStart (around : Surroundings) (options : Options) : Prop :=
  ∀ call ∈ around.calls options, call.left.tree.Enterable around.host.here.live

theorem Begins.calls_eq
    {around : Surroundings}
    {options : Options}
    {project : Project}
    {log : CommandLog}
    {emitter : Emitter}
    {host : Host}
    (begins : around.Begins options project log emitter host) :
    around.calls options =
      ((around.pipeline options project).noting.execute around.plan ({}, []) host).state.2 := by
  have located : Project.locate around.host options.root = .ok project := by
    simp only [Project.locate, begins.root]
  simp only [calls, located, begins.opened, begins.warned]

/-- A command that begins its run ends it in the directory that it was started from, if that can be
entered. -/
theorem Begins.here_carryOut
    {around : Surroundings}
    {options : Options}
    {project : Project}
    {log : CommandLog}
    {emitter : Emitter}
    {host : Host}
    (begins : around.Begins options project log emitter host)
    (keeps : around.KeepsStart options) :
    (around.carryOut options project log emitter host).host.here = around.host.here := by
  obtain ⟨same, _⟩ := begins.frame
  rw [KeepsStart, begins.calls_eq, ← same] at keeps
  rw [← same]
  have returned : (around.execution options project host).host.here = host.here :=
    (Pipeline.directory_given_back.2 _ _ _ _ _ (around.runner options.cargo).releases).2 keeps
  refine (around.here_finish options _ _).trans ?_
  cases isFile : log.file? <;> simpa only [executed, CommandLog.store, isFile] using returned

/-- A command that does not fail ends where it was started, if that can be entered. -/
theorem here_of_succeeded
    {around : Surroundings}
    {arguments : List String}
    {left : CommandResult}
    {options : Options}
    (ran : around.run arguments = left)
    (parsed : Request.ofArguments arguments = .ok (.run options))
    (wet : options.dryRun = false)
    (ended : left.exitCode ≠ failureCode)
    (keeps : around.KeepsStart options) :
    left.host.here = around.host.here := by
  obtain ⟨_, _, _, _, begins, carriedOut⟩ := exists_begins parsed wet (ran ▸ ended)
  rw [← ran, carriedOut]
  exact begins.here_carryOut keeps

/--
A command that was asked for a report and exits with 0 or 1 has written the
report, unless it was a dry run: in Markdown under the path, and in JSON beside
it.  Both paths are seen from the directory in which the command
ends, which is the one it was started from if that can be entered whenever a
workspace is left.

Programs may do anything to the files.  So it is in the tree that is left, in
which the two texts have been written, that there is neither a link nor a device
at the two paths, and that these are not names of one file.
-/
theorem report_left
    (around : Surroundings)
    (arguments : List String)
    (left : CommandResult)
    (options : Options)
    (path : String)
    (ran : around.run arguments = left)
    (parsed : Request.ofArguments arguments = .ok (.run options))
    (wet : options.dryRun = false)
    (asked : options.report = some path)
    (plain : left.host.tree.Plain left.host.here path)
    (plainToo : left.host.tree.Plain left.host.here (Path.jsonSibling path))
    (unlinked : left.host.tree.Unlinked left.host.here path (Path.jsonSibling path))
    (ended : left.exitCode = 0 ∨ left.exitCode = 1) :
    (∃ report, around.Reports path left report) ∧
      (around.KeepsStart options → left.host.here = around.host.here) := by
  have succeeded := ne_failureCode_of_ended ended
  refine ⟨?_, here_of_succeeded ran parsed wet succeeded⟩
  obtain ⟨_, _, _, _, _, carriedOut⟩ := exists_begins parsed wet (ran ▸ succeeded)
  rw [ran] at carriedOut
  exact ⟨_, (exists_reports carriedOut.symm asked plain plainToo unlinked succeeded).1⟩

/-- The theorem at a run whose second program fails after it has put something in place of the
report.  The program is given by its path. -/
theorem report_left_failing_baseline :
    let around : Surroundings :=
      { host := {
          tree := { entries := [(["tool"], .file 0)], files := [(0, { executable := true })] }
          here := .root }
        environment := fun _ => some "1"
        installed := []
        children := fun number =>
          if number = 1 then
            { ending := 256
              acts := fun scene =>
                let made := scene.tree.put ["out"] .directory
                { scene with tree := made.put ["out", "r.md"] (.file none) } }
          else {} }
    let left := around.run ["--cargo", "/tool", "--report", "out/r.md"]
    left.exitCode = 1 ∧
      left.processes.started = 2 ∧
      ∃ report, around.Reports "out/r.md" left report ∧ report.summary.verdict = .failed := by
  intro around left
  have ended : left.exitCode = 1 := by decide +kernel
  have parsed :
      Request.ofArguments ["--cargo", "/tool", "--report", "out/r.md"] =
        .ok (.run { cargo := "/tool", report := some "out/r.md" }) := by
    rfl
  have isEntry :
      left.host.tree.entryLocation left.host.here "out/r.md" = .ok ["out", "r.md"] := by
    decide +kernel
  have isSibling :
      left.host.tree.entryLocation left.host.here (Path.jsonSibling "out/r.md") =
        .ok ["out", "r.json"] := by
    decide +kernel
  have isName : left.host.tree.number? ["out", "r.md"] = some 1 := by decide +kernel
  have isNameToo : left.host.tree.number? ["out", "r.json"] = some 2 := by decide +kernel
  obtain ⟨⟨report, reports⟩, _⟩ :=
    report_left around ["--cargo", "/tool", "--report", "out/r.md"] left _ "out/r.md" rfl parsed rfl
      rfl (FileTree.plain_of_number isEntry isName)
      (FileTree.plain_of_number isSibling isNameToo)
      (FileTree.unlinked_of_number isEntry isSibling isName isNameToo (by decide)) (.inr ended)
  refine ⟨ended, by decide +kernel, report, reports, ?_⟩
  have code := reports.exitCode.trans ended
  rw [reports.summary]
  change report.result.verdict = .failed
  cases verdict : report.result.verdict with
  | failed =>
      rfl
  | passed =>
      simp [RunResult.exitCode, RunResult.succeeded, verdict] at code

/-- There is no link when the command is started, and it exits with 0, but its report is not there:
after a dry run, in a device, where both paths are names of one file, and where a program puts a
link to the one path at the other one. -/
theorem no_report_left :
    let around : Surroundings :=
      { host := { tree := .empty, here := .root }
        environment := fun _ => some "1"
        installed := ["cargo"]
        children := fun _ => {} }
    let special : Surroundings :=
      { around with host := { tree := { entries := [(["r.md"], .device false)] }, here := .root } }
    let shared : Surroundings :=
      { around with
        host := {
          tree := { entries := [(["r.md"], .file 0), (["r.json"], .file 0)] }
          here := .root } }
    let linking : Surroundings :=
      { around with
        children := fun _ =>
          { acts := fun scene => { scene with tree := scene.tree.put ["r.md"] (.link "r.json") } } }
    let dry := around.run ["--dry-run", "--report", "r.md"]
    (dry.exitCode = 0 ∧ ¬ ∃ report, around.Reports "r.md" dry report) ∧
      ∀ around ∈ [special, shared, linking],
        let left := around.run ["--report", "r.md"]
        (∀ location target, around.host.tree.get? location ≠ some (.link target)) ∧
          left.exitCode = 0 ∧
          ¬ ∃ report, around.Reports "r.md" left report := by
  intro around special shared linking dry
  have absent : (dry.host.tree.readText dry.host.here "r.md").toOption = none := by
    decide +kernel
  refine ⟨⟨by decide +kernel, ?_⟩, ?_⟩
  · rintro ⟨report, reports⟩
    rw [reports.markdown] at absent
    contradiction
  simp only [List.forall_mem_cons, List.not_mem_nil, false_implies, implies_true, and_true]
  refine ⟨⟨FileTree.noLink_of_entries (by simp [special]), by decide +kernel, ?_⟩,
    ⟨FileTree.noLink_of_entries (by simp [shared]), by decide +kernel, ?_⟩,
    ⟨FileTree.noLink_of_entries (by simp [linking, around, FileTree.empty]), by decide +kernel, ?_⟩⟩
  · rintro ⟨report, reports⟩
    let left := special.run ["--report", "r.md"]
    have empty : (left.host.tree.readText left.host.here "r.md").toOption = some "" := by
      decide +kernel
    obtain ⟨rest, shape⟩ := report.exists_markdown_eq
    rw [reports.markdown] at empty
    rw [Option.some.inj empty] at shape
    contradiction
  · rintro ⟨report, reports⟩
    let left := shared.run ["--report", "r.md"]
    have resolved : left.host.tree.resolve left.host.here "r.md" = .ok (.ofLocation ["r.md"]) := by
      decide +kernel
    have resolvedToo :
        left.host.tree.resolve left.host.here "r.json" = .ok (.ofLocation ["r.json"]) := by
      decide +kernel
    exact reports.apart (FileTree.readText_congr resolved resolvedToo (by decide +kernel))
  · rintro ⟨report, reports⟩
    let left := linking.run ["--report", "r.md"]
    have resolved :
        left.host.tree.resolve left.host.here "r.md" = .ok (.ofLocation ["r.json"]) := by
      decide +kernel
    have resolvedToo :
        left.host.tree.resolve left.host.here "r.json" = .ok (.ofLocation ["r.json"]) := by
      decide +kernel
    exact reports.apart (FileTree.readText_congr resolved resolvedToo rfl)

end Surroundings

end VerifyPipeline
