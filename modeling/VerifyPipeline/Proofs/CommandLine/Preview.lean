import VerifyPipeline.CommandLine.Run
import VerifyPipeline.Proofs.Json.Values
import VerifyPipeline.Proofs.Run.FailFast

namespace VerifyPipeline

/-!
# What previews foretell

The preview of a plan and the records of its runs are made from the same steps, but apart from each
other.  Every run of the plan with the program of the preview, whatever its runner does and however
early it ends, gives records that agree with the first entries of the preview.
-/

open Json

/-- An entry of a preview says of a record all that is known before the step is run. -/
structure StepRecord.Foretold
    (record : StepRecord)
    (entry : Json) : Prop where
  stepId : entry.get? "id" = some (.string record.stepId)
  tier : entry.get? "tier" = some record.tier.toJson
  tool : entry.get? "tool" = some record.tool.toJson
  workspace : entry.get? "workspace" = some (.string record.workspace)
  features : entry.get? "features" = some (.string record.features)
  policy : entry.get? "policy" = some record.policy.toJson
  command : entry.get? "command" = some (.string record.command)

/-- A preview says of a result all that is known before the run. -/
structure RunResult.Foretold
    (result : RunResult)
    (preview : Json) : Prop where
  runId : preview.get? "run_id" = some (.string result.runId)
  fingerprint : preview.get? "plan_fingerprint" = some (.string result.planFingerprint)
  steps :
    ∃ entries,
      preview.get? "steps" = some (.array entries) ∧
        entries.length = result.planned ∧
        ∀ (index : Nat) (record : StepRecord),
          result.records[index]? = some record →
            ∃ entry, entries[index]? = some entry ∧ record.Foretold entry

/-! ## Previews of plans -/

/-- Tools are written as strings. -/
theorem Tool.exists_toJson (tool : Tool) : ∃ name, tool.toJson = .string name := by
  cases tool <;> exact ⟨_, rfl⟩

namespace Step

/-- The entry of a step foretells every record of the step. -/
theorem foretold_previewJson
    {program : String}
    {index : Nat}
    {step : Step}
    {record : StepRecord}
    (isOf : record.IsOf program index step) :
    record.Foretold (step.previewJson program).canonical := by
  obtain ⟨name, isTool⟩ := step.tool.exists_toJson
  rw [isOf]
  constructor
  case tool =>
    rw [get?_canonical]
    change some step.tool.toJson.canonical = some step.tool.toJson
    rw [isTool]
    rfl
  all_goals
    rw [get?_canonical]
    rfl

/-- The preview of a step is written exactly. -/
theorem exact_previewJson
    (step : Step)
    (program : String) :
    (step.previewJson program).Exact := by
  obtain ⟨name, isTool⟩ := step.tool.exists_toJson
  apply Exact.object
  simp [isTool, Tier.toJson, FailurePolicy.toJson, Exact.string]

/-- The preview of a step has one level. -/
theorem depth_previewJson_le
    (step : Step)
    (program : String) :
    (step.previewJson program).depth ≤ 1 := by
  obtain ⟨name, isTool⟩ := step.tool.exists_toJson
  apply depth_object_le
  simp [isTool, Tier.toJson, FailurePolicy.toJson, depth]

end Step

namespace Plan

variable
  {plan : Plan}
  {config : Config}
  {program : String}

/-- The steps of a preview are the entries of the steps of the plan. -/
theorem get?_steps_preview :
    (plan.previewJson config program).canonical.get? "steps" =
      some (.array (plan.steps.map fun step => (step.previewJson program).canonical)) := by
  rw [get?_canonical]
  change some (canonical (.array _)) = _
  rw [canonical, canonicalItems_eq_map, List.map_map]
  rfl

/-- A preview foretells every result with records of the first steps of the plan. -/
theorem foretold_preview
    {records : List StepRecord}
    (recorded : RecordsOf program records (plan.steps.take records.length))
    (termination : Termination) :
    (Pipeline.resultOf plan records termination).Foretold
      (plan.previewJson config program).canonical where
  runId := by
    rw [get?_canonical]
    rfl
  fingerprint := by
    rw [get?_canonical]
    rfl
  steps := by
    refine ⟨_, get?_steps_preview, List.length_map _, fun index record isRecord => ?_⟩
    obtain ⟨step, isStep, isOf⟩ := recorded.exists_step_of_take isRecord
    rw [List.getElem?_map, isStep]
    exact ⟨_, rfl, Step.foretold_previewJson isOf⟩

theorem exact_previewJson
    (plan : Plan)
    (config : Config)
    (program : String) :
    (plan.previewJson config program).Exact := by
  have version : (count FeatureCatalog.version).Exact := .count (by decide)
  have flags : config.toJson.Exact := by
    apply Exact.object
    simp [Exact.bool]
  have steps : (array (plan.steps.map fun step => step.previewJson program)).Exact := by
    refine .array (List.forall_mem_map.mpr fun step _ => ?_)
    exact step.exact_previewJson program
  apply Exact.object
  simp [version, flags, steps, Exact.string]

theorem depth_previewJson_le
    (plan : Plan)
    (config : Config)
    (program : String) :
    (plan.previewJson config program).depth ≤ 3 := by
  have flags : config.toJson.depth ≤ 2 := by
    apply depth_object_le
    simp [depth]
  have steps : (array (plan.steps.map fun step => step.previewJson program)).depth ≤ 2 := by
    refine depth_array_le (List.forall_mem_map.mpr fun step _ => ?_)
    exact step.depth_previewJson_le program
  apply depth_object_le
  simp only [List.forall_mem_cons, List.not_mem_nil, false_implies, implies_true, and_true]
  exact ⟨Nat.zero_le 2, Nat.zero_le 2, Nat.zero_le 2, flags, steps⟩

/-- The text of a preview is read back as its canonical form. -/
theorem ofText_previewText
    (plan : Plan)
    (config : Config)
    (program : String) :
    Json.ofText (plan.previewText config program).toList =
      .ok (plan.previewJson config program).canonical := by
  have exact := plan.exact_previewJson config program
  have shallow : (plan.previewJson config program).canonical.depth < Reader.levelLimit :=
    calc
      (plan.previewJson config program).canonical.depth
          ≤ (plan.previewJson config program).depth := exact.depth_canonical_le
      _ ≤ 3 := plan.depth_previewJson_le config program
      _ < Reader.levelLimit := by decide
  rw [previewText, indented, String.toList_ofList]
  exact ofText_write exact.canonical shallow .indented

end Plan

/-! ## Runs -/

/-- Whatever a pipeline comes upon, its result is foretold by the preview for its program. -/
theorem Pipeline.foretold_execute
    (pipeline : Pipeline σ)
    (plan : Plan)
    (config : Config)
    (state : σ)
    (host : Host) :
    (pipeline.execute plan state host).result.Foretold
      (plan.previewJson config pipeline.runner.program).canonical := by
  cases held : host.held? with
  | some holder =>
      rw [execute_of_held held]
      refine Plan.foretold_preview ⟨rfl, fun index record step isRecord _ => ?_⟩ _
      rw [List.getElem?_nil] at isRecord
      contradiction
  | none =>
      rw [execute_of_free held]
      obtain ⟨calls, passes⟩ := passes_runSteps pipeline 0 plan.steps state host
      exact Plan.foretold_preview passes.recordsOf _

namespace Surroundings

/--
A dry run exits with 0, starts nothing and leaves the host as it is.  What it
prints is a preview that foretells every run with the same environment and the
same program, wherever that run takes place and whatever it comes upon.
-/
theorem dry_run_foretells
    (around : Surroundings)
    (arguments : List String)
    (options : Options)
    (parsed : Request.ofArguments arguments = .ok (.run options))
    (dry : options.dryRun = true) :
    (around.run arguments).exitCode = 0 ∧
      (around.run arguments).processes = {} ∧
      (around.run arguments).host = around.host ∧
      ∃ text preview,
        (around.run arguments).output = [text] ∧
          Json.ofText text.toList = .ok preview ∧
          ∀ (real : Surroundings) (realOptions : Options) (project : Project) (host : Host),
            real.environment = around.environment →
              realOptions.cargo = options.cargo →
                (real.execution realOptions project host).result.Foretold preview := by
  have previewed : around.run arguments = around.preview options := by
    simp only [run, parsed, dry, ↓reduceIte]
  rw [previewed]
  refine ⟨rfl, rfl, rfl, _, _, rfl, Plan.ofText_previewText _ _ _, ?_⟩
  intro real realOptions project host sameEnvironment sameProgram
  have samePlan : real.plan = around.plan := by
    rw [plan, plan, config, config, sameEnvironment]
  rw [← samePlan, ← sameProgram]
  exact (real.pipeline realOptions project).foretold_execute real.plan around.config {} host

/-- The theorem at a dry run whose paths lead nowhere, and at a run that comes upon a failing test
and ends at a workspace that is missing. -/
theorem dry_run_foretells_missing_workspace :
    let around : Surroundings :=
      { host := { tree := .empty, here := .root }
        environment := fun name => if name = "SKIP_CHECK" then none else some "1"
        installed := []
        children := fun _ => {} }
    let arguments :=
      ["--dry-run", "--root", "/nowhere", "--log", "no/where.jsonl", "--report", "/no/where.md"]
    let real : Surroundings :=
      { around with
        installed := ["cargo"]
        children := fun number => if number = 1 then { ending := 256 } else {} }
    let result := (real.execution {} ⟨[]⟩ real.host).result
    (around.run arguments).exitCode = 0 ∧
      (around.run arguments).host = around.host ∧
      (∃ text preview,
        (around.run arguments).output = [text] ∧
          Json.ofText text.toList = .ok preview ∧
          result.Foretold preview) ∧
      result.records.length = 3 ∧
      result.planned = 6 ∧
      result.exitCode = 1 := by
  intro around arguments real result
  have options :
      Request.ofArguments arguments =
        .ok (.run
          { root := "/nowhere"
            dryRun := true
            log := some "no/where.jsonl"
            report := some "/no/where.md" }) := by
    rfl
  obtain ⟨exitCode, _, host, text, preview, output, read, foretells⟩ :=
    dry_run_foretells around arguments _ options rfl
  refine ⟨exitCode, host, ⟨text, preview, output, read, ?_⟩, ?_, ?_, ?_⟩
  · exact foretells real {} ⟨[]⟩ real.host rfl rfl
  · decide +kernel
  · decide +kernel
  · decide +kernel

end Surroundings

end VerifyPipeline
