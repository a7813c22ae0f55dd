import Mathlib.Tactic.Ring
import VerifyPipeline.Plan.Build

namespace VerifyPipeline

/-!
# What a configuration leaves out

A plan is made of blocks, and all steps of a block run one tool for one tier.  A configuration keeps
or drops whole blocks.  So the plan for a configuration is the complete plan without the steps whose
tier and tool the configuration drops, and the blocks that stay keep their order.
-/

namespace Config

/-- The configuration that leaves nothing out and extends whatever can be extended. -/
def complete : Config where
  valgrindExhaustive := true
  miriExhaustive := true

/-- Whether steps of a tier that run a tool are dropped from the complete plan. -/
def drops (config : Config) (tier : Tier) (tool : Tool) : Bool :=
  config.skipValgrind && tool = .valgrind
    || config.skipMiri && tool = .miri
    || config.skipFeatures && tier = .featureMatrix
    || config.skipCheck && tier = .lintAndFormat
    || config.skipDocs && tier = .docsStrict
    || !config.valgrindExhaustive && tier = .memorySafetyMatrix && tool = .valgrind
    || !config.miriExhaustive && tier = .memorySafetyMatrix && tool = .miri

/-- Whether a step of the complete plan stays in the plan. -/
def keeps (config : Config) (step : Step) : Bool := !config.drops step.tier step.tool

end Config

namespace Plan

/-- The tiers in the order of their blocks. -/
def tierOrder : List Tier := [
  .baseline, .lintAndFormat, .memorySafetyBaseline, .featureMatrix, .memorySafetyMatrix,
  .docsStrict]

/-- The steps whose tier and tool pass a test. -/
def select (plan : Plan) (test : Tier → Tool → Bool) : List Step :=
  plan.steps.filter fun step => test step.tier step.tool

/-- The steps of a tier. -/
def ofTier (plan : Plan) (tier : Tier) : List Step :=
  plan.select fun other _ => other = tier

/-- The steps of a tier that run a tool. -/
def ofKind (plan : Plan) (tier : Tier) (tool : Tool) : List Step :=
  plan.select fun other runs => other = tier && runs = tool

/-- A block has its steps only if its gate is open. -/
theorem mem_gated
    {enabled : Bool}
    {step : Step}
    {block : List Step} :
    step ∈ gated enabled block ↔ enabled = true ∧ step ∈ block := by
  cases enabled <;> simp [gated]

/-- A closed block has no length. -/
theorem length_gated
    (enabled : Bool)
    (block : List Step) :
    (gated enabled block).length = enabled.toNat * block.length := by
  cases enabled <;> simp [gated]

theorem map_gated
    (f : Step → α)
    (enabled : Bool)
    (block : List Step) :
    (gated enabled block).map f = if enabled then block.map f else [] := by
  cases enabled <;> simp [gated]

@[simp]
theorem gated_false
    (block : List Step) :
    gated false block = [] :=
  rfl

@[simp]
theorem gated_true
    (block : List Step) :
    gated true block = block :=
  rfl

/-- All steps of a block are of one tier and run one tool. -/
def Uniform (tier : Tier) (tool : Tool) (block : List Step) : Prop :=
  ∀ step ∈ block, step.tier = tier ∧ step.tool = tool

/-- Steps that are made alike have the tier and the tool of their block. -/
theorem uniform_map
    {tier : Tier}
    {tool : Tool}
    (make : α → Step)
    (made : ∀ a, (make a).tier = tier ∧ (make a).tool = tool)
    (items : List α) :
    Uniform tier tool (items.map make) := by
  intro step member
  obtain ⟨a, _, rfl⟩ := List.mem_map.mp member
  exact made a

/-- The baseline has one tier and one tool. -/
theorem uniform_baselineBlock
    (tier : Tier)
    (tool : Tool)
    (workspace : Workspace) :
    Uniform tier tool (baselineBlock tier tool workspace) :=
  uniform_map (recorded tier tool workspace) (fun _ => ⟨rfl, rfl⟩) _

/-- All steps of a matrix have its tier and its tool. -/
theorem uniform_matrixBlock
    (tier : Tier)
    (tool : Tool)
    (workspace : Workspace)
    (catalog : FeatureCatalog) :
    Uniform tier tool (matrixBlock tier tool workspace catalog) :=
  uniform_map (fun set => recorded tier tool workspace (.features set)) (fun _ => ⟨rfl, rfl⟩) _

theorem uniform_lintBlock
    (workspaces : WorkspaceSet) :
    Uniform .lintAndFormat .lint (lintBlock workspaces) := by
  apply uniform_map
  exact fun _ => ⟨rfl, rfl⟩

theorem uniform_docsBlock
    (workspace : Workspace)
    (catalog : FeatureCatalog) :
    Uniform .docsStrict .docs (docsBlock workspace catalog) := by
  apply uniform_map
  exact fun _ => ⟨rfl, rfl⟩

/-- A test of tier and tool keeps or drops a uniform block as a whole. -/
theorem filter_gated
    {tier : Tier}
    {tool : Tool}
    {block : List Step}
    (uniform : Uniform tier tool block)
    (test : Tier → Tool → Bool)
    (enabled : Bool) :
    (gated enabled block).filter (fun step => test step.tier step.tool) =
      gated (enabled && test tier tool) block := by
  have same : ∀ step ∈ block, test step.tier step.tool = test tier tool := by
    intro step member
    obtain ⟨rfl, rfl⟩ := uniform step member
    rfl
  cases enabled with
  | false =>
      rfl
  | true =>
      cases kept : test tier tool with
      | false =>
          have none : block.filter (fun step => test step.tier step.tool) = [] := by
            rw [List.filter_eq_nil_iff]
            intro step member
            simp [same step member, kept]
          simpa using none
      | true =>
          have all : block.filter (fun step => test step.tier step.tool) = block := by
            rw [List.filter_eq_self]
            intro step member
            simp [same step member, kept]
          simpa using all

/-- A test of tier and tool acts on the blocks of a plan one by one.  The first block has no
condition of its own. -/
theorem select_build
    (config : Config)
    (catalog : FeatureCatalog)
    (workspaces : WorkspaceSet)
    (test : Tier → Tool → Bool) :
    (build config catalog workspaces).select test =
      gated (test .baseline .test)
          (baselineBlock .baseline .test workspaces.primary)
        ++ gated (config.check && test .lintAndFormat .lint)
          (lintBlock workspaces)
        ++ gated (config.valgrind && test .memorySafetyBaseline .valgrind)
          (baselineBlock .memorySafetyBaseline .valgrind workspaces.primary)
        ++ gated (config.miri && test .memorySafetyBaseline .miri)
          (baselineBlock .memorySafetyBaseline .miri workspaces.primary)
        ++ gated (config.features && test .featureMatrix .test)
          (matrixBlock .featureMatrix .test workspaces.primary catalog)
        ++ gated (config.valgrindMatrix && test .memorySafetyMatrix .valgrind)
          (matrixBlock .memorySafetyMatrix .valgrind workspaces.primary catalog)
        ++ gated (config.miriMatrix && test .memorySafetyMatrix .miri)
          (matrixBlock .memorySafetyMatrix .miri workspaces.primary catalog)
        ++ gated (config.docs && test .docsStrict .docs)
          (docsBlock workspaces.primary catalog) := by
  have first :=
    filter_gated (uniform_baselineBlock .baseline .test workspaces.primary) test true
  rw [Bool.true_and, gated_true] at first
  simp only [select, build, List.filter_append, first,
    filter_gated (uniform_lintBlock _),
    filter_gated (uniform_baselineBlock _ _ _),
    filter_gated (uniform_matrixBlock _ _ _ _),
    filter_gated (uniform_docsBlock _ _)]

/-- What the plan for a configuration is, seen from the complete plan. -/
structure GatedBy
    (config : Config)
    (catalog : FeatureCatalog)
    (workspaces : WorkspaceSet)
    (plan : Plan) : Prop where
  /-- The plan is the complete one without the steps that are dropped. -/
  filtered :
    plan.steps = (build .complete catalog workspaces).steps.filter config.keeps
  size :
    plan.size =
      2 + config.check.toNat * (1 + workspaces.auxiliary.length)
        + 2 * (config.valgrind.toNat + config.miri.toNat)
        + catalog.size *
          (config.features.toNat + config.valgrindMatrix.toNat + config.miriMatrix.toNat)
        + 2 * config.docs.toNat
  /-- Each tier is one block, and the blocks come in a fixed order. -/
  tiers : plan.steps = tierOrder.flatMap plan.ofTier
  /-- Within its tier, each tool is one block, and valgrind comes before miri. -/
  memorySafety :
    ∀ tier, tier = .memorySafetyBaseline ∨ tier = .memorySafetyMatrix →
      plan.ofTier tier = plan.ofKind tier .valgrind ++ plan.ofKind tier .miri
  /-- The other tiers run one tool each. -/
  single :
    ∀ tier tool,
      (tier, tool) ∈ [
          (Tier.baseline, Tool.test), (.lintAndFormat, .lint), (.featureMatrix, .test),
          (.docsStrict, .docs)] →
        plan.ofTier tier = plan.ofKind tier tool
  /-- Each matrix lists the sets of the catalog in their order. -/
  matrices :
    ∀ tier tool enabled,
      (tier, tool, enabled) ∈ [
          (Tier.featureMatrix, Tool.test, config.features),
          (.memorySafetyMatrix, .valgrind, config.valgrindMatrix),
          (.memorySafetyMatrix, .miri, config.miriMatrix)] →
        (plan.ofKind tier tool).map Step.features =
          if enabled then catalog.combinations.map .features else []
  baseline : (plan.ofKind .baseline .test).map Step.features = [.default, .allFeatures]
  /-- The memory-safety baselines repeat the selections of the baseline. -/
  repeated :
    ∀ tool enabled,
      (tool, enabled) ∈ [(Tool.valgrind, config.valgrind), (.miri, config.miri)] →
        (plan.ofKind .memorySafetyBaseline tool).map Step.features =
          if enabled then (plan.ofKind .baseline .test).map Step.features else []
  docs :
    (plan.ofKind .docsStrict .docs).map Step.features =
      if config.docs then [.noDefault .empty, .features catalog.docs] else []
  /-- The lints go through all workspaces, the primary one first. -/
  lints :
    (plan.ofKind .lintAndFormat .lint).map (fun step => (step.workspace, step.features)) =
      if config.check then
        workspaces.all.map fun workspace => (workspace, .features workspace.lintFeatures)
      else []
  /-- No other step leaves the primary workspace. -/
  elsewhere :
    ∀ step ∈ plan.steps,
      step.workspace ≠ workspaces.primary →
        step.tier = .lintAndFormat ∧ step.tool = .lint ∧
          step.workspace ∈ workspaces.auxiliary

/-- The plan for a configuration is the complete plan without what the configuration drops. -/
theorem build_eq_filter
    (config : Config)
    (catalog : FeatureCatalog)
    (workspaces : WorkspaceSet) :
    (build config catalog workspaces).steps =
      (build .complete catalog workspaces).steps.filter config.keeps := by
  have kept :=
    select_build .complete catalog workspaces fun tier tool => !config.drops tier tool
  refine Eq.trans ?_ kept.symm
  simp [build, gated, Config.drops, Config.complete, Config.check, Config.valgrind, Config.miri,
    Config.features, Config.docs, Config.valgrindMatrix, Config.miriMatrix]

/-- The number of planned steps, by the flags of the configuration. -/
theorem size_build
    (config : Config)
    (catalog : FeatureCatalog)
    (workspaces : WorkspaceSet) :
    (build config catalog workspaces).size =
      2 + config.check.toNat * (1 + workspaces.auxiliary.length)
        + 2 * (config.valgrind.toNat + config.miri.toNat)
        + catalog.size *
          (config.features.toNat + config.valgrindMatrix.toNat + config.miriMatrix.toNat)
        + 2 * config.docs.toNat := by
  simp only [size, build, List.length_append, length_gated, baselineBlock, baselineSelections,
    lintBlock, matrixBlock, docsBlock, WorkspaceSet.all, FeatureCatalog.size, List.length_map,
    List.length_cons, List.length_nil]
  ring

/-- A plan is made of its tiers, one after the other. -/
theorem build_eq_flatMap_ofTier
    (config : Config)
    (catalog : FeatureCatalog)
    (workspaces : WorkspaceSet) :
    (build config catalog workspaces).steps =
      tierOrder.flatMap (build config catalog workspaces).ofTier := by
  have whole :
      (build config catalog workspaces).steps =
        (build config catalog workspaces).select fun _ _ => true :=
    (List.filter_eq_self.mpr fun _ _ => rfl).symm
  rw [whole]
  simp [tierOrder, ofTier, select_build]

/-- A step of a built plan is a lint, a documentation step, or a step of another tier whose failure
is recorded only. -/
theorem mem_build_cases
    {config : Config}
    {catalog : FeatureCatalog}
    {workspaces : WorkspaceSet}
    {step : Step}
    (member : step ∈ (build config catalog workspaces).steps) :
    config.check = true ∧ step ∈ lintBlock workspaces ∨
      config.docs = true ∧ step ∈ docsBlock workspaces.primary catalog ∨
      ∃ tier tool features,
        tier ≠ .lintAndFormat ∧
          tier ≠ .docsStrict ∧
          step = recorded tier tool workspaces.primary features := by
  simp only [build, List.mem_append, mem_gated, baselineBlock, matrixBlock, List.mem_map] at member
  rcases member with
    (((((((⟨_, _, rfl⟩ | lint) | ⟨_, _, _, rfl⟩) | ⟨_, _, _, rfl⟩) | ⟨_, _, _, rfl⟩) |
      ⟨_, _, _, rfl⟩) | ⟨_, _, _, rfl⟩) | docs)
  case inl.inl.inl.inl.inl.inl.inr => exact .inl lint
  case inr => exact .inr (.inl docs)
  all_goals exact .inr (.inr ⟨_, _, _, by decide, by decide, rfl⟩)

/-- Only lints leave the primary workspace. -/
theorem workspace_of_mem_build
    {config : Config}
    {catalog : FeatureCatalog}
    {workspaces : WorkspaceSet}
    {step : Step}
    (member : step ∈ (build config catalog workspaces).steps) :
    step.workspace = workspaces.primary ∨ step ∈ lintBlock workspaces := by
  rcases mem_build_cases member with ⟨_, lint⟩ | ⟨_, docs⟩ | ⟨_, _, _, _, _, rfl⟩
  · exact .inr lint
  · obtain ⟨features, _, rfl⟩ := List.mem_map.mp docs
    exact .inl rfl
  · exact .inl rfl

/--
The plan for a configuration is the complete plan without the steps whose tier
or tool the configuration drops.  What stays is in its fixed order, tier by
tier and set by set.
-/
theorem build_gates
    (config : Config)
    (catalog : FeatureCatalog)
    (workspaces : WorkspaceSet) :
    GatedBy config catalog workspaces (build config catalog workspaces) where
  filtered := build_eq_filter config catalog workspaces
  size := size_build config catalog workspaces
  tiers := build_eq_flatMap_ofTier config catalog workspaces
  memorySafety := by
    rintro tier (rfl | rfl) <;> simp [ofTier, ofKind, select_build]
  single := by
    intro tier tool listed
    simp only [List.mem_cons, Prod.mk.injEq, List.not_mem_nil, or_false] at listed
    rcases listed with ⟨rfl, rfl⟩ | ⟨rfl, rfl⟩ | ⟨rfl, rfl⟩ | ⟨rfl, rfl⟩ <;>
      simp [ofTier, ofKind, select_build]
  matrices := by
    intro tier tool enabled listed
    simp only [List.mem_cons, Prod.mk.injEq, List.not_mem_nil, or_false] at listed
    rcases listed with ⟨rfl, rfl, rfl⟩ | ⟨rfl, rfl, rfl⟩ | ⟨rfl, rfl, rfl⟩ <;>
      simp [ofKind, select_build, map_gated, matrixBlock, recorded, Function.comp_def]
  baseline := by
    simp [ofKind, select_build, baselineBlock, recorded, baselineSelections]
  repeated := by
    intro tool enabled listed
    simp only [List.mem_cons, Prod.mk.injEq, List.not_mem_nil, or_false] at listed
    rcases listed with ⟨rfl, rfl⟩ | ⟨rfl, rfl⟩ <;>
      simp [ofKind, select_build, map_gated, baselineBlock, recorded, Function.comp_def]
  docs := by
    simp [ofKind, select_build, map_gated, docsBlock]
  lints := by
    simp [ofKind, select_build, map_gated, lintBlock, Function.comp_def]
  elsewhere := by
    intro step member outside
    rcases workspace_of_mem_build member with inside | lint
    · exact absurd inside outside
    · obtain ⟨tier, tool⟩ := uniform_lintBlock workspaces step lint
      obtain ⟨workspace, listed, rfl⟩ := List.mem_map.mp lint
      rcases List.mem_cons.mp listed with primary | auxiliary
      · exact absurd primary outside
      · exact ⟨tier, tool, auxiliary⟩

end Plan

end VerifyPipeline
