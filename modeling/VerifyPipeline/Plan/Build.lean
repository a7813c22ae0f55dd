import VerifyPipeline.Config
import VerifyPipeline.Feature.Catalog
import VerifyPipeline.Plan.Basic

/-!
# Building a plan

A configuration, a catalog and a set of workspaces determine a plan.  Its tiers come in a fixed
order, and the ones that are left out leave no trace.  Building never fails: a feature that does
not exist is found by the tool that gets it.
-/

namespace VerifyPipeline.Plan

/-- The selections that every tool is run with at least. -/
def baselineSelections : List FeatureSelection := [.default, .allFeatures]

/-- A step whose failure is recorded only. -/
def recorded
    (tier : Tier)
    (tool : Tool)
    (workspace : Workspace)
    (features : FeatureSelection) :
    Step :=
  ⟨tier, tool, workspace, features, .recordAndContinue⟩

/-- A tool with the baseline selections. -/
def baselineBlock (tier : Tier) (tool : Tool) (workspace : Workspace) : List Step :=
  baselineSelections.map (recorded tier tool workspace)

/-- A tool with every combination of the catalog. -/
def matrixBlock
    (tier : Tier)
    (tool : Tool)
    (workspace : Workspace)
    (catalog : FeatureCatalog) :
    List Step :=
  catalog.combinations.map fun set => recorded tier tool workspace (.features set)

/-- The format and lint checks of all workspaces. -/
def lintBlock (workspaces : WorkspaceSet) : List Step :=
  workspaces.all.map fun workspace =>
    ⟨.lintAndFormat, .lint, workspace, .features workspace.lintFeatures, .abortImmediately⟩

/-- The strict documentation builds. -/
def docsBlock (workspace : Workspace) (catalog : FeatureCatalog) : List Step :=
  [.noDefault .empty, .features catalog.docs].map fun features =>
    ⟨.docsStrict, .docs, workspace, features, .abortImmediately⟩

/-- Steps that are part of a plan only under a condition. -/
def gated (enabled : Bool) (steps : List Step) : List Step := if enabled then steps else []

/-- The plan for a configuration. -/
def build
    (config : Config)
    (catalog : FeatureCatalog)
    (workspaces : WorkspaceSet) :
    Plan :=
  let primary := workspaces.primary
  ⟨baselineBlock .baseline .test primary
    ++ gated config.check (lintBlock workspaces)
    ++ gated config.valgrind (baselineBlock .memorySafetyBaseline .valgrind primary)
    ++ gated config.miri (baselineBlock .memorySafetyBaseline .miri primary)
    ++ gated config.features (matrixBlock .featureMatrix .test primary catalog)
    ++ gated config.valgrindMatrix (matrixBlock .memorySafetyMatrix .valgrind primary catalog)
    ++ gated config.miriMatrix (matrixBlock .memorySafetyMatrix .miri primary catalog)
    ++ gated config.docs (docsBlock primary catalog)⟩

end VerifyPipeline.Plan
