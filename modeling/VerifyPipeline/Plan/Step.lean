import VerifyPipeline.Plan.Command
import VerifyPipeline.Workspace.Basic

/-!
# Steps

A step runs one tool in one workspace with one feature selection.  It belongs to a tier, and its
policy says what its failure does to the steps after it.
-/

namespace VerifyPipeline

/-- The part of a plan that a step belongs to. -/
inductive Tier where
  | baseline
  | featureMatrix
  | memorySafetyBaseline
  | memorySafetyMatrix
  | lintAndFormat
  | docsStrict
  deriving Repr, DecidableEq

namespace Tier

def label : Tier → String
  | .baseline => "baseline"
  | .featureMatrix => "feature_matrix"
  | .memorySafetyBaseline => "memory_safety_baseline"
  | .memorySafetyMatrix => "memory_safety_matrix"
  | .lintAndFormat => "lint_and_format"
  | .docsStrict => "docs_strict"

/-- All tiers. -/
def all : List Tier := [
  .baseline, .featureMatrix, .memorySafetyBaseline, .memorySafetyMatrix, .lintAndFormat,
  .docsStrict]

def toJson (tier : Tier) : Json := .string tier.label

/-- Tiers from their names. -/
def decoder : Json.Decoder Tier := .choice (all.map fun tier => (tier.label, tier))

end Tier

/-- What a failing step does to the rest of a plan. -/
inductive FailurePolicy where
  | abortImmediately
  | recordAndContinue
  deriving Repr, DecidableEq

namespace FailurePolicy

def label : FailurePolicy → String
  | .abortImmediately => "abort_immediately"
  | .recordAndContinue => "record_and_continue"

/-- Both policies. -/
def all : List FailurePolicy := [.abortImmediately, .recordAndContinue]

/-- Whether a failure ends the run. -/
def aborts : FailurePolicy → Bool
  | .abortImmediately => true
  | .recordAndContinue => false

def toJson (policy : FailurePolicy) : Json := .string policy.label

/-- Policies from their names. -/
def decoder : Json.Decoder FailurePolicy := .choice (all.map fun policy => (policy.label, policy))

end FailurePolicy

/-- One scheduled use of a tool. -/
structure Step where
  tier : Tier
  tool : Tool
  workspace : Workspace
  features : FeatureSelection
  policy : FailurePolicy
  deriving DecidableEq

namespace Step

/-- The identity of the step, such as `feature_matrix/test@lexical[format,radix]`. -/
def id (step : Step) : String :=
  step.tier.label ++ "/" ++ step.tool.label ++ "@" ++ step.workspace.name
    ++ "[" ++ step.features.label ++ "]"

/-- The commands of the step, in the order in which they are run. -/
def commands (step : Step) : List ToolCommand := step.tool.commands step.features

/-- The command lines of the step with a program. -/
def renderCommands (program : String) (step : Step) : String :=
  String.intercalate " && " (step.commands.map (·.render program))

def toJson (step : Step) : Json :=
  .object [
    ("tier", step.tier.toJson),
    ("tool", step.tool.toJson),
    ("workspace", step.workspace.toJson),
    ("features", step.features.toJson),
    ("policy", step.policy.toJson)]

def decoder : Json.Decoder Step :=
  .record "Step"
    (.field "tier" Tier.decoder <| .field "tool" Tool.decoder <|
      .field "workspace" Workspace.decoder <| .field "features" FeatureSelection.decoder <|
      .field "policy" FailurePolicy.decoder .done)
    fun (tier, tool, workspace, features, policy, ()) =>
      ⟨tier, tool, workspace, features, policy⟩

end Step

end VerifyPipeline
