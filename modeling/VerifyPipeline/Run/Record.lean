import VerifyPipeline.Plan.Step
import VerifyPipeline.Runner.Status

/-!
# Records

A record says what a step was and how it ended.
-/

namespace VerifyPipeline

/-- What is recorded of an executed step. -/
structure StepRecord where
  /-- The position of the step in its plan. -/
  index : Nat
  stepId : String
  tier : Tier
  tool : Tool
  workspace : String
  features : String
  policy : FailurePolicy
  /-- The command lines that run the step again from its workspace. -/
  command : String
  status : StepStatus
  durationMs : Nat
  deriving Repr, DecidableEq

namespace StepRecord

/-- The record of a step. -/
def ofStep
    (index : Nat)
    (step : Step)
    (command : String)
    (status : StepStatus)
    (durationMs : Nat) :
    StepRecord where
  index := index
  stepId := step.id
  tier := step.tier
  tool := step.tool
  workspace := step.workspace.name
  features := step.features.label
  policy := step.policy
  command := command
  status := status
  durationMs := durationMs

/-- Whether the step passed. -/
def passed (record : StepRecord) : Bool := record.status.isSuccess

def toJson (record : StepRecord) : Json :=
  .object [
    ("index", .count record.index),
    ("step_id", .string record.stepId),
    ("tier", record.tier.toJson),
    ("tool", record.tool.toJson),
    ("workspace", .string record.workspace),
    ("features", .string record.features),
    ("policy", record.policy.toJson),
    ("command", .string record.command),
    ("status", record.status.toJson),
    ("duration_ms", .count record.durationMs)]

def decoder : Json.Decoder StepRecord :=
  .record "StepRecord"
    (.field "index" .size <| .field "step_id" .string <| .field "tier" Tier.decoder <|
      .field "tool" Tool.decoder <| .field "workspace" .string <| .field "features" .string <|
      .field "policy" FailurePolicy.decoder <| .field "command" .string <|
      .field "status" StepStatus.decoder <| .field "duration_ms" .wide .done)
    fun (index, stepId, tier, tool, workspace, features, policy, command, status, durationMs, ()) =>
      ⟨index, stepId, tier, tool, workspace, features, policy, command, status, durationMs⟩

end StepRecord

end VerifyPipeline
