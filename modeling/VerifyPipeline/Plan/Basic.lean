import VerifyPipeline.Plan.Step

/-!
# Plans

A plan is the sequence of steps of one run.
-/

namespace VerifyPipeline

/-- The steps of a run, in order. -/
structure Plan where
  steps : List Step
  deriving DecidableEq

namespace Plan

/-- The number of steps. -/
def size (plan : Plan) : Nat := plan.steps.length

def isEmpty (plan : Plan) : Bool := plan.steps.isEmpty

/-- The number of steps of a tier. -/
def countTier (plan : Plan) (tier : Tier) : Nat :=
  plan.steps.countP fun step => step.tier = tier

/-- The number of steps that run a tool. -/
def countTool (plan : Plan) (tool : Tool) : Nat :=
  plan.steps.countP fun step => step.tool = tool

def toJson (plan : Plan) : Json := .object [("steps", .array (plan.steps.map Step.toJson))]

def decoder : Json.Decoder Plan :=
  .record "ExecutionPlan" (.field "steps" (.list Step.decoder) .done) fun (steps, ()) => ⟨steps⟩

end Plan

end VerifyPipeline
