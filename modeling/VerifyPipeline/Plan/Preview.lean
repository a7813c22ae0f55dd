import VerifyPipeline.Config
import VerifyPipeline.Feature.Catalog
import VerifyPipeline.Json.Writer
import VerifyPipeline.Plan.Fingerprint

/-!
# Previews of plans

A preview lists the steps of a plan as the records of a run would, together with what the plan was
made from.
-/

namespace VerifyPipeline

/-- A step in a preview, with the command line for a program. -/
def Step.previewJson (step : Step) (program : String) : Json :=
  .object [
    ("id", .string step.id),
    ("tier", step.tier.toJson),
    ("tool", step.tool.toJson),
    ("workspace", .string step.workspace.name),
    ("features", .string step.features.label),
    ("policy", step.policy.toJson),
    ("command", .string (step.renderCommands program))]

namespace Plan

/-- The preview of the plan for a configuration. -/
def previewJson (plan : Plan) (config : Config) (program : String) : Json :=
  .object [
    ("run_id", .string plan.runId),
    ("plan_fingerprint", .string plan.fingerprint),
    ("catalog_version", .count FeatureCatalog.version),
    ("config", config.toJson),
    ("steps", .array (plan.steps.map fun step => step.previewJson program))]

/-- The text of the preview; the keys of every object are in order. -/
def previewText (plan : Plan) (config : Config) (program : String) : String :=
  (plan.previewJson config program).canonical.indented

end Plan

end VerifyPipeline
