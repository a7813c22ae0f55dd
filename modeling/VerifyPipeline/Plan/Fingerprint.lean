import VerifyPipeline.Hash.Sha256
import VerifyPipeline.Plan.Basic

/-!
# Fingerprints

The fingerprint of a plan is the digest of a text that lists, step by step, the identity, the
policy, the workspace's path and the command lines.  Plans with the same fingerprint run the same
commands in the same order.
-/

namespace VerifyPipeline

/-- The program under which the command lines are listed, whatever program runs them. -/
def defaultProgram : String := "cargo"

/-- What a step adds to the text under the fingerprint. -/
def Step.fingerprintText (step : Step) : String :=
  step.id ++ "\x00" ++ step.policy.label ++ "\x00" ++ step.workspace.path ++ "\x00"
    ++ step.renderCommands defaultProgram ++ "\n"

namespace Plan

/-- The text under the fingerprint. -/
def fingerprintText (plan : Plan) : String :=
  String.join (plan.steps.map Step.fingerprintText)

/-- The digest of the text under the fingerprint, in hexadecimal digits. -/
def fingerprint (plan : Plan) : String :=
  Sha256.hexDigest plan.fingerprintText.toUTF8.toList

/-- The name of a run of the plan. -/
def runId (plan : Plan) : String :=
  "run-" ++ String.ofList (plan.fingerprint.toList.take 12)

end Plan

end VerifyPipeline
