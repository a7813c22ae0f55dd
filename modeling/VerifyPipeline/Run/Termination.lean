import VerifyPipeline.Json.Decoder.Tagged

/-!
# How a run ended

A run ends when every step of its plan has been executed, or before that for a reason.
-/

namespace VerifyPipeline

/-- Why a run stopped before the end of its plan. -/
inductive AbortReason where
  /-- A step failed whose policy is to abort. -/
  | stepFailed
  | interrupted (signal : Int32)
  /-- The workspace of a step could not be entered. -/
  | workspaceUnavailable (message : String)
  /-- A workspace was held when the run was to start. -/
  | reentrant (held : String)
  deriving Repr, DecidableEq

/-- How a run ended. -/
inductive Termination where
  | completed
  /-- The run stopped at a step; none was reached if a workspace was held. -/
  | aborted (stepIndex : Nat) (stepId : Option String) (reason : AbortReason)
  deriving Repr, DecidableEq

namespace AbortReason

/-- The words for a reason. -/
def text : AbortReason → String
  | .stepFailed => "abort-immediately step failed"
  | .interrupted signal => "interrupted by signal " ++ toString signal.toInt
  | .workspaceUnavailable message => message
  | .reentrant held => "pipeline already running inside workspace '" ++ held ++ "'"

def members : AbortReason → List (String × Json)
  | .stepFailed => [("reason", .string "step_failed")]
  | .interrupted signal =>
    [("reason", .string "interrupted"), ("signal", .whole signal.toInt)]
  | .workspaceUnavailable message =>
    [("reason", .string "workspace_unavailable"), ("message", .string message)]
  | .reentrant held => [("reason", .string "reentrant"), ("held", .string held)]

/-- The reasons by their names. -/
def variants : Json.Variants AbortReason := [
  ("step_failed", .unit .stepFailed),
  ("interrupted", .record "AbortReason::Interrupted" (.field "signal" .int32 .done)
    fun (signal, ()) => .interrupted signal),
  ("workspace_unavailable", .record "AbortReason::WorkspaceUnavailable"
    (.field "message" .string .done) fun (message, ()) => .workspaceUnavailable message),
  ("reentrant", .record "AbortReason::Reentrant" (.field "held" .string .done)
    fun (held, ()) => .reentrant held)]

/-- Take a reason from members. -/
def ofMembers (members : List (String × Json)) : Except Json.Mismatch AbortReason :=
  Json.ofTaggedMembers "reason" (Json.chosenOrCounted variants) members

end AbortReason

namespace Termination

/-- Whether every step was executed. -/
def isCompleted : Termination → Bool
  | .completed => true
  | .aborted _ _ _ => false

/-- The line that tells why a run stopped, if it did before the end of its plan.  Steps are counted
from one; with the greatest word as the index there is no word for the count. -/
def text? : Termination → Option String
  | .completed => none
  | .aborted stepIndex stepId reason =>
    let step := "step " ++ toString (stepIndex + 1)
    let place := match stepId with
      | none => step
      | some id => step ++ " (" ++ id ++ ")"
    some ("Run stopped at " ++ place ++ ": " ++ reason.text)

/-- The written form.  What tells the reason stands beside the step. -/
def toJson : Termination → Json
  | .completed => .object [("state", .string "completed")]
  | .aborted stepIndex stepId reason =>
    .object ([("state", .string "aborted"), ("step_index", .count stepIndex),
      ("step_id", .optional .string stepId)] ++ reason.members)

def decoder : Json.Decoder Termination :=
  .tagged "Termination" "state" [
    ("completed", .unit .completed),
    ("aborted", .recordWith "Termination::Aborted"
      (.field "step_index" .size <| .field "step_id" (.optional .string) .done)
      AbortReason.ofMembers
      fun (stepIndex, stepId, ()) reason => .aborted stepIndex stepId reason)]

end Termination

end VerifyPipeline
