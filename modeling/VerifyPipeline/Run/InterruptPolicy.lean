import VerifyPipeline.Json.Decoder.Choice
import VerifyPipeline.Text.Blank

/-!
# Interrupt policies

What an interrupted step does to a run.
-/

namespace VerifyPipeline

/-- What an interrupted step does to a run. -/
inductive InterruptPolicy where
  /-- It ends the run, whatever the step's own policy. -/
  | abort
  /-- It counts as a failure under the step's own policy. -/
  | followStep
  deriving Repr, DecidableEq

namespace InterruptPolicy

def label : InterruptPolicy → String
  | .abort => "abort"
  | .followStep => "follow-step"

/-- The policy that a text names, white space around it and the case of its letters aside, and with
underscores for hyphens. -/
def ofText? (text : String) : Option InterruptPolicy :=
  let name := (Text.trim text).map fun c => if c = '_' then '-' else c.toLower
  if name = "abort" || name = "always-abort" then some .abort
  else if name = "follow-step" || name = "step" || name = "follow" then some .followStep
  else none

/-- The message for a text that names no policy. -/
def unknownText (text : String) : String :=
  "unknown interrupt policy '" ++ text ++ "' (expected 'abort' or 'follow-step')"

def toJson : InterruptPolicy → Json
  | .abort => .string "abort"
  | .followStep => .string "follow_step"

def decoder : Json.Decoder InterruptPolicy :=
  .choice [("abort", .abort), ("follow_step", .followStep)]

end InterruptPolicy

end VerifyPipeline
