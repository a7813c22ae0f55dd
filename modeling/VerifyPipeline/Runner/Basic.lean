import VerifyPipeline.Plan.Step
import VerifyPipeline.Runner.Status
import VerifyPipeline.Workspace.Slot

/-!
# Runners

A runner executes one step at a time in the current directory of the host.  What it keeps between
steps is of a type of its own choice.
-/

namespace VerifyPipeline

/-- Something that executes steps. -/
structure Runner (σ : Type) where
  /-- The program that is named in the command lines for a reader. -/
  program : String
  run : Step → σ → Host → (StepStatus × σ) × Host

end VerifyPipeline
