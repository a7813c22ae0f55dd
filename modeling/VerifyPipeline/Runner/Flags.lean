import VerifyPipeline.Text.Blank
import VerifyPipeline.Text.Search

/-!
# Compiler flags

Every tool runs with warnings denied.  The flag that does so is added to the flags that are already
set, unless they hold it.
-/

namespace VerifyPipeline

/-- The flag that turns warnings into errors. -/
def denyWarnings : String := "-D warnings"

/-- The flags for a tool, given the ones that are set. -/
def mergedFlags : Option String → String
  | none => denyWarnings
  | some flags =>
    let trimmed := Text.trim flags
    if Text.occursIn denyWarnings.toList flags.toList then flags
    else if trimmed.isEmpty then denyWarnings
    else trimmed ++ " " ++ denyWarnings

end VerifyPipeline
