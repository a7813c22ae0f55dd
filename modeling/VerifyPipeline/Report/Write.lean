import VerifyPipeline.Files.Operations
import VerifyPipeline.Report.Markdown

/-!
# Writing reports

A report is written twice: its Markdown text at the given path, and its JSON text beside it.
-/

namespace VerifyPipeline

/-- Why a report was not written. -/
structure ReportError where
  /-- The path of the file that could not be written. -/
  path : String
  why : OsError
  deriving Repr, DecidableEq

def ReportError.text (error : ReportError) : String :=
  "cannot write report " ++ error.path ++ ": " ++ error.why.text

namespace RunReport

/-- Write the report.  The result is the path of the JSON text, and the tree. -/
def write
    (report : RunReport)
    (tree : FileTree)
    (here : Spot)
    (path : String) :
    Except ReportError String × FileTree :=
  match tree.saveText here path report.markdown with
  | (some why, saved) => (.error ⟨path, why⟩, saved)
  | (none, saved) =>
    let sibling := Path.jsonSibling path
    match saved.saveText here sibling report.jsonText with
    | (some why, both) => (.error ⟨sibling, why⟩, both)
    | (none, both) => (.ok sibling, both)

end RunReport

end VerifyPipeline
