import VerifyPipeline.Config
import VerifyPipeline.Json.Writer
import VerifyPipeline.Report.Summary
import VerifyPipeline.Run.InterruptPolicy

/-!
# Reports

A report holds the result of a run, its summary, and under what configuration it came about.
-/

namespace VerifyPipeline

/-- The report of a run. -/
structure RunReport where
  title : String
  timestamp : String
  /-- The program that ran the tools. -/
  program : String
  config : Config
  interruptPolicy : InterruptPolicy
  /-- What was odd about the configuration. -/
  warnings : List String
  summary : RunSummary
  result : RunResult
  deriving Repr, DecidableEq

namespace RunReport

/-- The title of every report. -/
def standardTitle : String := "lexical verification report"

/-- The report of a result. -/
def ofResult
    (result : RunResult)
    (config : Config)
    (interruptPolicy : InterruptPolicy)
    (program timestamp : String) :
    RunReport where
  title := standardTitle
  timestamp := timestamp
  program := program
  config := config
  interruptPolicy := interruptPolicy
  warnings := config.inconsistencies.map Inconsistency.text
  summary := .ofResult result
  result := result

def toJson (report : RunReport) : Json :=
  .object [
    ("title", .string report.title),
    ("timestamp", .string report.timestamp),
    ("program", .string report.program),
    ("config", report.config.toJson),
    ("interrupt_policy", report.interruptPolicy.toJson),
    ("warnings", .strings report.warnings),
    ("summary", report.summary.toJson),
    ("result", report.result.toJson)]

/-- The text of the written form. -/
def jsonText (report : RunReport) : String := report.toJson.indented

def decoder : Json.Decoder RunReport :=
  .record "RunReport"
    (.field "title" .string <| .field "timestamp" .string <| .field "program" .string <|
      .field "config" Config.decoder <|
      .field "interrupt_policy" InterruptPolicy.decoder <|
      .field "warnings" (.list .string) <| .field "summary" RunSummary.decoder <|
      .field "result" RunResult.decoder .done)
    fun (title, timestamp, program, config, interruptPolicy, warnings, summary, result, ()) =>
      ⟨title, timestamp, program, config, interruptPolicy, warnings, summary, result⟩

end RunReport

end VerifyPipeline
