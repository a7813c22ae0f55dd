import VerifyPipeline.Log.Emitter
import VerifyPipeline.Run.Event

/-!
# Telling a run

A narrator shows lines to the user and emits entries into the log.  When an entry cannot be written,
the narrator says so once and leaves the log alone from then on.
-/

namespace VerifyPipeline

/-- Who tells a run, and what has been told so far. -/
structure Narrator where
  emitter : Emitter
  /-- Whether the log is still written. -/
  logging : Bool := true
  /-- Whether lines about the progress are shown. -/
  progress : Bool
  /-- The lines that have been shown. -/
  shown : Array String := #[]

namespace Narrator

/-- Show a line. -/
def display (narrator : Narrator) (line : String) : Narrator :=
  { narrator with shown := narrator.shown.push line }

/-- Emit an entry, unless the log has failed before. -/
def log (narrator : Narrator) (entry : LogEntry) : Narrator :=
  if narrator.logging then
    match narrator.emitter.emit entry with
    | (none, emitter) => { narrator with emitter := emitter }
    | (some why, emitter) =>
      { narrator with emitter := emitter, logging := false }.display
        ("warning: structured log disabled after write failure: " ++ why.text)
  else narrator

/-- Flush the log, unless it has failed before. -/
def flush (narrator : Narrator) : Narrator :=
  match narrator.emitter.writer.flushError? with
  | some why =>
    if narrator.logging then
      narrator.display ("warning: failed to flush structured log: " ++ why.text)
    else narrator
  | none => narrator

/-- Act on a notice. -/
def tell (narrator : Narrator) : Notice → Narrator
  | .progress line => if narrator.progress then narrator.display line else narrator
  | .warning line => narrator.display line
  | .entry entry => narrator.log entry
  | .flush => narrator.flush

/-- Tell the occurrences of a run of so many steps. -/
def tellRun (narrator : Narrator) (total : Nat) (occurrences : List Occurrence) : Narrator :=
  (occurrences.flatMap (Occurrence.notices total)).foldl tell narrator

end Narrator

end VerifyPipeline
