import VerifyPipeline.Files.OsError
import VerifyPipeline.Log.Entry
import VerifyPipeline.Text.Lines

/-!
# Emitting log entries

An emitter gives entries their trace ids and writes their lines.  Its writer either discards the
lines or keeps them, the latter possibly only up to some number of lines.
-/

namespace VerifyPipeline

/-- What becomes of the lines of a log. -/
inductive LogWriter where
  | discard
  /-- Lines are kept.  With a limit, a writer that has so many lines takes no other; with a flush
  error, it fails to be flushed. -/
  | keep (lines : Array String) (limit? : Option (Nat × OsError)) (flushError? : Option OsError)
  deriving Repr, DecidableEq

namespace LogWriter

/-- A writer that keeps every line. -/
def memory : LogWriter := .keep #[] none none

/-- The lines that have been kept. -/
def lines : LogWriter → List String
  | .discard => []
  | .keep lines _ _ => lines.toList

/-- The text of the lines that have been kept. -/
def text (writer : LogWriter) : String := Text.ofLines writer.lines

def write (line : String) : LogWriter → Except OsError LogWriter
  | .discard => .ok .discard
  | .keep lines limit? flushError? =>
    let kept : LogWriter := .keep (lines.push line) limit? flushError?
    match limit? with
    | none => .ok kept
    | some (limit, why) => if lines.size < limit then .ok kept else .error why

/-- Why the writer cannot be flushed. -/
def flushError? : LogWriter → Option OsError
  | .discard => none
  | .keep _ _ why => why

end LogWriter

/-- An emitter of log entries. -/
structure Emitter where
  writer : LogWriter
  /-- The number of trace ids that have been given out. -/
  sequence : Nat
  runId : String
  deriving Repr, DecidableEq

namespace Emitter

/-- An emitter that has emitted nothing. -/
def ofWriter (writer : LogWriter) (runId : String) : Emitter := ⟨writer, 0, runId⟩

/-- An emitter that discards everything. -/
def sink (runId : String) : Emitter := ofWriter .discard runId

/-- What every trace id given out begins with. -/
def traceStart : String := "lexical-verify"

/-- The trace id with a number. -/
def traceId (runId : String) (number : Nat) : String :=
  traceStart ++ "::" ++ runId ++ "::" ++ Text.padded 3 number

/-- The number of trace ids that will have been given out after an entry. -/
def nextSequence (emitter : Emitter) (entry : LogEntry) : Nat :=
  if entry.traceId = "" then emitter.sequence + 1 else emitter.sequence

/-- The entry with a trace id and a run id in place of missing ones. -/
def complete (emitter : Emitter) (entry : LogEntry) : LogEntry :=
  { entry with
    traceId :=
      if entry.traceId = "" then traceId emitter.runId (emitter.sequence + 1) else entry.traceId
    runId := some (entry.runId.getD emitter.runId) }

/-- Write an entry.  A trace id that was given out is spent even if the entry cannot be written. -/
def emit (emitter : Emitter) (entry : LogEntry) : Option OsError × Emitter :=
  let counted := { emitter with sequence := emitter.nextSequence entry }
  match emitter.writer.write (emitter.complete entry).line with
  | .ok writer => (none, { counted with writer := writer })
  | .error why => (some why, counted)

/-- Write entries one after the other, until one cannot be written. -/
def emitAll (emitter : Emitter) : List LogEntry → Option OsError × Emitter
  | [] => (none, emitter)
  | entry :: rest =>
    match emitter.emit entry with
    | (none, after) => after.emitAll rest
    | failed => failed

end Emitter

end VerifyPipeline
