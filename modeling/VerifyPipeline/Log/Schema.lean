import VerifyPipeline.Log.Entry
import VerifyPipeline.Text.Blank
import VerifyPipeline.Text.Lines
import VerifyPipeline.Text.Search

/-!
# The schema of a log

Every line of a log that is not blank is a JSON object with the required fields, in which the
fields of closed vocabularies hold words of these, an outcome comes with a step, and the trace id
has three parts.  A line that keeps these rules must also decode as an entry.
-/

namespace VerifyPipeline

/-- A way in which a line breaks the schema. -/
inductive SchemaFault where
  /-- The line is no JSON, or no entry; with the words for it. -/
  | unreadable (message : String)
  | notAnObject
  | missingField (field : String)
  | invalidValue (field value : String)
  | outcomeWithoutStep
  | traceId (found : String)
  deriving Repr, DecidableEq

/-- A fault and the number of its line. -/
structure SchemaError where
  line : Nat
  fault : SchemaFault
  deriving Repr, DecidableEq

namespace SchemaError

/-- The field that the error is about; none if it is about the whole line. -/
def field? (error : SchemaError) : Option String :=
  match error.fault with
  | .unreadable _ | .notAnObject => none
  | .missingField field => some field
  | .invalidValue field _ => some field
  | .outcomeWithoutStep => some "step_id"
  | .traceId _ => some "trace_id"

def text (error : SchemaError) : String :=
  let rest := match error.fault with
    | .unreadable message => "not valid JSON: " ++ message
    | .notAnObject => "expected a JSON object"
    | .missingField field => "required field '" ++ field ++ "' is missing"
    | .invalidValue field value => "'" ++ value ++ "' is not a valid " ++ field
    | .outcomeWithoutStep => "entries with an outcome must carry step_id"
    | .traceId found => "trace_id '" ++ found ++ "' is not <prefix>::<run_id>::<seq>"
  "line " ++ toString error.line ++ ": " ++ rest

end SchemaError

namespace LogSchema

/-- The fields that every entry has. -/
def requiredFields : List String := ["timestamp", "trace_id", "level", "event"]

/-- The fields with closed vocabularies, and these. -/
def vocabularies : List (String × List String) := [
  ("level", LogLevel.all.map LogLevel.label),
  ("outcome", Outcome.all.map Outcome.label),
  ("tier", Tier.all.map Tier.label),
  ("policy", FailurePolicy.all.map FailurePolicy.label)]

/-- The required fields that are missing. -/
def missingFields (entry : Json) : List SchemaFault :=
  (requiredFields.filter fun field => (entry.get? field).isNone).map .missingField

/-- The texts that are not in the vocabularies of their fields. -/
def invalidValues (entry : Json) : List SchemaFault :=
  vocabularies.filterMap fun (field, words) =>
    match (entry.get? field).bind Json.text? with
    | some value => if words.contains value then none else some (.invalidValue field value)
    | none => none

/-- An outcome without a step. -/
def outcomeFaults (entry : Json) : List SchemaFault :=
  if (entry.get? "outcome").isSome && ((entry.get? "step_id").bind Json.text?).isNone then
    [.outcomeWithoutStep]
  else []

/-- A trace id that has not three parts. -/
def traceFaults (entry : Json) : List SchemaFault :=
  match (entry.get? "trace_id").bind Json.text? with
  | some found =>
    if (Text.splitAtDoubleColon found.toList).length = 3 then [] else [.traceId found]
  | none => []

/-- All faults of an object, in the order in which they are reported. -/
def faults (entry : Json) : List SchemaFault :=
  missingFields entry ++ invalidValues entry ++ outcomeFaults entry ++ traceFaults entry

/-- The entry on a line, or the faults of the line. -/
def checkText (text : List Char) : Except (List SchemaFault) LogEntry :=
  match Json.ofText text with
  | .error failure => .error [.unreadable (failure.message text)]
  | .ok value =>
    match value.canonical with
    | .object members =>
      match faults (.object members) with
      | [] =>
        match LogEntry.decoder.tree (.object members) with
        | .ok entry => .ok entry
        | .error why => .error [.unreadable why.text]
      | found => .error found
    | _ => .error [.notAnObject]

/-- The entry on a line, or the errors of the line under its number. -/
def checkLine (text : List Char) (line : Nat) : Except (List SchemaError) LogEntry :=
  match checkText text with
  | .ok entry => .ok entry
  | .error found => .error (found.map (SchemaError.mk line))

end LogSchema

/-- What a check of a whole log has found. -/
structure LogCheck where
  /-- The number of lines that are not blank. -/
  lines : Nat
  errors : List SchemaError
  deriving Repr, DecidableEq

namespace LogCheck

/-- Whether no error was found. -/
def isValid (check : LogCheck) : Bool := check.errors.isEmpty

/-- Nothing checked. -/
def empty : LogCheck := ⟨0, []⟩

/-- What two checks have found together. -/
def append (first second : LogCheck) : LogCheck :=
  ⟨first.lines + second.lines, first.errors ++ second.errors⟩

/-- The check of one physical line; white space around it is ignored. -/
def ofLine (line : List Char) (number : Nat) : LogCheck :=
  match Text.trimChars line with
  | [] => empty
  | text =>
    match LogSchema.checkLine text number with
    | .ok _ => ⟨1, []⟩
    | .error errors => ⟨1, errors⟩

/-- The check of lines that are numbered from a given one on. -/
def ofLines : List (List Char) → Nat → LogCheck
  | [], _ => empty
  | line :: rest, number => (ofLine line number).append (ofLines rest (number + 1))

/-- The check of a whole log. -/
def ofText (content : List Char) : LogCheck := ofLines (Text.lines content) 1

end LogCheck

end VerifyPipeline
