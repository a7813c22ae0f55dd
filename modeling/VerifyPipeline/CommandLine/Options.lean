import VerifyPipeline.Plan.Fingerprint
import VerifyPipeline.Run.InterruptPolicy

/-!
# Command line options

The options of the command, what they say when none is given, and the help text that lists them.
-/

namespace VerifyPipeline

def commandName : String := "lexical-verify"

/-- What the command is for. -/
def commandPurpose : String := "Verification pipeline for the lexical workspaces"

/-- The name of an option. -/
inductive OptionName where
  | root
  | cargo
  | dryRun
  | log
  | report
  | onInterrupt
  | help
  deriving Repr, DecidableEq

namespace OptionName

/-- Every option, in the order of the help text. -/
def all : List OptionName := [.root, .cargo, .dryRun, .log, .report, .onInterrupt, .help]

/-- The name without hyphens at its start. -/
def word : OptionName → String
  | .root => "root"
  | .cargo => "cargo"
  | .dryRun => "dry-run"
  | .log => "log"
  | .report => "report"
  | .onInterrupt => "on-interrupt"
  | .help => "help"

/-- The option with a name. -/
def ofWord? (text : String) : Option OptionName := all.find? fun name => name.word = text

/-- What stands for the value, if the option takes one. -/
def placeholder? : OptionName → Option String
  | .root => some "<ROOT>"
  | .cargo => some "<CARGO>"
  | .log => some "<LOG>"
  | .report => some "<REPORT>"
  | .onInterrupt => some "<ON_INTERRUPT>"
  | .dryRun | .help => none

/-- Whether the option takes a value. -/
def takesValue (name : OptionName) : Bool := name.placeholder?.isSome

/-- The option as it is typed. -/
def typed (name : OptionName) : String := "--" ++ name.word

/-- The option as it is typed, with what stands for the value. -/
def pattern (name : OptionName) : String :=
  match name.placeholder? with
  | some placeholder => name.typed ++ " " ++ placeholder
  | none => name.typed

/-- The letter that stands for the option after a single hyphen. -/
def letter? : OptionName → Option Char
  | .help => some 'h'
  | _ => none

/-- What the option does. -/
def purpose : OptionName → String
  | .root => "Project root containing the lexical workspaces [default: .]"
  | .cargo => "Program invoked for every tool step [default: cargo]"
  | .dryRun => "Print the execution plan as JSON and exit without running it"
  | .log => "Structured JSONL log output path"
  | .report => "Markdown report path; a JSON rendering is written next to it"
  | .onInterrupt =>
    "What an interrupted tool does to the run (abort or follow-step) [default: abort]"
  | .help => "Print help"

/-- The number of columns before what an option does in the help text. -/
def helpColumns : Nat := 37

/-- The line of the option in the help text. -/
def helpLine (name : OptionName) : String :=
  let letter := match name.letter? with
    | some letter => "  -" ++ letter.toString ++ ", "
    | none => "      "
  String.ofList ((letter ++ name.pattern).toList.rightpad helpColumns ' ') ++ name.purpose

end OptionName

/-- What the options say. -/
structure Options where
  root : String := "."
  cargo : String := defaultProgram
  dryRun : Bool := false
  log : Option String := none
  report : Option String := none
  onInterrupt : InterruptPolicy := .abort
  deriving Repr, DecidableEq

/-- How the command is used, without naming its options. -/
def usageLine : String := "Usage: " ++ commandName ++ " [OPTIONS]"

/-- The lines of the help text. -/
def helpLines : List String :=
  [commandPurpose, "", usageLine, "", "Options:"] ++ OptionName.all.map OptionName.helpLine

end VerifyPipeline
