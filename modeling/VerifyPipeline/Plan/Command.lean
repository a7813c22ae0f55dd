import VerifyPipeline.Feature.Selection
import VerifyPipeline.Json.Decoder.Choice

/-!
# Tools and their commands

A tool is run by one or two commands.  A command is a list of arguments; the program that gets them
is chosen by whoever runs it.
-/

namespace VerifyPipeline

/-- The arguments of one invocation. -/
structure ToolCommand where
  args : List String
  deriving Repr, DecidableEq

namespace ToolCommand

/-- The command with more arguments at its end. -/
def withArgs (command : ToolCommand) (more : List String) : ToolCommand :=
  ⟨command.args ++ more⟩

/-- The command line with a program, for a reader to run again. -/
def render (program : String) (command : ToolCommand) : String :=
  command.args.foldl (fun line arg => line ++ " " ++ arg) program

def toJson (command : ToolCommand) : Json := .strings command.args

end ToolCommand

/-- What a step runs. -/
inductive Tool where
  | test
  | valgrind
  | miri
  | lint
  | docs
  deriving Repr, DecidableEq

namespace Tool

/-- A short name of the tool. -/
def label : Tool → String
  | .test => "test"
  | .valgrind => "valgrind"
  | .miri => "miri"
  | .lint => "lint"
  | .docs => "doc"

/-- The commands of the tool for a feature selection.  Lints are preceded by a check of the
format, which knows no features. -/
def commands (tool : Tool) (features : FeatureSelection) : List ToolCommand :=
  match tool with
  | .test => [⟨"test" :: features.args⟩]
  | .valgrind => [⟨["valgrind", "test", "--release"] ++ features.args⟩]
  | .miri => [⟨["+nightly", "miri", "test"] ++ features.args⟩]
  | .lint => [
      ⟨["fmt", "--", "--check"]⟩,
      ⟨"clippy" :: features.args ++ ["--", "--deny", "warnings"]⟩]
  | .docs => [⟨["doc", "--no-deps"] ++ features.args⟩]

/-- The tools by their written names. -/
def names : List (String × Tool) := [
  ("test", .test),
  ("valgrind", .valgrind),
  ("miri", .miri),
  ("lint_and_format", .lint),
  ("docs", .docs)]

def toJson : Tool → Json
  | .test => .string "test"
  | .valgrind => .string "valgrind"
  | .miri => .string "miri"
  | .lint => .string "lint_and_format"
  | .docs => .string "docs"

/-- Tools from their written names. -/
def decoder : Json.Decoder Tool := .choice names

end Tool

end VerifyPipeline
