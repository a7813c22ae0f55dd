import VerifyPipeline.CommandLine.Options
import VerifyPipeline.Text.Plain

/-!
# Usage errors

What can be wrong with the arguments of the command, and the messages about it.  Some messages show
how the command is used: with the options that have been given so far, if there are any.
-/

namespace VerifyPipeline

/-- What is wrong with the arguments. -/
inductive UsageError where
  /-- No option begins like this, and no other argument is expected. -/
  | unexpected (argument : String)
  /-- No option has this name; possibly one with a similar name is meant. -/
  | unknownOption (word : String) (similar? : Option OptionName) (given : List OptionName)
  /-- A value is attached to an option that takes none. -/
  | unexpectedValue (name : OptionName) (value : String) (given : List OptionName)
  | repeated (name : OptionName)
  | missingValue (name : OptionName)
  /-- The value of the option for interrupts names no policy. -/
  | unknownPolicy (value : String)
  deriving Repr, DecidableEq

namespace UsageError

/-- How the command is used with some options. -/
def usageWith (names : List OptionName) : String :=
  match names with
  | [] => usageLine
  | names => " ".intercalate (("Usage: " ++ commandName) :: names.map OptionName.pattern)

/-- A text in single quotes, without what would control a terminal. -/
def quoted (text : String) : String := "'" ++ Text.plain text ++ "'"

/-- What is wrong. -/
def headline : UsageError → String
  | .unexpected argument => "unexpected argument " ++ quoted argument ++ " found"
  | .unknownOption word _ _ => "unexpected argument " ++ quoted ("--" ++ word) ++ " found"
  | .unexpectedValue name value _ =>
    "unexpected value " ++ quoted value ++ " for " ++ quoted name.pattern
      ++ " found; no more were expected"
  | .repeated name => "the argument " ++ quoted name.pattern ++ " cannot be used multiple times"
  | .missingValue name =>
    "a value is required for " ++ quoted name.pattern ++ " but none was supplied"
  | .unknownPolicy value =>
    "invalid value " ++ quoted value ++ " for " ++ quoted OptionName.onInterrupt.pattern ++ ": "
      ++ InterruptPolicy.unknownText (Text.plain value)

/-- The option to type instead, if there is one. -/
def tip? : UsageError → Option String
  | .unknownOption _ (some similar) _ =>
    some ("  tip: a similar argument exists: " ++ quoted similar.typed)
  | _ => none

/-- How the command is used, where that helps. -/
def usage? : UsageError → Option String
  | .unexpected _ | .repeated _ => some (usageWith [])
  | .unknownOption _ _ given | .unexpectedValue _ _ given => some (usageWith given)
  | .missingValue _ | .unknownPolicy _ => none

/-- The lines of the message. -/
def lines (error : UsageError) : List String :=
  let parts := ["error: " ++ error.headline] ++ error.tip?.toList ++ error.usage?.toList
    ++ ["For more information, try '--help'."]
  parts.intersperse ""

end UsageError

end VerifyPipeline
