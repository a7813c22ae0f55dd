import VerifyPipeline.CommandLine.UsageError
import VerifyPipeline.Text.Similarity

/-!
# Reading the arguments

An option is given by its name after two hyphens; its value follows an equals sign or is the next
argument.  A value that is an argument of its own is looked at when another option is met, or at the
end; so an unknown name after a bad value is what is complained about.
-/

namespace VerifyPipeline

/-- The form of an argument. -/
inductive Argument where
  /-- Two hyphens alone, after which no option is expected. -/
  | separator
  /-- A name after two hyphens, possibly with a value after an equals sign. -/
  | long (word : String) (value? : Option String)
  /-- A letter after a single hyphen, whatever follows. -/
  | short (letter : Char)
  | plain (text : String)
  deriving Repr, DecidableEq

namespace Argument

/-- The form of what follows two hyphens. -/
def ofLong (text : List Char) : Argument :=
  let word := String.ofList (text.takeWhile (· ≠ '='))
  match text.dropWhile (· ≠ '=') with
  | [] => .long word none
  | _ :: value => .long word (some (String.ofList value))

/-- The form of a text. -/
def ofText (text : String) : Argument :=
  match text.toList with
  | ['-', '-'] => .separator
  | '-' :: '-' :: rest => ofLong rest
  | '-' :: letter :: _ => .short letter
  | _ => .plain text

end Argument

/-- What the arguments ask for. -/
inductive Request where
  | help
  | run (options : Options)
  deriving Repr, DecidableEq

namespace Options

/-- Set an option to a value that must not be empty. -/
def setNonempty
    (name : OptionName)
    (value : String)
    (options : Options) :
    Except UsageError Options :=
  if value = "" then .error (.missingValue name) else .ok options

/-- Set an option to a value.  One that takes none is turned on. -/
def set (options : Options) (name : OptionName) (value : String) : Except UsageError Options :=
  match name with
  | .root => setNonempty name value { options with root := value }
  | .cargo => .ok { options with cargo := value }
  | .dryRun => .ok { options with dryRun := true }
  | .log => setNonempty name value { options with log := some value }
  | .report => setNonempty name value { options with report := some value }
  | .onInterrupt =>
    match InterruptPolicy.ofText? value with
    | some policy => .ok { options with onInterrupt := policy }
    | none => .error (.unknownPolicy value)
  | .help => .ok options

end Options

/-- What has been read from the arguments so far. -/
structure ArgumentState where
  options : Options := {}
  /-- The options that have been looked at, in order. -/
  given : List OptionName := []
  /-- An option that has not been looked at, with its value if that has come. -/
  pending? : Option (OptionName × Option String) := none
  /-- Whether two hyphens alone have come. -/
  ended : Bool := false
  deriving Repr, DecidableEq

namespace ArgumentState

/-- Count an option as given. -/
def give (state : ArgumentState) (name : OptionName) : ArgumentState :=
  if state.given.contains name then state else { state with given := state.given ++ [name] }

/-- Look at an option with its value.  An option with a bad value counts as given; one that is
repeated does so no more. -/
def accept
    (state : ArgumentState)
    (name : OptionName)
    (value : String) :
    Option UsageError × ArgumentState :=
  if state.given.contains name then
    (some (.repeated name), { state with given := state.given.erase name })
  else
    match state.options.set name value with
    | .ok options => (none, { state.give name with options := options })
    | .error why => (some why, state.give name)

/-- Look at the option that has not been looked at, if there is one. -/
def settle (state : ArgumentState) : Option UsageError × ArgumentState :=
  let rest := { state with pending? := none }
  match state.pending? with
  | none => (none, rest)
  | some (name, none) => (some (.missingValue name), rest)
  | some (name, some value) => rest.accept name value

/-- Go on from what an option has led to, unless that is an error. -/
def after
    (outcome : Option UsageError × ArgumentState)
    (next : ArgumentState → Except UsageError α) :
    Except UsageError α :=
  match outcome with
  | (some why, _) => .error why
  | (none, state) => next state

/-- The error about a name that no option has.  A similar option is shown among the given ones. -/
def unknownOption (state : ArgumentState) (word : String) : UsageError :=
  let similar? := (Text.suggestion? word (OptionName.all.map OptionName.word)).bind
    OptionName.ofWord?
  let settled := state.settle.2
  let shown := match similar? with
    | some name => settled.give name
    | none => settled
  .unknownOption word similar? shown.given

/-- Read arguments. -/
def read (state : ArgumentState) : List String → Except UsageError Request
  | [] => after state.settle fun settled => .ok (.run settled.options)
  | text :: rest =>
    if state.ended then .error (.unexpected text)
    else
      match Argument.ofText text with
      | .separator => read { state with ended := true } rest
      | .long word value? =>
        match OptionName.ofWord? word, value? with
        | none, _ => .error (state.unknownOption word)
        | some name, some value =>
          if name.takesValue then
            after state.settle fun settled =>
              after (settled.accept name value) fun accepted => accepted.read rest
          else .error (.unexpectedValue name value (state.give name).given)
        | some .help, none => after state.settle fun _ => .ok .help
        | some name, none =>
          after state.settle fun settled =>
            if name.takesValue then read { settled with pending? := some (name, none) } rest
            else after (settled.accept name "") fun accepted => accepted.read rest
      | .short letter =>
        if OptionName.help.letter? = some letter then after state.settle fun _ => .ok .help
        else .error (.unexpected ("-" ++ letter.toString))
      | .plain text =>
        match state.pending? with
        | some (name, none) => read { state with pending? := some (name, some text) } rest
        | _ => .error (.unexpected text)

end ArgumentState

/-- What arguments ask for. -/
def Request.ofArguments (arguments : List String) : Except UsageError Request :=
  ArgumentState.read {} arguments

end VerifyPipeline
