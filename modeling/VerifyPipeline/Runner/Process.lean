import VerifyPipeline.Runner.Basic
import VerifyPipeline.Runner.Flags

/-!
# Running tools as child processes

A step is executed by starting a program once for each of its commands, in the current directory and
with warnings denied.  Signals that end a program reach the whole group of processes; the runner
notes them and reports the step as interrupted, whatever the child's own end.
-/

namespace VerifyPipeline

/-- What a child process does. -/
structure Child where
  /-- The signals that reach the runner while the child runs, in order. -/
  raises : List Int32 := []
  /-- The status word that reports how the child ended. -/
  ending : Int32 := 0
  nanoseconds : Nat := 0
  /-- What becomes of the files, and of the directory in which the child is started: it may be moved
  or removed. -/
  acts : Scene → Scene := id

/-- The host when a child has run. -/
def Host.after (host : Host) (child : Child) : Host :=
  { host.later child.nanoseconds with
    tree := (child.acts host.scene).tree
    here := (child.acts host.scene).here }

/-- An attempt to start a program. -/
structure Attempt where
  directory : Spot
  arguments : List String
  rustflags : String
  rustdocflags : String
  /-- Whether the program was started. -/
  started : Bool
  deriving Repr, DecidableEq

/-- What a process runner keeps between steps. -/
structure ProcessState where
  /-- The last signal that has not been noticed yet. -/
  pending? : Option Int32 := none
  /-- The attempts so far, the last one first. -/
  attempts : List Attempt := []
  /-- The number of steps that have been begun. -/
  steps : Nat := 0
  deriving Repr, DecidableEq

namespace ProcessState

/-- The number of programs that have been started. -/
def started (state : ProcessState) : Nat := state.attempts.countP Attempt.started

/-- A signal reaches the runner. -/
def raise (state : ProcessState) (signal : Int32) : ProcessState :=
  { state with pending? := some signal }

/-- Notice a signal, which is then no longer pending. -/
def take (state : ProcessState) : Option Int32 × ProcessState :=
  (state.pending?, { state with pending? := none })

end ProcessState

/-- A runner that starts a program for every command. -/
structure ProcessRunner where
  program : String
  /-- Whether signals are noticed. -/
  listens : Bool
  /-- The programs that are found by their names alone. -/
  installed : List String
  /-- The compiler flags that are already set. -/
  rustflags : Option String
  rustdocflags : Option String
  /-- What the children do, by the number of programs started before. -/
  children : Nat → Child
  /-- Why the system does not start a program although it is there, by the number of attempts made
  before. -/
  refusals : Nat → Option OsError := fun _ => none
  /-- The signals that reach the runner during an attempt that starts no program, in order, by the
  number of attempts made before. -/
  alarms : Nat → List Int32 := fun _ => []
  /-- The signals that reach the runner before a step, in order, by the number of steps begun
  before. -/
  interim : Nat → List Int32 := fun _ => []

namespace ProcessRunner

/-- Whether a text has the character with the number zero. -/
def hasZero (text : String) : Bool := text.toList.contains '\x00'

/-- Why a program that is given by its name alone cannot be started. -/
def nameError? (installed : List String) (name : String) : Option OsError :=
  if installed.contains name then none
  else if name = "." || name = ".." then some .permissionDenied
  else if FileTree.nameLimit < name.utf8ByteSize then some .nameTooLong
  else some .notFound

/-- Whether there is a file that may be executed. -/
def isExecutable (tree : FileTree) (spot : Spot) : Bool :=
  spot.removed.isEmpty && (tree.number? spot.live).any fun number => (tree.file number).executable

/-- Why a program that is given by a path cannot be started. -/
def pathError? (host : Host) (path : String) : Option OsError :=
  match host.tree.resolve host.here path with
  | .ok spot => if isExecutable host.tree spot then none else some .permissionDenied
  | .error why => some why

/-- Why a program cannot be started with arguments, if it cannot. -/
def startError? (runner : ProcessRunner) (host : Host) (arguments : List String) : Option OsError :=
  if (runner.program :: arguments).any hasZero then some .zeroInCommand
  else if runner.program.toList.contains '/' then pathError? host runner.program
  else nameError? runner.installed runner.program

/-- Why a program cannot be started with arguments after so many attempts, if it cannot. -/
def refusal?
    (runner : ProcessRunner)
    (host : Host)
    (arguments : List String)
    (attempted : Nat) :
    Option OsError :=
  (runner.startError? host arguments).or (runner.refusals attempted)

/-- The attempt to start a command. -/
def attempt
    (runner : ProcessRunner)
    (host : Host)
    (command : ToolCommand)
    (started : Bool) :
    Attempt where
  directory := host.here
  arguments := command.args
  rustflags := mergedFlags runner.rustflags
  rustdocflags := mergedFlags runner.rustdocflags
  started := started

/-- The status of a command whose program could not be started. -/
def launchFailure (runner : ProcessRunner) (command : ToolCommand) (why : OsError) : StepStatus :=
  .launchFailed ("failed to run `" ++ command.render runner.program ++ "`: " ++ why.text)

/-- Start a command and wait for its end. -/
def launch
    (runner : ProcessRunner)
    (command : ToolCommand)
    (state : ProcessState)
    (host : Host) :
    (StepStatus × ProcessState) × Host :=
  match runner.refusal? host command.args state.attempts.length with
  | some why =>
    let failed := runner.attempt host command false
    ((runner.launchFailure command why,
      { state with
        pending? := (runner.alarms state.attempts.length).getLast?.or state.pending?
        attempts := failed :: state.attempts }),
      host)
  | none =>
    let child := runner.children state.started
    let done := runner.attempt host command true
    ((classify child.ending,
      { state with
        pending? := child.raises.getLast?.or state.pending?
        attempts := done :: state.attempts }),
      host.after child)

/-- The state when the next step is begun. -/
def begun (runner : ProcessRunner) (state : ProcessState) : ProcessState :=
  { state with
    pending? := (runner.interim state.steps).getLast?.or state.pending?
    steps := state.steps + 1 }

/-- Notice a signal, if the runner listens. -/
def notice (runner : ProcessRunner) (state : ProcessState) : Option Int32 × ProcessState :=
  if runner.listens then state.take else (none, state)

/-- Start commands one after the other, until one does not succeed or a signal is noticed. -/
def runCommands
    (runner : ProcessRunner) :
    List ToolCommand → ProcessState → Host → (StepStatus × ProcessState) × Host
  | [], state, host => ((.passed, state), host)
  | command :: rest, state, host =>
    let ((status, launched), after) := runner.launch command state host
    match runner.notice launched with
    | (some signal, noticed) =>
      ((if status.isInterrupted then status else .interrupted signal, noticed), after)
    | (none, noticed) =>
      if status.isSuccess then runner.runCommands rest noticed after
      else ((status, noticed), after)

/-- Execute a step.  Nothing is started if a signal is pending. -/
def run
    (runner : ProcessRunner)
    (step : Step)
    (state : ProcessState)
    (host : Host) :
    (StepStatus × ProcessState) × Host :=
  match runner.notice (runner.begun state) with
  | (some signal, noticed) => ((.interrupted signal, noticed), host)
  | (none, noticed) => runner.runCommands step.commands noticed host

/-- The runner among others. -/
def toRunner (runner : ProcessRunner) : Runner ProcessState where
  program := runner.program
  run := runner.run

end ProcessRunner

end VerifyPipeline
