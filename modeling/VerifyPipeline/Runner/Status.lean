import VerifyPipeline.Json.Decoder.Tagged

/-!
# How a step ended

The status of a step, and how it follows from the status word with which the system reports the end
of a child process.
-/

namespace VerifyPipeline

/-- How a step ended. -/
inductive StepStatus where
  | passed
  /-- A non-zero exit, or an end by a signal that is no interruption. -/
  | failed (code signal : Option Int32)
  /-- An interruption from outside. -/
  | interrupted (signal : Int32)
  /-- The program could not be started. -/
  | launchFailed (message : String)
  deriving Repr, DecidableEq

namespace StepStatus

/-- Whether the step passed. -/
def isSuccess : StepStatus → Bool
  | .passed => true
  | _ => false

/-- Whether the step was interrupted. -/
def isInterrupted : StepStatus → Bool
  | .interrupted _ => true
  | _ => false

/-- The exit code, if the program exited. -/
def exitCode? : StepStatus → Option Int32
  | .passed => some 0
  | .failed code _ => code
  | _ => none

/-- The signal that ended the program, if one did. -/
def signal? : StepStatus → Option Int32
  | .failed _ signal => signal
  | .interrupted signal => some signal
  | _ => none

/-- A short name of the status. -/
def label : StepStatus → String
  | .passed => "pass"
  | .failed _ _ => "fail"
  | .interrupted _ => "interrupted"
  | .launchFailed _ => "error"

/-- The written form of a number of 32 bits. -/
def word (n : Int32) : Json := .whole n.toInt

def toJson : StepStatus → Json
  | .passed => .object [("status", .string "passed")]
  | .failed code signal =>
    .object [("status", .string "failed"), ("code", .optional word code),
      ("signal", .optional word signal)]
  | .interrupted signal => .object [("status", .string "interrupted"), ("signal", word signal)]
  | .launchFailed message =>
    .object [("status", .string "launch_failed"), ("message", .string message)]

def decoder : Json.Decoder StepStatus :=
  .tagged "StepStatus" "status" [
    ("passed", .unit .passed),
    ("failed", .record "StepStatus::Failed"
      (.field "code" (.optional .int32) <| .field "signal" (.optional .int32) .done)
      fun (code, signal, ()) => .failed code signal),
    ("interrupted", .record "StepStatus::Interrupted" (.field "signal" .int32 .done)
      fun (signal, ()) => .interrupted signal),
    ("launch_failed", .record "StepStatus::LaunchFailed" (.field "message" .string .done)
      fun (message, ()) => .launchFailed message)]

end StepStatus

/-- How a child process ended, as far as its status word says. -/
inductive ChildEnd where
  | exited (code : Nat)
  | killed (signal : Nat)
  | unknown
  deriving Repr, DecidableEq

/-- The end that a status word reports: its low seven bits are zero for an exit, whose code is in
the next byte, or else hold the signal; all seven set mean neither. -/
def ChildEnd.ofRaw (raw : Int32) : ChildEnd :=
  let bits := raw.toUInt32.toNat
  let low := bits % 128
  if low = 0 then .exited (bits / 256 % 256)
  else if low < 127 then .killed low
  else .unknown

/-- Whether a signal is one of those by which a user ends a program: hang-up, interrupt and
terminate. -/
def isInterruptSignal (signal : Nat) : Bool := signal = 1 || signal = 2 || signal = 15

/-- The status that a status word stands for.  A program may report an interruption that it has
passed on as an exit code of 128 and the signal. -/
def classify (raw : Int32) : StepStatus :=
  if raw = 0 then .passed
  else
    match ChildEnd.ofRaw raw with
    | .killed signal =>
      if isInterruptSignal signal then .interrupted (.ofNat signal)
      else .failed none (some (.ofNat signal))
    | .exited code =>
      if 128 < code && isInterruptSignal (code - 128) then .interrupted (.ofNat (code - 128))
      else .failed (some (.ofNat code)) none
    | .unknown => .failed none none

end VerifyPipeline
