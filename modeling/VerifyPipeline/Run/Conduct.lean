import VerifyPipeline.Run.Execute
import VerifyPipeline.Run.Narration

/-!
# Telling a run while it goes on

A run can be told as it happens: each event reaches the narrator, and through it the writer of the
log, before the next step is begun.  What the narrator has come to is handed on from event to event
beside the state of the runner.
-/

namespace VerifyPipeline

/-- A line that is given to the writer of a log, and why the writer has not taken it. -/
structure Write where
  line : String
  error? : Option OsError
  deriving Repr, DecidableEq

/-- The write that acting on a notice comes with, if there is one. -/
def Narrator.write? (narrator : Narrator) : Notice → Option Write
  | .entry entry =>
    if narrator.logging then
      some ⟨(narrator.emitter.complete entry).line, (narrator.emitter.emit entry).1⟩
    else none
  | _ => none

/-- A narrator in the middle of a run, and the writes so far. -/
structure Telling where
  narrator : Narrator
  writes : List Write := []

namespace Telling

/-- Act on a notice. -/
def tell (telling : Telling) (notice : Notice) : Telling where
  narrator := telling.narrator.tell notice
  writes := telling.writes ++ (telling.narrator.write? notice).toList

/-- Tell an occurrence in a run of so many steps. -/
def hear (total : Nat) (telling : Telling) (occurrence : Occurrence) : Telling :=
  (occurrence.notices total).foldl tell telling

/-- Tell at a clock reading that the directory could not be restored, if it could not. -/
def hearRestored
    (total : Nat)
    (telling : Telling)
    (clock : Instant) :
    Option RestoreFailure → Telling
  | none => telling
  | some failure => telling.hear total ⟨clock, .restoreFailed failure⟩

end Telling

/-- What has come of executing steps and of telling it meanwhile. -/
structure ToldPassage (σ : Type) where
  records : List StepRecord
  termination : Termination
  telling : Telling
  state : σ
  host : Host

/-- What has come of executing a plan and of telling it meanwhile. -/
structure ToldExecution (σ : Type) where
  result : RunResult
  telling : Telling
  state : σ
  host : Host

/-- What has come of a run, apart from what was told about it. -/
def ToldExecution.outcome (told : ToldExecution σ) : RunResult × σ × Host :=
  (told.result, told.state, told.host)

namespace Pipeline

/-- Execute steps of a plan of so many, the first of which has the position `index`, and tell what
happens. -/
def conductSteps (pipeline : Pipeline σ) (total : Nat) :
    Nat → List Step → Telling → σ → Host → ToldPassage σ
  | _, [], telling, state, host => ⟨[], .completed, telling, state, host⟩
  | index, step :: rest, telling, state, host =>
    let command := step.renderCommands pipeline.runner.program
    let announced := telling.hear total ⟨host.clock, .stepStarted index step command⟩
    match host.enter pipeline.project step.workspace with
    | .error why =>
      { records := []
        termination := .aborted index (some step.id) (.workspaceUnavailable why.text)
        telling := announced.hear total ⟨host.clock, .workspaceUnavailable index step why.text⟩
        state := state
        host := host }
    | .ok inside =>
      let ((status, after), used) := pipeline.runner.run step state inside
      let (left, failure?) := used.leave
      let durationMs := millisecondsBetween host.clock left.clock
      let record := StepRecord.ofStep index step command status durationMs
      let told := (announced.hearRestored total left.clock failure?).hear total
        ⟨left.clock, .stepFinished index step command status durationMs⟩
      match abortReason? pipeline.interruptPolicy step.policy status with
      | some reason =>
        { records := [record]
          termination := .aborted index (some step.id) reason
          telling := told
          state := after
          host := left }
      | none =>
        let later := pipeline.conductSteps total (index + 1) rest told after left
        { later with records := record :: later.records }

/-- Execute a plan and tell what happens. -/
def conduct
    (pipeline : Pipeline σ)
    (plan : Plan)
    (telling : Telling)
    (state : σ)
    (host : Host) :
    ToldExecution σ :=
  match host.held? with
  | some held =>
    { result := resultOf plan [] (.aborted 0 none (.reentrant held.name))
      telling := telling.hear plan.size ⟨host.clock, .reentered held.name⟩
      state := state
      host := host }
  | none =>
    let opened := telling.hear plan.size
      ⟨host.clock, .started plan.size plan.fingerprint pipeline.interruptPolicy⟩
    let passage := pipeline.conductSteps plan.size 0 plan.steps opened state host
    let result := resultOf plan passage.records passage.termination
    let clock := passage.host.clock
    let skipped := skipSteps clock passage.records.length (plan.steps.drop passage.records.length)
    let told := skipped.foldl (Telling.hear plan.size) passage.telling
    { result := result
      telling := told.hear plan.size ⟨clock, .ended result⟩
      state := passage.state
      host := passage.host }

/-- The telling of several runs one after the other, each of them given by its plan and by the state
and the host that it begins with. -/
def conductAll (pipeline : Pipeline σ) (telling : Telling) (runs : List (Plan × σ × Host)) :
    Telling :=
  runs.foldl
    (fun told run => (pipeline.conduct run.1 told run.2.1 run.2.2).telling)
    telling

end Pipeline

end VerifyPipeline
