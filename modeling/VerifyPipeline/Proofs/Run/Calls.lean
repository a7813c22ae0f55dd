import VerifyPipeline.Proofs.Workspace.Entering
import VerifyPipeline.Run.Execute

namespace VerifyPipeline

/-!
# The calls of a run

Executing steps comes down to a chain of calls of the runner, one a step, each with the state that
the one before returned and in the host that it left.  The chain covers the first steps of the plan
and breaks off for one of three reasons: there is no step left, the last call gives a reason to
stop, or the workspace of the next step cannot be entered.  `passes_runSteps` says so of every
pipeline; whatever is said of a run follows from it.
-/

/-- A call of a runner: what it was given, in which host it was made, and what it returned. -/
structure Call (σ : Type) where
  step : Step
  given : σ
  /-- The host inside the step's workspace. -/
  entered : Host
  status : StepStatus
  after : σ
  /-- The host before the workspace is left. -/
  left : Host

/-- The warning that an event is told by, if there is one. -/
def RunEvent.warning? : RunEvent → Option String
  | .restoreFailed failure => some failure.text
  | _ => none

namespace Call

/-- The record of the call for the step at a position. -/
def record (program : String) (index : Nat) (call : Call σ) : StepRecord :=
  .ofStep index call.step (call.step.renderCommands program) call.status
    (millisecondsBetween call.entered.clock call.left.clock)

/-- What happens around the call for the step at a position. -/
def occurrences (program : String) (index : Nat) (call : Call σ) : List Occurrence :=
  let command := call.step.renderCommands program
  ⟨call.entered.clock, .stepStarted index call.step command⟩
    :: call.left.leave.2.toList.map (fun failure => ⟨call.left.clock, .restoreFailed failure⟩)
    ++ [⟨call.left.clock, .stepFinished index call.step command call.status
      (millisecondsBetween call.entered.clock call.left.clock)⟩]

/-- The warning after the call, if the directory before it could not be made current again. -/
def warning? (call : Call σ) : Option String := call.left.leave.2.map RestoreFailure.text

theorem warning?_occurrences
    (program : String)
    (index : Nat)
    (call : Call σ) :
    (call.occurrences program index).filterMap (fun occurrence => occurrence.event.warning?) =
      call.warning?.toList := by
  cases failed : call.left.leave.2 <;> simp [occurrences, warning?, failed, RunEvent.warning?]

end Call

namespace Pipeline

/-- Why a run stops after a call, if it does. -/
def reason? (pipeline : Pipeline σ) (call : Call σ) : Option AbortReason :=
  abortReason? pipeline.interruptPolicy call.step.policy call.status

/-- A call is one that the pipeline makes from a host. -/
structure Makes (pipeline : Pipeline σ) (host : Host) (call : Call σ) : Prop where
  entered : host.enter pipeline.project call.step.workspace = .ok call.entered
  returned :
    pipeline.runner.run call.step call.given call.entered =
      ((call.status, call.after), call.left)

/-- Calls that follow one another, from a state and a host to a state and a host. -/
inductive Chain (pipeline : Pipeline σ) :
    σ → Host → List (Call σ) → σ → Host → Prop where
  | nil
      {state : σ}
      {host : Host} :
      Chain pipeline state host [] state host
  | cons
      {host last : Host}
      {call : Call σ}
      {calls : List (Call σ)}
      {final : σ} :
      pipeline.Makes host call →
      Chain pipeline call.after call.left.leave.1 calls final last →
      Chain pipeline call.given host (call :: calls) final last

/-- How the execution of steps ends, the first of which has the position `index`, when calls have
been made for the first of them and a host was left. -/
inductive Ending (pipeline : Pipeline σ) :
    Nat → List Step → List (Call σ) → Host → Termination → Prop where
  | completed
      {index : Nat}
      {steps : List Step}
      {calls : List (Call σ)}
      {last : Host} :
      calls.length = steps.length →
      (∀ call ∈ calls, pipeline.reason? call = none) →
      Ending pipeline index steps calls last .completed
  | stopped
      {index : Nat}
      {steps : List Step}
      {earlier : List (Call σ)}
      {call : Call σ}
      {last : Host}
      {reason : AbortReason} :
      (∀ call ∈ earlier, pipeline.reason? call = none) →
      pipeline.reason? call = some reason →
      Ending pipeline index steps (earlier ++ [call]) last
        (.aborted (index + earlier.length) (some call.step.id) reason)
  | barred
      {index : Nat}
      {steps : List Step}
      {calls : List (Call σ)}
      {last : Host}
      {step : Step}
      {why : WorkspaceError} :
      (∀ call ∈ calls, pipeline.reason? call = none) →
      steps[calls.length]? = some step →
      last.enter pipeline.project step.workspace = .error why →
      Ending pipeline index steps calls last
        (.aborted (index + calls.length) (some step.id) (.workspaceUnavailable why.text))

/-- What the execution of steps comes down to. -/
structure Passes
    (pipeline : Pipeline σ)
    (index : Nat)
    (steps : List Step)
    (state : σ)
    (host : Host)
    (calls : List (Call σ))
    (passage : Passage σ) : Prop where
  called : calls.map Call.step = steps.take calls.length
  chain : pipeline.Chain state host calls passage.state passage.host
  records :
    passage.records =
      calls.mapIdx fun offset call => call.record pipeline.runner.program (index + offset)
  ending : pipeline.Ending index steps calls passage.host passage.termination
  warnings :
    passage.occurrences.filterMap (fun occurrence => occurrence.event.warning?) =
      calls.filterMap Call.warning?

namespace Chain

/-- Chains can be cut anywhere. -/
theorem append_iff
    {pipeline : Pipeline σ}
    {state final : σ}
    {host last : Host}
    {first second : List (Call σ)} :
    pipeline.Chain state host (first ++ second) final last ↔
      ∃ middle between,
        pipeline.Chain state host first middle between ∧
          pipeline.Chain middle between second final last := by
  constructor
  · intro chain
    induction first generalizing state host with
    | nil =>
        exact ⟨state, host, .nil, chain⟩
    | cons call rest inductionHypothesis =>
        cases chain with
        | cons makes later =>
            obtain ⟨middle, between, left, right⟩ := inductionHypothesis later
            exact ⟨middle, between, .cons makes left, right⟩
  · rintro ⟨middle, between, left, right⟩
    induction left with
    | nil =>
        exact right
    | cons makes _ inductionHypothesis =>
        exact .cons makes (inductionHypothesis right)

/-- Each call is given the state that the one before returned. -/
theorem threaded
    {pipeline : Pipeline σ}
    {state final : σ}
    {host last : Host}
    {calls : List (Call σ)}
    (chain : pipeline.Chain state host calls final last) :
    state :: calls.map Call.after = calls.map Call.given ++ [final] := by
  induction chain with
  | nil =>
      rfl
  | cons _ _ inductionHypothesis =>
      simp [inductionHypothesis]

/-- The calls of a chain determine where it ends. -/
theorem final_unique
    {pipeline other : Pipeline σ}
    {state final otherFinal : σ}
    {host last otherLast : Host}
    {calls : List (Call σ)}
    (chain : pipeline.Chain state host calls final last)
    (otherChain : other.Chain state host calls otherFinal otherLast) :
    final = otherFinal ∧ last = otherLast := by
  induction chain with
  | nil =>
      cases otherChain
      exact ⟨rfl, rfl⟩
  | @cons _ _ call _ _ _ _ inductionHypothesis =>
      generalize call.given = given at otherChain
      cases otherChain with
      | cons _ later =>
          exact inductionHypothesis later

/-- Every call of a chain has returned what the runner gives. -/
theorem returned
    {pipeline : Pipeline σ}
    {state final : σ}
    {host last : Host}
    {calls : List (Call σ)}
    (chain : pipeline.Chain state host calls final last) :
    ∀ call ∈ calls,
      pipeline.runner.run call.step call.given call.entered =
        ((call.status, call.after), call.left) := by
  induction chain with
  | nil =>
      simp
  | cons makes _ inductionHypothesis =>
      exact List.forall_mem_cons.mpr ⟨makes.returned, inductionHypothesis⟩

end Chain

namespace Ending

variable
  {pipeline : Pipeline σ}
  {steps : List Step}
  {calls : List (Call σ)}
  {last : Host}
  {termination : Termination}
  {index : Nat}
  {call : Call σ}

/-- One more call before the others does not change how the execution ends. -/
theorem cons
    (ending : pipeline.Ending (index + 1) steps calls last termination)
    (goesOn : pipeline.reason? call = none)
    (step : Step) :
    pipeline.Ending index (step :: steps) (call :: calls) last termination := by
  cases ending with
  | completed all quiet =>
      exact .completed (by simp [all])
        (List.forall_mem_cons.mpr ⟨goesOn, quiet⟩)
  | @stopped earlier _ _ _ quiet stops =>
      have position : index + 1 + earlier.length = index + (call :: earlier).length := by
        simp only [List.length_cons]
        omega
      rw [position]
      exact .stopped (List.forall_mem_cons.mpr ⟨goesOn, quiet⟩) stops
  | barred quiet next refused =>
      have position : index + 1 + calls.length = index + (call :: calls).length := by
        simp only [List.length_cons]
        omega
      rw [position]
      exact .barred (List.forall_mem_cons.mpr ⟨goesOn, quiet⟩) (by simpa using next) refused

/-- A call that gives a reason to stop is the last one. -/
theorem stops_at
    (ending : pipeline.Ending 0 steps calls last termination)
    (isCall : calls[index]? = some call)
    {reason : AbortReason}
    (stops : pipeline.reason? call = some reason) :
    calls.length = index + 1 ∧
      termination = .aborted index (some call.step.id) reason := by
  have member : call ∈ calls := List.mem_of_getElem? isCall
  cases ending with
  | completed _ quiet | barred quiet _ _ =>
      rw [quiet call member] at stops
      contradiction
  | @stopped earlier other _ given quiet stopped =>
      obtain ⟨bound, found⟩ := List.getElem?_eq_some_iff.mp isCall
      rcases Nat.lt_or_ge index earlier.length with early | late
      · rw [List.getElem_append_left early] at found
        rw [← found, quiet _ (List.getElem_mem early)] at stops
        contradiction
      · obtain rfl : index = earlier.length := by
          simp only [List.length_append, List.length_singleton] at bound
          omega
        obtain rfl : other = call := by simpa using found
        obtain rfl : given = reason := Option.some.inj (stopped.symm.trans stops)
        simp

/-- A run does not stop at a call that gives no reason to. -/
theorem goes_on_at
    (ending : pipeline.Ending 0 steps calls last termination)
    (isCall : calls[index]? = some call)
    (goesOn : pipeline.reason? call = none)
    (id : Option String)
    (reason : AbortReason) :
    termination ≠ .aborted index id reason := by
  cases ending with
  | completed _ _ =>
      simp
  | @stopped earlier other _ given _ stopped =>
      intro same
      obtain rfl : earlier.length = index := by simpa using (Termination.aborted.inj same).1
      obtain rfl : other = call := by simpa using isCall
      rw [goesOn] at stopped
      contradiction
  | barred _ _ _ =>
      intro same
      obtain rfl : calls.length = index := by simpa using (Termination.aborted.inj same).1
      simp at isCall

/-- A run is stopped by its last call exactly if that gives a reason to stop. -/
theorem stopped_iff
    (ending : pipeline.Ending 0 steps calls last termination)
    (isLast : calls.getLast? = some call)
    (reason : AbortReason) :
    termination = .aborted (calls.length - 1) (some call.step.id) reason ↔
      pipeline.reason? call = some reason := by
  have isCall : calls[calls.length - 1]? = some call := by
    rwa [List.getLast?_eq_getElem?] at isLast
  constructor
  · intro stopped
    cases stops : pipeline.reason? call with
    | none =>
        exact absurd stopped (ending.goes_on_at isCall stops _ _)
    | some other =>
        rw [(ending.stops_at isCall stops).2] at stopped
        exact congrArg some (Termination.aborted.inj stopped).2.2
  · exact fun stops => (ending.stops_at isCall stops).2

/-- Only the last call gives a reason to stop. -/
theorem dropLast_reason?
    (ending : pipeline.Ending 0 steps calls last termination) :
    ∀ call ∈ calls.dropLast, pipeline.reason? call = none := by
  intro call member
  cases ending with
  | completed _ quiet =>
      exact quiet call (List.dropLast_subset calls member)
  | stopped quiet _ =>
      rw [List.dropLast_concat] at member
      exact quiet call member
  | barred quiet _ _ =>
      exact quiet call (List.dropLast_subset calls member)

theorem not_forall_reason?
    {earlier : List (Call σ)}
    {reason : AbortReason}
    (stops : pipeline.reason? call = some reason) :
    ¬ ∀ other ∈ earlier ++ [call], pipeline.reason? other = none := by
  intro quiet
  rw [quiet call (by simp)] at stops
  contradiction

/-- A run is completed exactly if there was a call for every step and none gives a reason to stop.
-/
theorem completed_iff
    (ending : pipeline.Ending 0 steps calls last termination) :
    termination = .completed ↔
      calls.length = steps.length ∧ ∀ call ∈ calls, pipeline.reason? call = none := by
  cases ending with
  | completed all quiet =>
      exact ⟨fun _ => ⟨all, quiet⟩, fun _ => rfl⟩
  | stopped _ stops =>
      exact ⟨nofun, fun shape => absurd shape.2 (not_forall_reason? stops)⟩
  | barred _ next _ =>
      refine ⟨nofun, fun shape => ?_⟩
      rw [shape.1, List.getElem?_eq_none (Nat.le_refl _)] at next
      contradiction

/-- A run meets a closed workspace exactly if no call gives a reason to stop and the workspace of
the next step cannot be entered. -/
theorem barred_iff
    (ending : pipeline.Ending 0 steps calls last termination)
    (id : Option String)
    (message : String) :
    termination = .aborted calls.length id (.workspaceUnavailable message) ↔
      (∀ call ∈ calls, pipeline.reason? call = none) ∧
        ∃ step why,
          steps[calls.length]? = some step ∧
            id = some step.id ∧
            last.enter pipeline.project step.workspace = .error why ∧
            message = why.text := by
  cases ending with
  | completed all quiet =>
      simp [all]
  | stopped _ stops =>
      constructor
      · simp
      · intro shape
        exact absurd shape.1 (not_forall_reason? stops)
  | @barred _ _ step why quiet next refused =>
      constructor
      · intro shape
        simp only [Termination.aborted.injEq, AbortReason.workspaceUnavailable.injEq] at shape
        exact ⟨quiet, step, why, next, shape.2.1.symm, refused, shape.2.2.symm⟩
      · rintro ⟨_, other, cause, found, rfl, closed, rfl⟩
        obtain rfl : step = other := by simpa [next] using found
        obtain rfl : why = cause := by simpa [refused] using closed
        simp

/-- A run that is cut short without a reason from its last call has met a closed workspace. -/
theorem barred_of_short
    (ending : pipeline.Ending 0 steps calls last termination)
    (quiet : ∀ call ∈ calls, pipeline.reason? call = none)
    (short : calls.length < steps.length) :
    ∃ id message,
      termination = .aborted calls.length id (.workspaceUnavailable message) := by
  cases ending with
  | completed all _ =>
      omega
  | stopped _ stops =>
      exact absurd quiet (not_forall_reason? stops)
  | @barred _ _ step why _ _ _ =>
      exact ⟨some step.id, why.text, by simp⟩

end Ending

/-- The call that the pipeline makes for a step when its workspace has been entered. -/
def callFor (pipeline : Pipeline σ) (step : Step) (state : σ) (entered : Host) : Call σ where
  step := step
  given := state
  entered := entered
  status := (pipeline.runner.run step state entered).1.1
  after := (pipeline.runner.run step state entered).1.2
  left := (pipeline.runner.run step state entered).2

/-- A workspace that has been entered is called in. -/
theorem makes_callFor
    (pipeline : Pipeline σ)
    {host entered : Host}
    {step : Step}
    (accepted : host.enter pipeline.project step.workspace = .ok entered)
    (state : σ) :
    pipeline.Makes host (pipeline.callFor step state entered) :=
  ⟨accepted, rfl⟩

/-- Steps that begin with a workspace that cannot be entered. -/
theorem runSteps_of_enter_error
    (pipeline : Pipeline σ)
    {host : Host}
    {step : Step}
    {why : WorkspaceError}
    (refused : host.enter pipeline.project step.workspace = .error why)
    (index : Nat)
    (rest : List Step)
    (state : σ) :
    pipeline.runSteps index (step :: rest) state host =
      { records := []
        termination := .aborted index (some step.id) (.workspaceUnavailable why.text)
        occurrences := [
          ⟨host.clock, .stepStarted index step (step.renderCommands pipeline.runner.program)⟩,
          ⟨host.clock, .workspaceUnavailable index step why.text⟩]
        state := state
        host := host } := by
  have outcome := Host.within_of_enter_error refused (pipeline.runner.run step state)
  unfold runSteps
  rw [outcome]

/-- Steps that begin with a call. -/
theorem runSteps_of_makes
    {pipeline : Pipeline σ}
    {host : Host}
    {call : Call σ}
    (makes : pipeline.Makes host call)
    (index : Nat)
    (rest : List Step) :
    pipeline.runSteps index (call.step :: rest) call.given host =
      match pipeline.reason? call with
      | some reason =>
        { records := [call.record pipeline.runner.program index]
          termination := .aborted index (some call.step.id) reason
          occurrences := call.occurrences pipeline.runner.program index
          state := call.after
          host := call.left.leave.1 }
      | none =>
        let later := pipeline.runSteps (index + 1) rest call.after call.left.leave.1
        { records := call.record pipeline.runner.program index :: later.records
          termination := later.termination
          occurrences := call.occurrences pipeline.runner.program index ++ later.occurrences
          state := later.state
          host := later.host } := by
  have outcome := Host.within_of_enter_ok makes.entered makes.returned
  have sameStart := (Host.enter_frame makes.entered).2
  have sameEnd := call.left.leave_frame.2
  conv => lhs; unfold runSteps
  cases stops : abortReason? pipeline.interruptPolicy call.step.policy call.status with
  | some reason =>
      simp only [outcome, reason?, stops, Call.record, Call.occurrences, sameStart, sameEnd]
  | none =>
      simp only [outcome, reason?, stops, Call.record, Call.occurrences, sameStart, sameEnd]

/-- The execution of steps by its cases: there is no step, the workspace of the first one cannot be
entered, its call gives a reason to stop, or the execution goes on after its call. -/
theorem runSteps_induction
    (pipeline : Pipeline σ)
    {motive : Nat → List Step → Host → Passage σ → Prop}
    (nil : ∀ index state host, motive index [] host ⟨[], .completed, [], state, host⟩)
    (barred :
      ∀ index step rest state host why,
        host.enter pipeline.project step.workspace = .error why →
          motive index (step :: rest) host
            { records := []
              termination := .aborted index (some step.id) (.workspaceUnavailable why.text)
              occurrences := [
                ⟨host.clock,
                  .stepStarted index step (step.renderCommands pipeline.runner.program)⟩,
                ⟨host.clock, .workspaceUnavailable index step why.text⟩]
              state := state
              host := host })
    (stopped :
      ∀ index rest host call reason,
        pipeline.Makes host call →
          pipeline.reason? call = some reason →
            motive index (call.step :: rest) host
              { records := [call.record pipeline.runner.program index]
                termination := .aborted index (some call.step.id) reason
                occurrences := call.occurrences pipeline.runner.program index
                state := call.after
                host := call.left.leave.1 })
    (goesOn :
      ∀ index rest host call (later : Passage σ),
        pipeline.Makes host call →
          motive (index + 1) rest call.left.leave.1 later →
            motive index (call.step :: rest) host
              { records := call.record pipeline.runner.program index :: later.records
                termination := later.termination
                occurrences :=
                  call.occurrences pipeline.runner.program index ++ later.occurrences
                state := later.state
                host := later.host })
    (index : Nat)
    (steps : List Step)
    (state : σ)
    (host : Host) :
    motive index steps host (pipeline.runSteps index steps state host) := by
  induction steps generalizing index state host with
  | nil =>
      exact nil index state host
  | cons step rest inductionHypothesis =>
      cases entering : host.enter pipeline.project step.workspace with
      | error why =>
          rw [pipeline.runSteps_of_enter_error entering]
          exact barred index step rest state host why entering
      | ok entered =>
          let call := pipeline.callFor step state entered
          have makes : pipeline.Makes host call := pipeline.makes_callFor entering state
          have unfolded := runSteps_of_makes makes index rest
          change pipeline.runSteps index (step :: rest) state host = _ at unfolded
          rw [unfolded]
          cases stops : pipeline.reason? call with
          | some reason =>
              exact stopped index rest host call reason makes stops
          | none =>
              exact goesOn index rest host call _ makes
                (inductionHypothesis (index + 1) call.after call.left.leave.1)

/-- What happens when steps are skipped. -/
theorem exists_of_mem_skipSteps
    {clock : Instant}
    {index : Nat}
    {steps : List Step}
    {occurrence : Occurrence}
    (member : occurrence ∈ skipSteps clock index steps) :
    ∃ offset step,
      steps[offset]? = some step ∧ occurrence = ⟨clock, .stepSkipped (index + offset) step⟩ := by
  induction steps generalizing index with
  | nil =>
      exact absurd member List.not_mem_nil
  | cons step rest inductionHypothesis =>
      rcases List.mem_cons.mp member with rfl | later
      · exact ⟨0, step, rfl, rfl⟩
      · obtain ⟨offset, other, isStep, rfl⟩ := inductionHypothesis later
        exact ⟨offset + 1, other, isStep, by rw [Nat.add_assoc, Nat.add_comm 1]⟩

/-- Without a workspace for its first step, an execution comes down to no call. -/
theorem passes_of_enter_error
    (pipeline : Pipeline σ)
    {host : Host}
    {step : Step}
    {why : WorkspaceError}
    (refused : host.enter pipeline.project step.workspace = .error why)
    (index : Nat)
    (rest : List Step)
    (state : σ) :
    pipeline.Passes index (step :: rest) state host []
      (pipeline.runSteps index (step :: rest) state host) := by
  rw [pipeline.runSteps_of_enter_error refused]
  exact ⟨rfl, .nil, rfl, .barred (by simp) rfl refused, rfl⟩

/-- An execution that stops after its first call comes down to it. -/
theorem passes_of_stops
    {pipeline : Pipeline σ}
    {host : Host}
    {call : Call σ}
    (makes : pipeline.Makes host call)
    {reason : AbortReason}
    (stops : pipeline.reason? call = some reason)
    (index : Nat)
    (rest : List Step) :
    pipeline.Passes index (call.step :: rest) call.given host [call]
      (pipeline.runSteps index (call.step :: rest) call.given host) := by
  have unfolded := runSteps_of_makes makes index rest
  simp only [stops] at unfolded
  have ending :
      pipeline.Ending index (call.step :: rest) ([] ++ [call]) call.left.leave.1
        (.aborted (index + 0) (some call.step.id) reason) :=
    .stopped (by simp) stops
  rw [unfolded]
  refine ⟨rfl, .cons makes .nil, rfl, ending, ?_⟩
  rw [call.warning?_occurrences, List.filterMap_cons]
  cases call.warning? <;> rfl

/-- An execution that goes on after its first call comes down to it and the calls for the rest. -/
theorem passes_of_goesOn
    {pipeline : Pipeline σ}
    {host : Host}
    {call : Call σ}
    (makes : pipeline.Makes host call)
    (goesOn : pipeline.reason? call = none)
    {index : Nat}
    {rest : List Step}
    {calls : List (Call σ)}
    (later :
      pipeline.Passes (index + 1) rest call.after call.left.leave.1 calls
        (pipeline.runSteps (index + 1) rest call.after call.left.leave.1)) :
    pipeline.Passes index (call.step :: rest) call.given host (call :: calls)
      (pipeline.runSteps index (call.step :: rest) call.given host) := by
  have unfolded := runSteps_of_makes makes index rest
  simp only [goesOn] at unfolded
  rw [unfolded]
  exact {
    called := congrArg (call.step :: ·) later.called
    chain := .cons makes later.chain
    records := by
      simp [later.records, List.mapIdx_cons, Nat.add_assoc, Nat.add_comm 1]
    ending := later.ending.cons goesOn call.step
    warnings := by
      rw [List.filterMap_append, later.warnings, call.warning?_occurrences, List.filterMap_cons]
      cases call.warning? <;> rfl
  }

/-- Executing steps comes down to a chain of calls. -/
theorem passes_runSteps
    (pipeline : Pipeline σ)
    (index : Nat)
    (steps : List Step)
    (state : σ)
    (host : Host) :
    ∃ calls,
      pipeline.Passes index steps state host calls
        (pipeline.runSteps index steps state host) := by
  induction steps generalizing index state host with
  | nil =>
      exact ⟨[], rfl, .nil, rfl, .completed rfl (by simp), rfl⟩
  | cons step rest inductionHypothesis =>
      cases entering : host.enter pipeline.project step.workspace with
      | error why =>
          exact ⟨[], pipeline.passes_of_enter_error entering index rest state⟩
      | ok entered =>
          let call := pipeline.callFor step state entered
          have makes : pipeline.Makes host call := pipeline.makes_callFor entering state
          cases stops : pipeline.reason? call with
          | some reason =>
              exact ⟨[call], passes_of_stops makes stops index rest⟩
          | none =>
              obtain ⟨calls, later⟩ :=
                inductionHypothesis (index + 1) call.after call.left.leave.1
              exact ⟨call :: calls, passes_of_goesOn makes stops later⟩

namespace Passes

variable
  {pipeline : Pipeline σ}
  {steps : List Step}
  {state : σ}
  {host : Host}
  {calls : List (Call σ)}
  {passage : Passage σ}

/-- There are as many records as calls. -/
theorem length_records
    (passes : pipeline.Passes 0 steps state host calls passage) :
    passage.records.length = calls.length := by
  simp [passes.records]

/-- There are no more calls than steps. -/
theorem length_calls_le
    (passes : pipeline.Passes 0 steps state host calls passage) :
    calls.length ≤ steps.length := by
  have sameLength := congrArg List.length passes.called
  rw [List.length_map, List.length_take] at sameLength
  omega

/-- Every call is for the step at its position. -/
theorem step_of_call
    (passes : pipeline.Passes 0 steps state host calls passage)
    {index : Nat}
    {call : Call σ}
    (isCall : calls[index]? = some call) :
    steps[index]? = some call.step := by
  have bound : index < calls.length := (List.getElem?_eq_some_iff.mp isCall).1
  have same : (calls.map Call.step)[index]? = (steps.take calls.length)[index]? := by
    rw [passes.called]
  rw [List.getElem?_map, isCall, List.getElem?_take_of_lt bound] at same
  exact same.symm

/-- Every call is recorded at its position. -/
theorem record_of_call
    (passes : pipeline.Passes 0 steps state host calls passage)
    {index : Nat}
    {call : Call σ}
    (isCall : calls[index]? = some call) :
    passage.records[index]? = some (call.record pipeline.runner.program index) := by
  simp [passes.records, List.getElem?_mapIdx, isCall]

/-- Every record is that of the call at its position. -/
theorem call_of_record
    (passes : pipeline.Passes 0 steps state host calls passage)
    {index : Nat}
    {record : StepRecord}
    (isRecord : passage.records[index]? = some record) :
    ∃ call,
      calls[index]? = some call ∧ record = call.record pipeline.runner.program index := by
  rw [passes.records] at isRecord
  simp only [List.getElem?_mapIdx, Nat.zero_add, Option.map_eq_some_iff] at isRecord
  obtain ⟨call, isCall, rfl⟩ := isRecord
  exact ⟨call, isCall, rfl⟩

/-- Further calls add further records. -/
theorem records_prefix
    (passes : pipeline.Passes index steps state host calls passage)
    {other : Pipeline σ}
    {more : List (Call σ)}
    {longer : Passage σ}
    (others : other.Passes index steps state host (calls ++ more) longer)
    (sameProgram : other.runner.program = pipeline.runner.program) :
    passage.records <+: longer.records := by
  rw [passes.records, others.records, List.mapIdx_append, sameProgram]
  exact List.prefix_append _ _

end Passes

/-- With a free slot the plan is executed. -/
theorem execute_of_free
    {host : Host}
    (free : host.held? = none)
    (pipeline : Pipeline σ)
    (plan : Plan)
    (state : σ) :
    pipeline.execute plan state host = pipeline.executeFree plan state host := by
  simp only [execute, free]

/-- A workspace that is held has the run refused. -/
theorem execute_of_held
    {host : Host}
    {held : HeldWorkspace}
    (holder : host.held? = some held)
    (pipeline : Pipeline σ)
    (plan : Plan)
    (state : σ) :
    pipeline.execute plan state host = refuse plan held.name state host := by
  simp only [execute, holder]

end Pipeline

end VerifyPipeline
