import VerifyPipeline.Proofs.Run.Attempts
import VerifyPipeline.Proofs.Run.Verdict

namespace VerifyPipeline

/-!
# Successful runs

A run succeeds exactly if it is flawless: every command of every step of the plan has been started
in the step's workspace, every child has ended with the status word zero, and no signal has arrived
before a step or while a child was running.
-/

/-- What the commands of a step pass to the program. -/
def Step.arguments (step : Step) : List (List String) := step.commands.map ToolCommand.args

namespace ProcessRunner

/-- A part of the attempts of a run starts every command of the step at its position, in the step's
workspace as it is found by then. -/
structure LaunchesAt
    (runner : ProcessRunner)
    (project : Project)
    (host : Host)
    (parts : List (List Attempt))
    (index : Nat)
    (step : Step)
    (directory : Location)
    (part : List Attempt) : Prop where
  found :
    project.directoryOf step.workspace
        { host with tree := runner.treeAt {} host.tree parts index } =
      .ok directory
  arguments : part.map Attempt.arguments = step.arguments
  started : ∀ attempt ∈ part, attempt.started = true
  /-- The programs of one step may move its workspace. -/
  madeIn :
    ∀ before attempt after,
      part = before ++ attempt :: after →
        let scene : Scene := ⟨runner.treeAt {} host.tree parts index, .ofLocation directory⟩
        runner.MadeIn (runner.sceneAfterAll (parts.take index).flatten scene before).here attempt

/-- The attempts of a run come in parts, each of which starts every command of one step. -/
structure Launches
    (runner : ProcessRunner)
    (project : Project)
    (plan : Plan)
    (host : Host)
    (final : ProcessState)
    (parts : List (List Attempt)) : Prop where
  attempts : final.attempts.reverse = parts.flatten
  each : parts.length = plan.steps.length
  launched :
    ∀ index step part,
      plan.steps[index]? = some step →
        parts[index]? = some part →
          ∃ directory, runner.LaunchesAt project host parts index step directory part

/-- What makes a run flawless that has left the runner with a state. -/
structure Flawless
    (runner : ProcessRunner)
    (project : Project)
    (plan : Plan)
    (host : Host)
    (final : ProcessState) : Prop where
  /-- Every command of every step has been started in the step's workspace, and nothing else. -/
  launched : ∃ parts, runner.Launches project plan host final parts
  ended : ∀ number < final.started, (runner.children number).ending = 0
  /-- No signal has arrived while a child was running. -/
  quiet : ∀ number < final.started, (runner.children number).raises = []
  /-- No signal has arrived before a step. -/
  calm : ∀ index < plan.size, runner.interim index = []

variable
  {runner : ProcessRunner}
  {project : Project}
  {interruptPolicy : InterruptPolicy}
  {plan : Plan}
  {host : Host}
  {calls : List (Call ProcessState)}
  {parts : List (List Attempt)}

/-- What has been passed to programs for steps that have started all their commands. -/
theorem arguments_flatten
    {steps : List Step}
    (each : parts.length = steps.length)
    (launched :
      ∀ (index : Nat) (step : Step) part,
        steps[index]? = some step →
          parts[index]? = some part → part.map Attempt.arguments = step.arguments) :
    parts.flatten.map Attempt.arguments = steps.flatMap Step.arguments := by
  rw [List.map_flatten, List.flatMap_def]
  congr 1
  refine List.ext_getElem (by simpa using each) fun index bound otherBound => ?_
  rw [List.getElem_map, List.getElem_map]
  exact launched index _ _ (by simp) (by simp)

/-- The attempts of a call that has passed. -/
theorem Unfolds.launchesAt_of_passed
    (unfolds : runner.Unfolds project interruptPolicy plan {} host calls parts)
    (passed : ∀ call ∈ calls, call.status = .passed)
    {index : Nat}
    {step : Step}
    {part : List Attempt}
    (bound : index < calls.length)
    (isStep : plan.steps[index]? = some step)
    (isPart : parts[index]? = some part) :
    ∃ directory, runner.LaunchesAt project host parts index step directory part := by
  have isCall : calls[index]? = some calls[index] := List.getElem?_eq_getElem bound
  obtain ⟨directory, accounts, found, _⟩ := unfolds.divides.accounted index _ part isCall isPart
  obtain rfl : calls[index].step = step :=
    Option.some.inj ((unfolds.passes.step_of_call isCall).symm.trans isStep)
  rw [passed calls[index] (List.getElem_mem bound)] at accounts
  obtain ⟨arguments, started⟩ := accounts.launched_of_passed
  exact ⟨directory, found, arguments, started, accounts.madeIn⟩

/-- Every child of a run whose calls all passed has ended well and undisturbed. -/
theorem Unfolds.child_of_passed
    {state : ProcessState}
    (unfolds : runner.Unfolds project interruptPolicy plan state host calls parts)
    (hears : runner.listens = true)
    (passed : ∀ call ∈ calls, call.status = .passed)
    {number : Nat}
    (later : state.started ≤ number)
    (ran :
      number <
        ((runner.pipeline project interruptPolicy).executeFree plan state host).state.started) :
    (runner.children number).ending = 0 ∧ (runner.children number).raises = [] := by
  obtain ⟨index, before, attempt, after, call, _, starts, isCall, accounts⟩ :=
    unfolds.divides.exists_starts later ran
  have tries := accounts.toTries
  rw [passed call (List.mem_of_getElem? isCall)] at tries
  have succeeds := tries.succeeds_of_passed rfl
  have exited := succeeds.exited
  have quiet := succeeds.raises_eq_nil hears
  rw [starts.nextChild_eq] at exited quiet
  exact ⟨exited, quiet⟩

/-- A run that succeeds is flawless. -/
theorem Unfolds.flawless_of_passed
    (unfolds : runner.Unfolds project interruptPolicy plan {} host calls parts)
    (hears : runner.listens = true)
    (all : calls.length = plan.steps.length)
    (passed : ∀ call ∈ calls, call.status = .passed) :
    runner.Flawless project plan host
      ((runner.pipeline project interruptPolicy).executeFree plan {} host).state := by
  have divides := unfolds.divides
  refine {
    launched := ⟨parts, divides.attempts, divides.each.trans all, ?_⟩
    ended := fun number ran =>
      (unfolds.child_of_passed hears passed (Nat.zero_le number) ran).1
    quiet := fun number ran =>
      (unfolds.child_of_passed hears passed (Nat.zero_le number) ran).2
    calm := ?_
  }
  · intro index step part isStep isPart
    have bound : index < calls.length := all ▸ (List.getElem?_eq_some_iff.mp isStep).1
    exact unfolds.launchesAt_of_passed passed bound isStep isPart
  · intro index bound
    have callBound : index < calls.length := all ▸ bound
    obtain ⟨_, _, _, accounts, _⟩ := divides.accounts_at callBound
    cases waits : runner.waitingAt? {} index with
    | some signal =>
        have interrupted := accounts.heeded signal waits
        rw [passed calls[index] (List.getElem_mem callBound)] at interrupted
        contradiction
    | none =>
        simpa [waitingAt?, hears] using waits

/-- The calls of a flawless run have passed. -/
theorem Unfolds.each_passed_of_flawless
    (unfolds : runner.Unfolds project interruptPolicy plan {} host calls parts)
    (flawless :
      runner.Flawless project plan host
        ((runner.pipeline project interruptPolicy).executeFree plan {} host).state) :
    ∀ call ∈ calls, call.status = .passed := by
  intro call member
  have divides := unfolds.divides
  obtain ⟨others, launches⟩ := flawless.launched
  obtain ⟨index, bound, rfl⟩ := List.mem_iff_getElem.mp member
  obtain ⟨part, _, isPart, accounts, _⟩ := divides.accounts_at bound
  have nothingWaits : runner.waitingAt? {} index = none := by
    have arrived := flawless.calm index (Nat.lt_of_lt_of_le bound unfolds.passes.length_calls_le)
    simp [waitingAt?, arrived]
  rcases List.eq_nil_or_concat part with rfl | ⟨before, attempt, rfl⟩
  · exact absurd nothingWaits (accounts.idleIff.mp rfl)
  · rw [List.concat_eq_append] at isPart accounts
    have started : attempt.started = true := by
      have inRun : attempt ∈ parts.flatten :=
        List.mem_flatten_of_mem (List.mem_of_getElem? isPart) (by simp)
      have sameAttempts : parts.flatten = others.flatten :=
        divides.attempts.symm.trans launches.attempts
      rw [sameAttempts] at inRun
      obtain ⟨other, isOther, inOther⟩ := List.mem_flatten.mp inRun
      obtain ⟨position, otherBound, rfl⟩ := List.mem_iff_getElem.mp isOther
      have stepBound : position < plan.steps.length := launches.each ▸ otherBound
      obtain ⟨_, launched⟩ := launches.launched position _ _
        (List.getElem?_eq_getElem stepBound) (List.getElem?_eq_getElem otherBound)
      exact launched.started attempt inOther
    have starts : Starts {} parts _ index before attempt [] := ⟨isPart, started, rfl⟩
    have ran := starts.lt_started divides.attempts
    have succeeds := succeeds_of_child started (flawless.ended _ ran) (flawless.quiet _ ran)
    have outcome := (accounts.succeedsIff before attempt [] rfl).mp succeeds
    simpa using outcome

/-- A flawless run has called for every step and every call has passed.  A step without a call would
have started something, too. -/
theorem Unfolds.passed_of_flawless
    (unfolds : runner.Unfolds project interruptPolicy plan {} host calls parts)
    (flawless :
      runner.Flawless project plan host
        ((runner.pipeline project interruptPolicy).executeFree plan {} host).state) :
    calls.length = plan.steps.length ∧ ∀ call ∈ calls, call.status = .passed := by
  have divides := unfolds.divides
  have atMost := unfolds.passes.length_calls_le
  have passed := unfolds.each_passed_of_flawless flawless
  obtain ⟨others, launches⟩ := flawless.launched
  have asPlanned : others.flatten.map Attempt.arguments = plan.steps.flatMap Step.arguments := by
    refine arguments_flatten launches.each fun index step part isStep isPart => ?_
    obtain ⟨_, launched⟩ := launches.launched index step part isStep isPart
    exact launched.arguments
  have asCalled :
      parts.flatten.map Attempt.arguments =
        (plan.steps.take calls.length).flatMap Step.arguments := by
    have asMany : parts.length = (plan.steps.take calls.length).length := by
      simp [divides.each, atMost]
    refine arguments_flatten asMany fun index step part isStep isPart => ?_
    have bound : index < calls.length :=
      divides.each ▸ (List.getElem?_eq_some_iff.mp isPart).1
    rw [List.getElem?_take_of_lt bound] at isStep
    obtain ⟨_, launched⟩ := unfolds.launchesAt_of_passed passed bound isStep isPart
    exact launched.arguments
  have noRest : (plan.steps.drop calls.length).flatMap Step.arguments = [] := by
    have sameAttempts : others.flatten = parts.flatten :=
      launches.attempts.symm.trans divides.attempts
    have whole := asPlanned.symm.trans ((congrArg _ sameAttempts).trans asCalled)
    conv at whole => lhs; rw [← List.take_append_drop calls.length plan.steps]
    rw [List.flatMap_append] at whole
    exact List.append_right_eq_self.mp whole
  have noStep : plan.steps.drop calls.length = [] := by
    refine List.eq_nil_iff_forall_not_mem.mpr fun step member => ?_
    have nothing := List.flatMap_eq_nil_iff.mp noRest step member
    exact step.commands_ne_nil (List.map_eq_nil_iff.mp nothing)
  exact ⟨Nat.le_antisymm atMost (List.drop_eq_nil_iff.mp noStep), passed⟩

/-- A run that begins afresh succeeds exactly if it is flawless. -/
theorem execute_succeeded_iff
    (hears : runner.listens = true)
    (project : Project)
    (interruptPolicy : InterruptPolicy)
    {plan : Plan}
    (nonempty : plan.steps ≠ [])
    (host : Host) :
    let execution := (runner.pipeline project interruptPolicy).execute plan {} host
    execution.result.succeeded = true ↔ runner.Flawless project plan host execution.state := by
  intro execution
  cases holder : host.held? with
  | some held =>
      have refused : execution = Pipeline.refuse plan held.name {} host :=
        Pipeline.execute_of_held holder _ plan _
      rw [refused]
      constructor
      · intro passed
        contradiction
      · intro flawless
        obtain ⟨parts, launches⟩ := flawless.launched
        have asPlanned : parts.flatten.map Attempt.arguments = plan.steps.flatMap Step.arguments :=
          arguments_flatten launches.each fun index step part isStep isPart =>
            (launches.launched index step part isStep isPart).elim fun _ => (·.arguments)
        rw [← launches.attempts] at asPlanned
        obtain ⟨step, member⟩ := List.exists_mem_of_ne_nil _ nonempty
        have nothing := List.flatMap_eq_nil_iff.mp asPlanned.symm step member
        exact absurd (List.map_eq_nil_iff.mp nothing) step.commands_ne_nil
  | none =>
      obtain ⟨calls, parts, unfolds⟩ :=
        runner.exists_unfolds project interruptPolicy plan {} holder
      have executed :
          execution = (runner.pipeline project interruptPolicy).executeFree plan {} host :=
        Pipeline.execute_of_free holder _ plan _
      rw [executed, unfolds.passes.succeeded_iff]
      constructor
      · rintro ⟨all, passed⟩
        exact unfolds.flawless_of_passed hears all passed
      · exact unfolds.passed_of_flawless

end ProcessRunner

end VerifyPipeline
