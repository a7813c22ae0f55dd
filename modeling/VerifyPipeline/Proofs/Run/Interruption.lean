import VerifyPipeline.Plan.Build
import VerifyPipeline.Proofs.Run.Attempts
import VerifyPipeline.Proofs.Run.Verdict

namespace VerifyPipeline

/-!
# Interrupted runs

A signal that arrives while a child runs is noticed when the child has ended, before anything else
is started.  So the child is the last one of its step, whose record tells the interruption, and the
run ends there if the interrupt policy or the step says so.  Both interrupt policies agree on a run
up to its first interruption.
-/

namespace Pipeline

variable
  {runner : Runner σ}
  {project : Project}

/-- A call after which the policy `abort` goes on is one after which `followStep` goes on. -/
theorem reason?_followStep_of_abort
    {call : Call σ}
    (goesOn : Pipeline.reason? ⟨runner, project, .abort⟩ call = none) :
    Pipeline.reason? ⟨runner, project, .followStep⟩ call = none := by
  unfold reason? abortReason? at goesOn ⊢
  cases status : call.status <;> simp_all

/-- Whether an interrupted call ends its run depends on the two policies. -/
theorem reason?_of_interrupted
    {pipeline : Pipeline σ}
    {call : Call σ}
    {signal : Int32}
    (interrupted : call.status = .interrupted signal) :
    pipeline.reason? call =
      if pipeline.interruptPolicy = .abort ∨ call.step.policy.aborts = true then
        some (.interrupted signal)
      else none := by
  simp [reason?, abortReason?, interrupted]

/-- What a pipeline does up to its first reason to stop under the policy `abort`, it does under
`followStep`, too. -/
theorem passes_of_both_policies
    (runner : Runner σ)
    (project : Project)
    (index : Nat)
    (steps : List Step)
    (state : σ)
    (host : Host) :
    let strict : Pipeline σ := ⟨runner, project, .abort⟩
    let lenient : Pipeline σ := ⟨runner, project, .followStep⟩
    ∃ calls more,
      strict.Passes index steps state host calls (strict.runSteps index steps state host) ∧
        lenient.Passes index steps state host (calls ++ more)
          (lenient.runSteps index steps state host) := by
  intro strict lenient
  induction steps generalizing index state host with
  | nil =>
      refine ⟨[], [], ⟨rfl, .nil, rfl, .completed rfl (by simp), rfl⟩,
        ⟨rfl, .nil, rfl, .completed rfl (by simp), rfl⟩⟩
  | cons step rest inductionHypothesis =>
      cases entering : host.enter project step.workspace with
      | error why =>
          exact ⟨[], [], strict.passes_of_enter_error entering index rest state,
            lenient.passes_of_enter_error entering index rest state⟩
      | ok entered =>
          let call := strict.callFor step state entered
          have made : strict.Makes host call := strict.makes_callFor entering state
          have madeToo : lenient.Makes host call := lenient.makes_callFor entering state
          cases stops : strict.reason? call with
          | some reason =>
              have stopped := passes_of_stops made stops index rest
              cases goesOn : lenient.reason? call with
              | some _ =>
                  exact ⟨[call], [], stopped, passes_of_stops madeToo goesOn index rest⟩
              | none =>
                  obtain ⟨more, later⟩ :=
                    lenient.passes_runSteps (index + 1) rest call.after call.left.leave.1
                  exact ⟨[call], more, stopped, passes_of_goesOn madeToo goesOn later⟩
          | none =>
              have goesOn : lenient.reason? call = none := reason?_followStep_of_abort stops
              obtain ⟨calls, more, strictLater, lenientLater⟩ :=
                inductionHypothesis (index + 1) call.after call.left.leave.1
              exact ⟨call :: calls, more, passes_of_goesOn made stops strictLater,
                passes_of_goesOn madeToo goesOn lenientLater⟩

end Pipeline

/-- An interruption of a run: the step, its record, the signal that the record tells, and the last
attempt of the step with those before it. -/
structure Interruption where
  index : Nat
  step : Step
  record : StepRecord
  signal : Int32
  before : List Attempt
  attempt : Attempt

namespace Interruption

/-- An interruption answers the signals that arrived while the child with a number ran. -/
structure Answers
    (interruption : Interruption)
    (runner : ProcessRunner)
    (plan : Plan)
    (state : ProcessState)
    (execution : Execution ProcessState)
    (parts : List (List Attempt))
    (number : Nat) : Prop where
  isStep : plan.steps[interruption.index]? = some interruption.step
  isRecord : execution.result.records[interruption.index]? = some interruption.record
  status : interruption.record.status = .interrupted interruption.signal
  /-- The child's own interruption is told if there is one, and the last signal otherwise. -/
  told :
    classify (runner.children number).ending = .interrupted interruption.signal ∨
      (classify (runner.children number).ending).isInterrupted = false ∧
        (runner.children number).raises.getLast? = some interruption.signal
  /-- The step attempts nothing after the child. -/
  startedLast :
    ProcessRunner.Starts state parts number interruption.index interruption.before
      interruption.attempt []

/-- A run ends with an interruption of the child with a number. -/
structure Ends
    (interruption : Interruption)
    (execution : Execution ProcessState)
    (number : Nat) : Prop where
  termination :
    execution.result.termination =
      .aborted interruption.index (some interruption.step.id)
        (.interrupted interruption.signal)
  lastRecord : execution.result.records.length = interruption.index + 1
  lastAttempt : execution.state.attempts.head? = some interruption.attempt
  lastChild : execution.state.started = number + 1
  /-- No signal is left. -/
  calm : execution.state.pending? = none
  exitCode : execution.result.exitCode = 1

theorem Answers.extend
    {interruption : Interruption}
    {runner : ProcessRunner}
    {plan : Plan}
    {state : ProcessState}
    {execution longer : Execution ProcessState}
    {parts : List (List Attempt)}
    {number : Nat}
    (answers : interruption.Answers runner plan state execution parts number)
    (goesOn : execution.result.records <+: longer.result.records)
    (others : List (List Attempt)) :
    interruption.Answers runner plan state longer (parts ++ others) number where
  isStep := answers.isStep
  isRecord := by
    obtain ⟨more, shape⟩ := goesOn
    have bound := (List.getElem?_eq_some_iff.mp answers.isRecord).1
    rw [← shape, List.getElem?_append_left bound]
    exact answers.isRecord
  status := answers.status
  told := answers.told
  startedLast := answers.startedLast.append others

end Interruption

namespace ProcessRunner

variable
  {runner : ProcessRunner}
  {project : Project}
  {interruptPolicy : InterruptPolicy}
  {plan : Plan}
  {state : ProcessState}
  {host : Host}
  {calls : List (Call ProcessState)}
  {parts : List (List Attempt)}

/-- Signals that arrive while a child runs are answered by an interruption. -/
theorem Unfolds.exists_answer
    (unfolds : runner.Unfolds project interruptPolicy plan state host calls parts)
    (hears : runner.listens = true)
    {number : Nat}
    (later : state.started ≤ number)
    (ran :
      number <
        ((runner.pipeline project interruptPolicy).executeFree plan state host).state.started)
    (raised : (runner.children number).raises ≠ []) :
    ∃ (interruption : Interruption) (call : Call ProcessState),
      interruption.Answers runner plan state
          ((runner.pipeline project interruptPolicy).executeFree plan state host) parts number ∧
        calls[interruption.index]? = some call ∧
        call.step = interruption.step ∧
        call.status = .interrupted interruption.signal := by
  obtain ⟨index, before, attempt, after, call, _, starts, isCall, accounts⟩ :=
    unfolds.divides.exists_starts later ran
  have sameChild := starts.nextChild_eq runner
  have noticed :
      runner.noticed? (state.attempts.reverse ++ (parts.take index).flatten ++ before) attempt =
        some ((runner.children number).raises.getLast raised) := by
    simp only [noticed?, signals, hears, starts.started, sameChild, ↓reduceIte]
    exact List.getLast?_eq_some_getLast raised
  obtain ⟨rfl, signal, interrupted, told⟩ :=
    accounts.interrupted_of_noticed rfl starts.started noticed
  rw [sameChild] at told
  refine ⟨⟨index, call.step, call.record runner.program index, signal, before, attempt⟩, call, ?_,
    isCall, rfl, interrupted⟩
  exact {
    isStep := unfolds.passes.step_of_call isCall
    isRecord := unfolds.passes.record_of_call isCall
    status := interrupted
    told := by
      rw [List.getLast?_eq_some_getLast raised]
      rcases told with own | ⟨quiet, rfl⟩
      · exact .inl own
      · exact .inr ⟨quiet, rfl⟩
    startedLast := starts
  }

theorem attempts_of_last_part
    {final : ProcessState}
    (attempts : final.attempts.reverse = state.attempts.reverse ++ parts.flatten)
    {number index : Nat}
    {before : List Attempt}
    {attempt : Attempt}
    (starts : Starts state parts number index before attempt [])
    (isLast : parts.length = index + 1) :
    final.attempts.head? = some attempt ∧ final.started = number + 1 := by
  obtain ⟨bound, found⟩ := List.getElem?_eq_some_iff.mp starts.split
  have shape : parts = parts.take index ++ [before ++ [attempt]] := by
    have whole : parts.take (index + 1) = parts := List.take_of_length_le (by omega)
    rw [← found, List.take_append_getElem bound, whole]
  have listed :
      final.attempts =
        attempt :: (state.attempts.reverse ++ (parts.take index).flatten ++ before).reverse := by
    have backwards := congrArg List.reverse attempts
    rw [List.reverse_reverse] at backwards
    rw [backwards]
    conv => lhs; rw [shape]
    simp
  constructor
  · rw [listed, List.head?_cons]
  · rw [ProcessState.started, listed, List.countP_cons_of_pos starts.started, List.countP_reverse,
      starts.counted]

/-- A run ends with an interruption after which the interrupt policy or the step's policy is to
abort. -/
theorem Unfolds.ends
    (unfolds : runner.Unfolds project interruptPolicy plan state host calls parts)
    (hears : runner.listens = true)
    {number : Nat}
    {interruption : Interruption}
    (answers :
      interruption.Answers runner plan state
        ((runner.pipeline project interruptPolicy).executeFree plan state host) parts number)
    {call : Call ProcessState}
    (isCall : calls[interruption.index]? = some call)
    (sameStep : call.step = interruption.step)
    (interrupted : call.status = .interrupted interruption.signal)
    (stops : interruptPolicy = .abort ∨ interruption.step.policy.aborts = true) :
    interruption.Ends
      ((runner.pipeline project interruptPolicy).executeFree plan state host) number := by
  have reason :
      (runner.pipeline project interruptPolicy).reason? call =
        some (.interrupted interruption.signal) := by
    rw [Pipeline.reason?_of_interrupted interrupted, sameStep]
    exact if_pos stops
  obtain ⟨isLast, termination⟩ := unfolds.passes.ending.stops_at isCall reason
  rw [sameStep] at termination
  obtain ⟨lastAttempt, lastChild⟩ :=
    attempts_of_last_part unfolds.divides.attempts answers.startedLast
      (unfolds.divides.each.trans isLast)
  have notSuccess := RunResult.succeeded_of_aborted
    (show ((runner.pipeline project interruptPolicy).executeFree plan state
      host).result.termination = _ from termination)
  exact {
    termination := termination
    lastRecord := unfolds.passes.length_records.trans isLast
    lastAttempt := lastAttempt
    lastChild := lastChild
    calm := by
      rw [unfolds.divides.calm hears]
      cases calls with
      | nil =>
          simp at isCall
      | cons _ _ =>
          rfl
    exitCode := RunResult.exitCode_of_not_succeeded notSuccess
  }

/-- A signal that is pending or arrives before a step waits when the step is begun. -/
theorem waiting?_ne_none
    (hears : runner.listens = true)
    (early : state.pending? ≠ none ∨ runner.interim state.steps ≠ []) :
    runner.waiting? state ≠ none := by
  rcases early with pending | arrived
  · simp [waiting?, begun, hears, pending]
  · simp [waiting?, begun, hears, arrived]

/-- Under the policy `abort`, a signal that waits when a run is begun lets it start nothing. -/
theorem Unfolds.idle_of_waiting
    (unfolds : runner.Unfolds project .abort plan state host calls parts)
    (nonempty : plan.steps ≠ [])
    (waits : runner.waiting? state ≠ none) :
    ((runner.pipeline project .abort).executeFree plan state host).state.attempts =
        state.attempts ∧
      ((runner.pipeline project .abort).executeFree plan state host).result.succeeded = false := by
  have divides := unfolds.divides
  have ending := unfolds.passes.ending
  have sameAttempts :
      parts.flatten = [] →
        ((runner.pipeline project .abort).executeFree plan state host).state.attempts =
          state.attempts := by
    intro nothing
    have attempts := divides.attempts
    rw [nothing, List.append_nil] at attempts
    exact List.reverse_inj.mp attempts
  cases calls with
  | nil =>
      have noParts : parts = [] := List.eq_nil_of_length_eq_zero divides.each
      obtain ⟨id, message, termination⟩ :=
        ending.barred_of_short (by simp) (List.length_pos_iff.mpr nonempty)
      exact ⟨sameAttempts (by rw [noParts]; rfl), RunResult.succeeded_of_aborted termination⟩
  | cons call rest =>
      obtain ⟨part, others, rfl⟩ := List.exists_cons_of_length_eq_add_one divides.each
      obtain ⟨_, accounts, _⟩ := divides.accounted 0 call part rfl rfl
      obtain rfl : part = [] := accounts.idleIff.mpr waits
      obtain ⟨signal, waiting⟩ := Option.ne_none_iff_exists'.mp waits
      have interrupted : call.status = .interrupted signal := accounts.heeded signal waiting
      have reason :
          (runner.pipeline project .abort).reason? call = some (.interrupted signal) := by
        rw [Pipeline.reason?_of_interrupted interrupted]
        exact if_pos (.inl rfl)
      have isFirst : (call :: rest)[0]? = some call := rfl
      obtain ⟨isLast, termination⟩ := ending.stops_at isFirst reason
      have noOthers : others = [] := by
        have each := divides.each
        rw [isLast] at each
        simpa using each
      exact ⟨sameAttempts (by rw [noOthers]; rfl), RunResult.succeeded_of_aborted termination⟩

/-- What a run does up to its first interruption does not depend on the interrupt policy. -/
theorem exists_unfolds_both
    (runner : ProcessRunner)
    (project : Project)
    (plan : Plan)
    (state : ProcessState)
    {host : Host}
    (free : host.held? = none) :
    ∃ calls more parts others,
      runner.Unfolds project .abort plan state host calls parts ∧
        runner.Unfolds project .followStep plan state host (calls ++ more) (parts ++ others) := by
  obtain ⟨calls, more, strictly, leniently⟩ :=
    Pipeline.passes_of_both_policies runner.toRunner project 0 plan.steps state host
  obtain ⟨middle, between, first, second⟩ := Pipeline.Chain.append_iff.mp leniently.chain
  obtain ⟨rfl, rfl⟩ := strictly.chain.final_unique first
  obtain ⟨parts, divides⟩ := divides_of_chain first free
  obtain ⟨others, later⟩ := divides_of_chain second divides.free
  exact ⟨calls, more, parts, others, ⟨strictly, divides⟩, ⟨leniently, divides.append later⟩⟩

/-- How the runs of a plan under both interrupt policies heed signals. -/
structure HeedsSignals
    (runner : ProcessRunner)
    (project : Project)
    (plan : Plan)
    (state : ProcessState)
    (host : Host)
    (strict lenient : Execution ProcessState)
    (parts others : List (List Attempt)) : Prop where
  /-- A signal before the first step lets a run under the policy `abort` start nothing. -/
  idle :
    plan.steps ≠ [] →
      state.pending? ≠ none ∨ runner.interim state.steps ≠ [] →
        strict.state.attempts = state.attempts ∧ strict.result.succeeded = false
  attributed : runner.Attributes project plan state host strict parts
  alsoAttributed : runner.Attributes project plan state host lenient (parts ++ others)
  /-- Under the policy `abort` the run ends with the child, and under `followStep` the step is
  interrupted in the same way. -/
  answered :
    ∀ number,
      state.started ≤ number →
        number < strict.state.started →
          (runner.children number).raises ≠ [] →
            ∃ interruption : Interruption,
              interruption.Answers runner plan state strict parts number ∧
                interruption.Ends strict number ∧
                interruption.Answers runner plan state lenient (parts ++ others) number
  /-- Under the policy `followStep` the step decides whether the run ends with the child. -/
  alsoAnswered :
    ∀ number,
      state.started ≤ number →
        number < lenient.state.started →
          (runner.children number).raises ≠ [] →
            ∃ interruption : Interruption,
              interruption.Answers runner plan state lenient (parts ++ others) number ∧
                (interruption.step.policy.aborts = true → interruption.Ends lenient number) ∧
                (interruption.step.policy.aborts = false →
                  ∀ id reason,
                    lenient.result.termination ≠ .aborted interruption.index id reason)

theorem heeds_signals_of_free
    (hears : runner.listens = true)
    (project : Project)
    (plan : Plan)
    (state : ProcessState)
    (free : host.held? = none) :
    ∃ parts others,
      runner.HeedsSignals project plan state host
        ((runner.pipeline project .abort).executeFree plan state host)
        ((runner.pipeline project .followStep).executeFree plan state host) parts others := by
  obtain ⟨calls, more, parts, others, strictly, leniently⟩ :=
    runner.exists_unfolds_both project plan state free
  have sameRecords :
      ((runner.pipeline project .abort).executeFree plan state host).result.records <+:
        ((runner.pipeline project .followStep).executeFree plan state host).result.records :=
    strictly.passes.records_prefix leniently.passes rfl
  refine ⟨parts, others, ?_, strictly.attributes, leniently.attributes, ?_, ?_⟩
  · intro nonempty early
    exact strictly.idle_of_waiting nonempty (waiting?_ne_none hears early)
  · intro number later ran raised
    obtain ⟨interruption, call, answers, isCall, sameStep, interrupted⟩ :=
      strictly.exists_answer hears later ran raised
    have ends := strictly.ends hears answers isCall sameStep interrupted (.inl rfl)
    exact ⟨interruption, answers, ends, answers.extend sameRecords others⟩
  · intro number later ran raised
    obtain ⟨interruption, call, answers, isCall, sameStep, interrupted⟩ :=
      leniently.exists_answer hears later ran raised
    refine ⟨interruption, answers, ?_, ?_⟩
    · intro aborts
      exact leniently.ends hears answers isCall sameStep interrupted (.inr aborts)
    · intro continues
      refine leniently.passes.ending.goes_on_at isCall ?_
      rw [Pipeline.reason?_of_interrupted interrupted, sameStep, continues]
      rfl

/--
A signal that arrives while a child runs makes it the last one of its step, and
the step's record tells the interruption.  The interrupt policy and the step
decide whether it is also the last one of the run.
-/
theorem execute_heeds_signals
    (runner : ProcessRunner)
    (hears : runner.listens = true)
    (project : Project)
    (plan : Plan)
    (state : ProcessState)
    (host : Host) :
    ∃ parts others,
      runner.HeedsSignals project plan state host
        ((runner.pipeline project .abort).execute plan state host)
        ((runner.pipeline project .followStep).execute plan state host) parts others := by
  cases holder : host.held? with
  | some held =>
      have attributed := runner.attributes_of_held project .abort plan state holder
      have alsoAttributed := runner.attributes_of_held project .followStep plan state holder
      rw [Pipeline.execute_of_held holder] at attributed alsoAttributed ⊢
      rw [Pipeline.execute_of_held holder]
      refine ⟨[], [], ?_, attributed, alsoAttributed, ?_, ?_⟩
      · exact fun _ _ => ⟨rfl, rfl⟩
      · exact fun number later ran => absurd ran (Nat.not_lt.mpr later)
      · exact fun number later ran => absurd ran (Nat.not_lt.mpr later)
  | none =>
      rw [Pipeline.execute_of_free holder, Pipeline.execute_of_free holder]
      exact heeds_signals_of_free hears project plan state holder

/-- The theorem at a run whose first child is interrupted.  The program is given by its path. -/
theorem execute_heeds_signals_interrupted_first :
    let runner : ProcessRunner :=
      { program := "/tool"
        listens := true
        installed := []
        rustflags := none
        rustdocflags := none
        children := fun number => if number = 0 then { raises := [2] } else {} }
    let plan : Plan := .build {} .lexical .lexical
    let tree : FileTree :=
      { entries := [(["tool"], .file 0)], files := [(0, { executable := true })] }
    let host : Host := { tree, here := .root }
    let strict := (runner.pipeline ⟨[]⟩ .abort).execute plan {} host
    let lenient := (runner.pipeline ⟨[]⟩ .followStep).execute plan {} host
    runner.listens = true ∧
      (∃ parts others, runner.HeedsSignals ⟨[]⟩ plan {} host strict lenient parts others) ∧
      strict.state.started = 1 ∧
      lenient.state.started = 4 := by
  intro runner plan tree host strict lenient
  have heeds := runner.execute_heeds_signals rfl ⟨[]⟩ plan {} host
  exact ⟨rfl, heeds, by decide +kernel, by decide +kernel⟩

end ProcessRunner

end VerifyPipeline
