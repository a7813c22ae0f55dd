import VerifyPipeline.Plan.Build
import VerifyPipeline.Proofs.Run.Calls

namespace VerifyPipeline

/-!
# Runs keep to their plan

A run calls its runner for the first steps of the plan, once each and in order, and records every
call.  Only the last record can be one that ends the run, and the termination says exactly which of
the three ends the run came to.  The calls are observed by a runner that notes them on the way and
otherwise does what the runner under observation does.
-/

namespace StepRecord

/-- Whether the record ends its run under an interrupt policy. -/
def stops (interruptPolicy : InterruptPolicy) (record : StepRecord) : Bool :=
  match record.status with
  | .passed => false
  | .interrupted _ => interruptPolicy = .abort || record.policy.aborts
  | .failed _ _ | .launchFailed _ => record.policy.aborts

/-- The reason that the record gives if it ends its run. -/
def stopReason (record : StepRecord) : AbortReason :=
  match record.status with
  | .interrupted signal => .interrupted signal
  | _ => .stepFailed

end StepRecord

/-- A call with another view of the runner's state. -/
def Call.map (view : σ → τ) (call : Call σ) : Call τ where
  step := call.step
  given := view call.given
  entered := call.entered
  status := call.status
  after := view call.after
  left := call.left

/-- A passage with another view of the runner's state. -/
def Passage.map (view : σ → τ) (passage : Passage σ) : Passage τ where
  records := passage.records
  termination := passage.termination
  occurrences := passage.occurrences
  state := view passage.state
  host := passage.host

/-- An execution with another view of the runner's state. -/
def Execution.map (view : σ → τ) (execution : Execution σ) : Execution τ where
  result := execution.result
  occurrences := execution.occurrences
  state := view execution.state
  host := execution.host

namespace Pipeline

/-- The pipeline with a runner that notes every call of the runner. -/
def noting (pipeline : Pipeline σ) : Pipeline (σ × List (Call σ)) where
  runner := {
    program := pipeline.runner.program
    run := fun step noted entered =>
      let call := pipeline.callFor step noted.1 entered
      ((call.status, (call.after, noted.2 ++ [call])), call.left) }
  project := pipeline.project
  interruptPolicy := pipeline.interruptPolicy

/-- How a run keeps to its plan, the calls of the runner being known. -/
structure Follows
    (pipeline : Pipeline σ)
    (plan : Plan)
    (state : σ)
    (calls : List (Call σ))
    (execution : Execution σ) : Prop where
  /-- The runner is called for the first steps of the plan, once each and in order. -/
  called : calls.map Call.step = plan.steps.take calls.length
  /-- Each call is given the state that the one before returned. -/
  threaded : state :: calls.map Call.after = calls.map Call.given ++ [execution.state]
  returned :
    ∀ call ∈ calls,
      pipeline.runner.run call.step call.given call.entered =
        ((call.status, call.after), call.left)
  /-- Each call is recorded at its position. -/
  recorded :
    execution.result.records =
      calls.mapIdx fun index call => call.record pipeline.runner.program index
  onlyLastStops :
    ∀ record ∈ execution.result.records.dropLast,
      record.stops pipeline.interruptPolicy = false
  completedIff :
    execution.result.termination = .completed ↔
      execution.result.records.length = plan.size ∧
        ∀ record ∈ execution.result.records,
          record.stops pipeline.interruptPolicy = false
  stoppedIff :
    (∃ record,
        execution.result.records.getLast? = some record ∧
          record.stops pipeline.interruptPolicy = true) ↔
      ∃ record,
        execution.result.records.getLast? = some record ∧
          execution.result.termination =
            .aborted (execution.result.records.length - 1) (some record.stepId)
              record.stopReason
  barredIff :
    ∀ id message,
      execution.result.termination =
          .aborted execution.result.records.length id (.workspaceUnavailable message) ↔
        (∀ record ∈ execution.result.records,
            record.stops pipeline.interruptPolicy = false) ∧
          ∃ step why,
            plan.steps[execution.result.records.length]? = some step ∧
              id = some step.id ∧
              execution.host.enter pipeline.project step.workspace = .error why ∧
              message = why.text
  /-- A run that is cut short without a record that ends it has met a closed workspace. -/
  barredOfShort :
    (∀ record ∈ execution.result.records,
        record.stops pipeline.interruptPolicy = false) →
      execution.result.records.length < plan.size →
        ∃ id message,
          execution.result.termination =
            .aborted execution.result.records.length id (.workspaceUnavailable message)

/-- Whether a run stops after a call can be seen from its record. -/
theorem reason?_eq_ite
    (pipeline : Pipeline σ)
    (call : Call σ)
    (index : Nat) :
    pipeline.reason? call =
      if (call.record pipeline.runner.program index).stops pipeline.interruptPolicy then
        some (call.record pipeline.runner.program index).stopReason
      else none := by
  cases ending : call.status <;>
    simp [reason?, abortReason?, StepRecord.stops, StepRecord.stopReason, Call.record,
      StepRecord.ofStep, ending]

/-- A call gives no reason to stop exactly if its record does not end the run. -/
theorem reason?_eq_none_iff
    (pipeline : Pipeline σ)
    (call : Call σ)
    (index : Nat) :
    pipeline.reason? call = none ↔
      (call.record pipeline.runner.program index).stops pipeline.interruptPolicy = false := by
  rw [pipeline.reason?_eq_ite call index]
  split <;> simp_all

theorem reason?_eq_some_iff
    (pipeline : Pipeline σ)
    (call : Call σ)
    (index : Nat)
    (reason : AbortReason) :
    pipeline.reason? call = some reason ↔
      (call.record pipeline.runner.program index).stops pipeline.interruptPolicy = true ∧
        (call.record pipeline.runner.program index).stopReason = reason := by
  rw [pipeline.reason?_eq_ite call index]
  split <;> simp_all

/-- No record stops a run exactly if no call gives a reason to. -/
theorem forall_record_stops_iff
    (pipeline : Pipeline σ)
    (calls : List (Call σ)) :
    (∀ record ∈ calls.mapIdx fun index call => call.record pipeline.runner.program index,
        record.stops pipeline.interruptPolicy = false) ↔
      ∀ call ∈ calls, pipeline.reason? call = none := by
  constructor
  · intro quiet call member
    obtain ⟨index, bound, rfl⟩ := List.mem_iff_getElem.mp member
    refine (pipeline.reason?_eq_none_iff calls[index] index).mpr (quiet _ ?_)
    exact List.mem_mapIdx.mpr ⟨index, bound, rfl⟩
  · intro quiet record member
    obtain ⟨index, bound, rfl⟩ := List.mem_mapIdx.mp member
    exact (pipeline.reason?_eq_none_iff calls[index] index).mp
      (quiet _ (List.getElem_mem bound))

theorem mapIdx_record_concat
    (pipeline : Pipeline σ)
    (earlier : List (Call σ))
    (call : Call σ) :
    ((earlier ++ [call]).mapIdx fun index call =>
        call.record pipeline.runner.program index) =
      (earlier.mapIdx fun index call => call.record pipeline.runner.program index) ++
        [call.record pipeline.runner.program earlier.length] := by
  simp [List.mapIdx_append]

/-- A run that comes down to calls keeps to its plan. -/
theorem Passes.follows
    {pipeline : Pipeline σ}
    {plan : Plan}
    {state : σ}
    {host : Host}
    {calls : List (Call σ)}
    (passes :
      pipeline.Passes 0 plan.steps state host calls
        (pipeline.runSteps 0 plan.steps state host)) :
    pipeline.Follows plan state calls (pipeline.executeFree plan state host) := by
  let program := pipeline.runner.program
  have recorded :
      (pipeline.executeFree plan state host).result.records =
        calls.mapIdx fun index call => call.record program index := by
    have records := passes.records
    simp only [Nat.zero_add] at records
    exact records
  have ending := passes.ending
  have lastRecord :
      ∀ record,
        (pipeline.executeFree plan state host).result.records.getLast? = some record →
          ∃ call,
            calls.getLast? = some call ∧
              record = call.record program (calls.length - 1) := by
    intro record isLast
    rw [List.getLast?_eq_getElem?, recorded, List.length_mapIdx, ← recorded] at isLast
    obtain ⟨call, isCall, rfl⟩ := passes.call_of_record isLast
    exact ⟨call, List.getLast?_eq_getElem?.trans isCall, rfl⟩
  refine {
    called := passes.called
    threaded := passes.chain.threaded
    returned := passes.chain.returned
    recorded := recorded
    onlyLastStops := ?_
    completedIff := ?_
    stoppedIff := ?_
    barredIff := ?_
    barredOfShort := ?_
  }
  · have quiet := (pipeline.forall_record_stops_iff calls.dropLast).mpr ending.dropLast_reason?
    rcases List.eq_nil_or_concat calls with rfl | ⟨earlier, call, rfl⟩
    · simp [recorded]
    · rw [List.concat_eq_append] at recorded quiet
      rw [recorded, mapIdx_record_concat, List.dropLast_concat]
      simpa using quiet
  · rw [recorded, List.length_mapIdx, forall_record_stops_iff]
    exact ending.completed_iff
  · rw [recorded, List.length_mapIdx, ← recorded]
    constructor
    · rintro ⟨record, isLast, stops⟩
      obtain ⟨call, lastCall, rfl⟩ := lastRecord record isLast
      have reason := (pipeline.reason?_eq_some_iff call _ _).mpr ⟨stops, rfl⟩
      exact ⟨_, isLast, (ending.stopped_iff lastCall _).mpr reason⟩
    · rintro ⟨record, isLast, ended⟩
      obtain ⟨call, lastCall, rfl⟩ := lastRecord record isLast
      have reason := (ending.stopped_iff lastCall _).mp ended
      exact ⟨_, isLast, ((pipeline.reason?_eq_some_iff call _ _).mp reason).1⟩
  · intro id message
    rw [recorded, List.length_mapIdx, forall_record_stops_iff]
    exact ending.barred_iff id message
  · rw [recorded, List.length_mapIdx, forall_record_stops_iff]
    exact ending.barred_of_short

/-- Noting calls changes nothing else. -/
theorem runSteps_noting
    (pipeline : Pipeline σ)
    (index : Nat)
    (steps : List Step)
    (noted : σ × List (Call σ))
    (host : Host) :
    (pipeline.noting.runSteps index steps noted host).map Prod.fst =
      pipeline.runSteps index steps noted.1 host := by
  induction steps generalizing index noted host with
  | nil =>
      rfl
  | cons step rest inductionHypothesis =>
      cases entering : host.enter pipeline.project step.workspace with
      | error why =>
          rw [pipeline.runSteps_of_enter_error entering,
            pipeline.noting.runSteps_of_enter_error entering]
          rfl
      | ok entered =>
          let call := pipeline.callFor step noted.1 entered
          have plain := runSteps_of_makes (pipeline.makes_callFor entering noted.1) index rest
          have watched :=
            runSteps_of_makes (pipeline.noting.makes_callFor entering noted) index rest
          have sameReason :
              pipeline.noting.reason? (pipeline.noting.callFor step noted entered) =
                pipeline.reason? call :=
            rfl
          rw [sameReason] at watched
          have later :=
            inductionHypothesis (index + 1) (call.after, noted.2 ++ [call]) call.left.leave.1
          have unwatched :
              pipeline.runSteps index (step :: rest) noted.1 host = _ :=
            plain
          have observed :
              pipeline.noting.runSteps index (step :: rest) noted host = _ :=
            watched
          rw [unwatched, observed]
          cases stops : pipeline.reason? call with
          | some reason =>
              rfl
          | none =>
              simp only
              rw [← later]
              rfl

/-- What a noting runner notes is a call of the runner itself. -/
theorem Makes.of_noting
    {pipeline : Pipeline σ}
    {host : Host}
    {call : Call (σ × List (Call σ))}
    (makes : pipeline.noting.Makes host call) :
    pipeline.Makes host (call.map Prod.fst) ∧
      call.after.2 = call.given.2 ++ [call.map Prod.fst] := by
  obtain ⟨entered, returned⟩ := makes
  obtain ⟨step, given, inside, status, after, left⟩ := call
  simp only [noting, Prod.mk.injEq] at returned
  obtain ⟨⟨rfl, rfl⟩, rfl⟩ := returned
  exact ⟨⟨entered, rfl⟩, rfl⟩

/-- The calls of a noting runner are what it notes, and calls of the runner itself. -/
theorem Chain.of_noting
    {pipeline : Pipeline σ}
    {noted final : σ × List (Call σ)}
    {host last : Host}
    {calls : List (Call (σ × List (Call σ)))}
    (chain : pipeline.noting.Chain noted host calls final last) :
    final.2 = noted.2 ++ calls.map (Call.map Prod.fst) ∧
      pipeline.Chain noted.1 host (calls.map (Call.map Prod.fst)) final.1 last := by
  induction chain with
  | nil =>
      exact ⟨by simp, .nil⟩
  | cons makes _ inductionHypothesis =>
      obtain ⟨made, noticed⟩ := makes.of_noting
      obtain ⟨later, chained⟩ := inductionHypothesis
      exact ⟨by simp [later, noticed], .cons made chained⟩

/-- How a run ends does not depend on whether its calls are noted. -/
theorem Ending.of_noting
    {pipeline : Pipeline σ}
    {index : Nat}
    {steps : List Step}
    {calls : List (Call (σ × List (Call σ)))}
    {last : Host}
    {termination : Termination}
    (ending : pipeline.noting.Ending index steps calls last termination) :
    pipeline.Ending index steps (calls.map (Call.map Prod.fst)) last termination := by
  cases ending with
  | completed all quiet =>
      exact .completed (by simp [all]) (List.forall_mem_map.mpr quiet)
  | @stopped earlier call _ reason quiet stops =>
      have shape :
          (earlier ++ [call]).map (Call.map Prod.fst) =
            earlier.map (Call.map Prod.fst) ++ [call.map Prod.fst] := by
        simp
      have position : earlier.length = (earlier.map (Call.map Prod.fst)).length := by
        simp
      rw [shape, position]
      exact .stopped (List.forall_mem_map.mpr quiet) stops
  | barred quiet next refused =>
      have position : calls.length = (calls.map (Call.map Prod.fst)).length := by
        simp
      rw [position]
      exact .barred (List.forall_mem_map.mpr quiet) (by simpa using next) refused

/-- What a noting runner passes through, the runner itself does. -/
theorem Passes.of_noting
    {pipeline : Pipeline σ}
    {index : Nat}
    {steps : List Step}
    {noted : σ × List (Call σ)}
    {host : Host}
    {calls : List (Call (σ × List (Call σ)))}
    {passage : Passage (σ × List (Call σ))}
    (passes : pipeline.noting.Passes index steps noted host calls passage) :
    pipeline.Passes index steps noted.1 host (calls.map (Call.map Prod.fst))
      (passage.map Prod.fst) where
  called := by
    rw [List.map_map, List.length_map]
    exact passes.called
  chain := passes.chain.of_noting.2
  records := by
    refine passes.records.trans (List.ext_getElem (by simp) ?_)
    intro offset _ _
    simp only [List.getElem_mapIdx, List.getElem_map]
    rfl
  ending := passes.ending.of_noting
  warnings := by
    rw [List.filterMap_map]
    exact passes.warnings

/-- An execution comes down to the calls that a noting runner notes in it. -/
theorem passes_noted
    (pipeline : Pipeline σ)
    (plan : Plan)
    (state : σ)
    {host : Host}
    (free : host.held? = none) :
    pipeline.Passes 0 plan.steps state host
      (pipeline.noting.execute plan (state, []) host).state.2
      (pipeline.runSteps 0 plan.steps state host) := by
  have same := pipeline.runSteps_noting 0 plan.steps (state, []) host
  obtain ⟨calls, passes⟩ := pipeline.noting.passes_runSteps 0 plan.steps (state, []) host
  have noted := passes.chain.of_noting.1
  have observed := passes.of_noting
  rw [same] at observed
  rw [List.nil_append] at noted
  rw [← noted] at observed
  rw [execute_of_free free]
  exact observed

/--
A run that finds no workspace held calls its runner for the first steps of the
plan, once each and in order, records every call, and ends as its last record
or the next workspace says.
-/
theorem execute_follows_plan
    (pipeline : Pipeline σ)
    (plan : Plan)
    (state : σ)
    (host : Host)
    (free : host.held? = none) :
    (pipeline.noting.execute plan (state, []) host).map Prod.fst =
        pipeline.execute plan state host ∧
      pipeline.Follows plan state (pipeline.noting.execute plan (state, []) host).state.2
        (pipeline.execute plan state host) := by
  have same := pipeline.runSteps_noting 0 plan.steps (state, []) host
  obtain ⟨calls, passes⟩ := pipeline.noting.passes_runSteps 0 plan.steps (state, []) host
  have noted := passes.chain.of_noting.1
  have observed := passes.of_noting
  rw [same] at observed
  have follows := observed.follows
  rw [execute_of_free free, execute_of_free free]
  constructor
  · unfold executeFree
    rw [← same]
    rfl
  · rw [List.nil_append] at noted
    rw [← noted] at follows
    exact follows

/-- The theorem at a run that the first lint step ends. -/
theorem execute_follows_plan_failing_lint :
    let failing : Runner Nat :=
      { program := "cargo"
        run := fun _ count inside =>
          ((if count < 2 then .passed else .failed (some 1) none, count + 1), inside) }
    let pipeline : Pipeline Nat := ⟨failing, ⟨[]⟩, .abort⟩
    let plan : Plan := .build {} .lexical .lexical
    let host : Host := { tree := .empty, here := .root }
    host.held? = none ∧
      (pipeline.noting.execute plan (0, []) host).map Prod.fst = pipeline.execute plan 0 host ∧
      pipeline.Follows plan 0 (pipeline.noting.execute plan (0, []) host).state.2
        (pipeline.execute plan 0 host) ∧
      (pipeline.execute plan 0 host).result.records.length = 3 ∧
      (pipeline.execute plan 0 host).result.termination =
        .aborted 2 (some "lint_and_format/lint@lexical[format,lint,radix]") .stepFailed := by
  intro failing pipeline plan host
  have keeps := execute_follows_plan pipeline plan 0 host rfl
  exact ⟨rfl, keeps.1, keeps.2, by decide +kernel, by decide +kernel⟩

end Pipeline

end VerifyPipeline
