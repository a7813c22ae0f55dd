import VerifyPipeline.Proofs.Plan.Gating
import VerifyPipeline.Proofs.Run.PlanOrder

namespace VerifyPipeline

/-!
# Failing fast and collecting all

In a built plan only the lint and the documentation steps have the policy to abort.  So a run of it
that nothing but its steps can end collects every failure of the other tiers, and stops at the first
lint or documentation step that does not pass.  The lints come right after the baseline, so that a
failing lint leaves nothing but these two tiers in the records.
-/

/-- The record is that of a step at a position, whatever came of the step. -/
def StepRecord.IsOf
    (record : StepRecord)
    (program : String)
    (index : Nat)
    (step : Step) : Prop :=
  record = .ofStep index step (step.renderCommands program) record.status record.durationMs

/-- The records are those of the given steps, one for each and in order. -/
structure RecordsOf
    (program : String)
    (records : List StepRecord)
    (steps : List Step) : Prop where
  each : records.length = steps.length
  inOrder :
    ∀ (index : Nat) (record : StepRecord) (step : Step),
      records[index]? = some record →
        steps[index]? = some step →
          record.IsOf program index step

/-! ## Built plans -/

namespace Plan

variable
  {config : Config}
  {catalog : FeatureCatalog}
  {workspaces : WorkspaceSet}
  {step : Step}

theorem check_of_mem_build
    (member : step ∈ (build config catalog workspaces).steps)
    (lint : step.tier = .lintAndFormat) :
    config.check = true := by
  rcases mem_build_cases member with ⟨check, _⟩ | ⟨_, docs⟩ | ⟨_, _, _, other, _, rfl⟩
  · exact check
  · rw [(uniform_docsBlock _ _ step docs).1] at lint
    contradiction
  · exact absurd lint other

theorem docs_of_mem_build
    (member : step ∈ (build config catalog workspaces).steps)
    (strict : step.tier = .docsStrict) :
    config.docs = true := by
  rcases mem_build_cases member with ⟨_, lint⟩ | ⟨docs, _⟩ | ⟨_, _, _, _, other, rfl⟩
  · rw [(uniform_lintBlock _ step lint).1] at strict
    contradiction
  · exact docs
  · exact absurd strict other

/-- Exactly the lints and the documentation steps of a built plan abort its run. -/
theorem aborts_iff_of_mem_build
    (member : step ∈ (build config catalog workspaces).steps) :
    step.policy.aborts = true ↔ step.tier = .lintAndFormat ∨ step.tier = .docsStrict := by
  rcases mem_build_cases member with ⟨_, lint⟩ | ⟨_, docs⟩ | ⟨_, _, _, noLint, noDocs, rfl⟩
  · obtain ⟨workspace, _, rfl⟩ := List.mem_map.mp lint
    simp [FailurePolicy.aborts]
  · obtain ⟨features, _, rfl⟩ := List.mem_map.mp docs
    simp [FailurePolicy.aborts]
  · simp [recorded, FailurePolicy.aborts, noLint, noDocs]

/-- Every step of a built plan runs in a workspace of the set. -/
theorem workspace_mem_all_of_mem_build
    (member : step ∈ (build config catalog workspaces).steps) :
    step.workspace ∈ workspaces.all := by
  rcases workspace_of_mem_build member with primary | lint
  · rw [primary]
    exact List.mem_cons_self
  · obtain ⟨workspace, listed, rfl⟩ := List.mem_map.mp lint
    exact listed

/-- The documentation steps come last. -/
theorem lt_of_tier_docsStrict
    {index last : Nat}
    {other : Step}
    (isStep : (build config catalog workspaces).steps[index]? = some step)
    (isOther : (build config catalog workspaces).steps[last]? = some other)
    (early : step.tier ≠ .docsStrict)
    (late : other.tier = .docsStrict) :
    index < last := by
  have parted :
      (build config catalog workspaces).steps =
        (build { config with skipDocs := true } catalog workspaces).steps ++
          gated config.docs (docsBlock workspaces.primary catalog) := by
    simp [build, Config.docs, Config.check, Config.valgrind, Config.miri, Config.features,
      Config.valgrindMatrix, Config.miriMatrix]
  rw [parted] at isStep isOther
  generalize
    front : (build { config with skipDocs := true } catalog workspaces).steps = earlier
      at isStep isOther
  have inFront : index < earlier.length := by
    refine Nat.lt_of_not_le fun beyond => early ?_
    rw [List.getElem?_append_right beyond] at isStep
    exact (uniform_docsBlock _ _ step (mem_gated.mp (List.mem_of_getElem? isStep)).2).1
  have behind : earlier.length ≤ last := by
    refine Nat.le_of_not_lt fun inside => ?_
    rw [List.getElem?_append_left inside, ← front] at isOther
    have docs := docs_of_mem_build (List.mem_of_getElem? isOther) late
    simp [Config.docs] at docs
  exact Nat.lt_of_lt_of_le inFront behind

/-- Up to a lint, a built plan has the baseline and the lints before it. -/
theorem take_of_tier_lintAndFormat
    {index : Nat}
    (isStep : (build config catalog workspaces).steps[index]? = some step)
    (lint : step.tier = .lintAndFormat) :
    ∃ offset < workspaces.all.length,
      (build config catalog workspaces).steps.take (index + 1) =
        baselineBlock .baseline .test workspaces.primary ++
          (lintBlock workspaces).take (offset + 1) := by
  have checked := check_of_mem_build (List.mem_of_getElem? isStep) lint
  obtain ⟨later, parted, unlinted⟩ :
      ∃ later,
        (build config catalog workspaces).steps =
            baselineBlock .baseline .test workspaces.primary ++ (lintBlock workspaces ++ later) ∧
          (build { config with skipCheck := true } catalog workspaces).steps =
            baselineBlock .baseline .test workspaces.primary ++ later := by
    simp only [build, checked, gated_true, List.append_assoc]
    exact ⟨_, rfl, rfl⟩
  have others :
      ∀ other ∈ baselineBlock .baseline .test workspaces.primary ++ later,
        other.tier ≠ .lintAndFormat := by
    intro other member isLint
    rw [← unlinted] at member
    have check := check_of_mem_build member isLint
    simp [Config.check] at check
  rw [parted] at isStep ⊢
  generalize front : baselineBlock .baseline .test workspaces.primary = baseline at *
  have two : baseline.length = 2 := by
    rw [← front]
    rfl
  have behind : 2 ≤ index := by
    refine Nat.le_of_not_lt fun inside => ?_
    rw [List.getElem?_append_left (two ▸ inside)] at isStep
    exact others step (List.mem_append_left _ (List.mem_of_getElem? isStep)) lint
  obtain ⟨offset, rfl⟩ := Nat.exists_eq_add_of_le behind
  have inLints : offset < (lintBlock workspaces).length := by
    refine Nat.lt_of_not_le fun beyond => ?_
    rw [List.getElem?_append_right (by omega), two, Nat.add_sub_cancel_left,
      List.getElem?_append_right beyond] at isStep
    exact others step (List.mem_append_right _ (List.mem_of_getElem? isStep)) lint
  refine ⟨offset, by simpa [lintBlock] using inLints, ?_⟩
  rw [Nat.add_assoc, ← two, List.take_length_add_append, List.take_append_of_le_length inLints]

end Plan

/-! ## Runs -/

namespace Pipeline

/-- The calls that a run makes, as a noting runner notes them. -/
def callsOf
    (pipeline : Pipeline σ)
    (plan : Plan)
    (state : σ)
    (host : Host) :
    List (Call σ) :=
  (pipeline.noting.execute plan (state, []) host).state.2

/-- A run that nothing but its steps can end. -/
structure Undisturbed
    (pipeline : Pipeline σ)
    (workspaces : WorkspaceSet)
    (plan : Plan)
    (state : σ)
    (host : Host) : Prop where
  free : host.held? = none
  /-- Before the first step and after every other one, each workspace can be entered. -/
  enterable :
    ∀ between ∈ host :: (pipeline.callsOf plan state host).map fun call => call.left.leave.1,
      ∀ workspace ∈ workspaces.all,
        ∃ entered, between.enter pipeline.project workspace = .ok entered
  /-- The runner reports no interruption. -/
  uninterrupted :
    ∀ call ∈ pipeline.callsOf plan state host, ∀ signal, call.status ≠ .interrupted signal

/-- How a run of a built plan fails fast, and where it collects failures. -/
structure FailsFast
    (workspaces : WorkspaceSet)
    (plan : Plan)
    (program : String)
    (result : RunResult) : Prop where
  recorded : RecordsOf program result.records (plan.steps.take result.records.length)
  /-- A run that is not completed has stopped right after a lint or a documentation step that did
  not pass. -/
  ended :
    result.termination = .completed ∧ result.records.length = plan.size ∨
      ∃ record,
        result.records.getLast? = some record ∧
          (record.tier = .lintAndFormat ∨ record.tier = .docsStrict) ∧
          record.passed = false ∧
          result.termination =
            .aborted (result.records.length - 1) (some record.stepId) .stepFailed
  /-- It was the first such step. -/
  first :
    ∀ record ∈ result.records.dropLast,
      record.tier = .lintAndFormat ∨ record.tier = .docsStrict →
        record.passed = true
  /-- If the lints pass, every step before the documentation has a record. -/
  collected :
    (∀ record ∈ result.records, record.tier = .lintAndFormat → record.passed = true) →
      ∀ (index : Nat) (step : Step),
        plan.steps[index]? = some step →
          step.tier ≠ .docsStrict →
            ∃ record, result.records[index]? = some record ∧ record.IsOf program index step
  /-- If a lint does not pass, the records are those of the baseline and of the lints up to it. -/
  cutShort :
    ∀ record ∈ result.records,
      record.tier = .lintAndFormat →
        record.passed = false →
          result.records.getLast? = some record ∧
            (∀ other ∈ result.records, other.tier = .baseline ∨ other.tier = .lintAndFormat) ∧
            ∃ offset < workspaces.all.length,
              RecordsOf program result.records
                (Plan.baselineBlock .baseline .test workspaces.primary ++
                  (Plan.lintBlock workspaces).take (offset + 1))

/-- A chain of calls ends in the host that it begins with or in one that a call leaves. -/
theorem Chain.last_mem
    {pipeline : Pipeline σ}
    {state final : σ}
    {host last : Host}
    {calls : List (Call σ)}
    (chain : pipeline.Chain state host calls final last) :
    last ∈ host :: calls.map fun call => call.left.leave.1 := by
  induction chain with
  | nil =>
      exact List.mem_cons_self
  | cons _ _ inductionHypothesis =>
      exact List.mem_cons_of_mem _ inductionHypothesis

/-- The records of an execution are those of the first steps of the plan. -/
theorem Passes.recordsOf
    {pipeline : Pipeline σ}
    {steps : List Step}
    {state : σ}
    {host : Host}
    {calls : List (Call σ)}
    {passage : Passage σ}
    (passes : pipeline.Passes 0 steps state host calls passage) :
    RecordsOf pipeline.runner.program passage.records (steps.take passage.records.length) where
  each := by
    have bound := passes.length_calls_le
    rw [← passes.length_records] at bound
    rw [List.length_take, Nat.min_eq_left bound]
  inOrder := by
    intro index record step isRecord isStep
    obtain ⟨call, isCall, rfl⟩ := passes.call_of_record isRecord
    have bound := (List.getElem?_eq_some_iff.mp isRecord).1
    rw [List.getElem?_take_of_lt bound, passes.step_of_call isCall] at isStep
    obtain rfl := Option.some.inj isStep
    rfl

end Pipeline

section Built

variable
  {config : Config}
  {catalog : FeatureCatalog}
  {workspaces : WorkspaceSet}
  {program : String}
  {records : List StepRecord}
  {record : StepRecord}

theorem RecordsOf.exists_step
    {steps : List Step}
    {index : Nat}
    (recorded : RecordsOf program records steps)
    (isRecord : records[index]? = some record) :
    ∃ step, steps[index]? = some step ∧ record.IsOf program index step := by
  have bound := (List.getElem?_eq_some_iff.mp isRecord).1
  have isStep := List.getElem?_eq_getElem (recorded.each ▸ bound)
  exact ⟨_, isStep, recorded.inOrder _ _ _ isRecord isStep⟩

/-- Records of the first steps of a plan lie at the positions of their steps. -/
theorem RecordsOf.exists_step_of_take
    {steps : List Step}
    {count index : Nat}
    (recorded : RecordsOf program records (steps.take count))
    (isRecord : records[index]? = some record) :
    ∃ step, steps[index]? = some step ∧ record.IsOf program index step := by
  obtain ⟨step, isStep, isOf⟩ := recorded.exists_step isRecord
  rw [List.getElem?_take] at isStep
  split at isStep
  · exact ⟨step, isStep, isOf⟩
  · contradiction

/-- If the last record is that of a documentation step, every step of another tier has a record. -/
theorem RecordsOf.lt_length_of_docs
    {index : Nat}
    {step : Step}
    (recorded :
      RecordsOf program records
        ((Plan.build config catalog workspaces).steps.take records.length))
    (isLast : records.getLast? = some record)
    (docs : record.tier = .docsStrict)
    (isStep : (Plan.build config catalog workspaces).steps[index]? = some step)
    (early : step.tier ≠ .docsStrict) :
    index < records.length := by
  rw [List.getLast?_eq_getElem?] at isLast
  obtain ⟨other, isOther, isOf⟩ := recorded.exists_step_of_take isLast
  have late : other.tier = .docsStrict := (congrArg StepRecord.tier isOf).symm.trans docs
  have before := Plan.lt_of_tier_docsStrict isStep isOther early late
  exact Nat.lt_of_lt_of_le before (Nat.sub_le _ 1)

/-- If the last record is that of a lint, there are only the baseline and lints. -/
theorem RecordsOf.exists_front_of_lint
    (recorded :
      RecordsOf program records
        ((Plan.build config catalog workspaces).steps.take records.length))
    (isLast : records.getLast? = some record)
    (lint : record.tier = .lintAndFormat) :
    ∃ offset < workspaces.all.length,
      RecordsOf program records
        (Plan.baselineBlock .baseline .test workspaces.primary ++
          (Plan.lintBlock workspaces).take (offset + 1)) := by
  have positive := List.length_pos_of_mem (List.mem_of_getLast? isLast)
  rw [List.getLast?_eq_getElem?] at isLast
  obtain ⟨step, isStep, isOf⟩ := recorded.exists_step_of_take isLast
  have isLint : step.tier = .lintAndFormat := (congrArg StepRecord.tier isOf).symm.trans lint
  obtain ⟨offset, inLints, front⟩ := Plan.take_of_tier_lintAndFormat isStep isLint
  rw [Nat.sub_add_cancel positive] at front
  exact ⟨offset, inLints, front ▸ recorded⟩

theorem RecordsOf.tier_of_front
    {count : Nat}
    (recorded :
      RecordsOf program records
        (Plan.baselineBlock .baseline .test workspaces.primary ++
          (Plan.lintBlock workspaces).take count)) :
    ∀ record ∈ records, record.tier = .baseline ∨ record.tier = .lintAndFormat := by
  intro record member
  obtain ⟨index, isRecord⟩ := List.mem_iff_getElem?.mp member
  obtain ⟨step, isStep, isOf⟩ := recorded.exists_step isRecord
  have tier : record.tier = step.tier := congrArg StepRecord.tier isOf
  rw [tier]
  rcases List.mem_append.mp (List.mem_of_getElem? isStep) with baseline | lints
  · exact .inl (Plan.uniform_baselineBlock _ _ _ step baseline).1
  · exact .inr (Plan.uniform_lintBlock _ step (List.mem_of_mem_take lints)).1

/-- Exactly the failures of lints and of documentation steps end a run that is not interrupted. -/
theorem StepRecord.IsOf.stops_iff
    {index : Nat}
    {step : Step}
    (isOf : record.IsOf program index step)
    (member : step ∈ (Plan.build config catalog workspaces).steps)
    (uninterrupted : ∀ signal, record.status ≠ .interrupted signal)
    (interruptPolicy : InterruptPolicy) :
    record.stops interruptPolicy = true ↔
      (record.tier = .lintAndFormat ∨ record.tier = .docsStrict) ∧ record.passed = false := by
  have tier : record.tier = step.tier := congrArg StepRecord.tier isOf
  have policy : record.policy = step.policy := congrArg StepRecord.policy isOf
  rw [tier, ← Plan.aborts_iff_of_mem_build member, ← policy, passed]
  cases ended : record.status with
  | interrupted signal =>
      exact absurd ended (uninterrupted signal)
  | passed | failed | launchFailed =>
      simp [stops, StepStatus.isSuccess, ended]

theorem StepRecord.stopReason_of_uninterrupted
    (uninterrupted : ∀ signal, record.status ≠ .interrupted signal) :
    record.stopReason = .stepFailed := by
  unfold stopReason
  split
  · rename_i signal ended
    exact absurd ended (uninterrupted signal)
  · rfl

/-- What is not before the last item of a list is the last item. -/
theorem getLast?_of_not_mem_dropLast
    {items : List α}
    {item : α}
    (member : item ∈ items)
    (late : item ∉ items.dropLast) :
    items.getLast? = some item := by
  have parted := List.dropLast_concat_getLast (List.ne_nil_of_mem member)
  rw [← parted, List.mem_append, List.mem_singleton] at member
  rw [List.getLast?_eq_some_getLast, member.resolve_left late]

/-- A record that ends the run is the last one. -/
theorem Pipeline.Follows.getLast?_of_stops
    {pipeline : Pipeline σ}
    {plan : Plan}
    {state : σ}
    {calls : List (Call σ)}
    {execution : Execution σ}
    (follows : pipeline.Follows plan state calls execution)
    (member : record ∈ execution.result.records)
    (stops : record.stops pipeline.interruptPolicy = true) :
    execution.result.records.getLast? = some record := by
  refine getLast?_of_not_mem_dropLast member fun early => ?_
  rw [follows.onlyLastStops record early] at stops
  contradiction

/-- If every workspace can be entered, a run ends with its plan or with a record that ends it.
Nothing else ends a run but the workspace of the next step. -/
theorem Pipeline.Follows.ended_of_enterable
    {pipeline : Pipeline σ}
    {plan : Plan}
    {state : σ}
    {calls : List (Call σ)}
    {execution : Execution σ}
    (follows : pipeline.Follows plan state calls execution)
    (enterable :
      ∀ step ∈ plan.steps,
        ∃ entered, execution.host.enter pipeline.project step.workspace = .ok entered)
    (short : execution.result.records.length ≤ plan.size) :
    execution.result.termination = .completed ∧ execution.result.records.length = plan.size ∨
      ∃ record,
        execution.result.records.getLast? = some record ∧
          record.stops pipeline.interruptPolicy = true ∧
          execution.result.termination =
            .aborted (execution.result.records.length - 1) (some record.stepId)
              record.stopReason := by
  by_cases quiet :
      ∀ record ∈ execution.result.records, record.stops pipeline.interruptPolicy = false
  · left
    rcases Nat.lt_or_eq_of_le short with less | all
    · obtain ⟨id, message, barred⟩ := follows.barredOfShort quiet less
      obtain ⟨_, step, why, next, _, refused, _⟩ := (follows.barredIff id message).mp barred
      obtain ⟨entered, accepted⟩ := enterable step (List.mem_of_getElem? next)
      rw [accepted] at refused
      contradiction
    · exact ⟨follows.completedIff.mpr ⟨all, quiet⟩, all⟩
  · right
    simp only [not_forall, Bool.not_eq_false] at quiet
    obtain ⟨record, member, stops⟩ := quiet
    have isLast := follows.getLast?_of_stops member stops
    obtain ⟨other, isOther, ended⟩ := follows.stoppedIff.mp ⟨record, isLast, stops⟩
    obtain rfl : record = other := Option.some.inj (isLast.symm.trans isOther)
    exact ⟨record, isLast, stops, ended⟩

/-- A run of a built plan that nothing but its steps can end fails fast. -/
theorem Pipeline.Follows.failsFast
    {pipeline : Pipeline σ}
    {state : σ}
    {calls : List (Call σ)}
    {execution : Execution σ}
    (follows : pipeline.Follows (Plan.build config catalog workspaces) state calls execution)
    (recorded :
      RecordsOf program execution.result.records
        ((Plan.build config catalog workspaces).steps.take execution.result.records.length))
    (enterable :
      ∀ workspace ∈ workspaces.all,
        ∃ entered, execution.host.enter pipeline.project workspace = .ok entered)
    (uninterrupted :
      ∀ record ∈ execution.result.records, ∀ signal, record.status ≠ .interrupted signal) :
    FailsFast workspaces (Plan.build config catalog workspaces) program execution.result := by
  have stopsIff :
      ∀ record ∈ execution.result.records,
        record.stops pipeline.interruptPolicy = true ↔
          (record.tier = .lintAndFormat ∨ record.tier = .docsStrict) ∧ record.passed = false := by
    intro record member
    obtain ⟨index, isRecord⟩ := List.mem_iff_getElem?.mp member
    obtain ⟨step, isStep, isOf⟩ := recorded.exists_step_of_take isRecord
    exact isOf.stops_iff (List.mem_of_getElem? isStep) (uninterrupted record member) _
  have short :
      execution.result.records.length ≤ (Plan.build config catalog workspaces).size := by
    rw [recorded.each, List.length_take]
    exact Nat.min_le_right _ _
  have ended :=
    follows.ended_of_enterable
      (fun step member => enterable _ (Plan.workspace_mem_all_of_mem_build member)) short
  refine {
    recorded := recorded
    ended := ?_
    first := ?_
    collected := ?_
    cutShort := ?_
  }
  · refine ended.imp_right ?_
    rintro ⟨record, isLast, stops, aborted⟩
    have member := List.mem_of_getLast? isLast
    obtain ⟨strict, failed⟩ := (stopsIff record member).mp stops
    rw [StepRecord.stopReason_of_uninterrupted (uninterrupted record member)] at aborted
    exact ⟨record, isLast, strict, failed, aborted⟩
  · intro record early strict
    have goesOn := follows.onlyLastStops record early
    have member := List.dropLast_subset _ early
    by_contra failed
    rw [(stopsIff record member).mpr ⟨strict, by simpa using failed⟩] at goesOn
    contradiction
  · intro passing index step isStep early
    have bound : index < execution.result.records.length := by
      rcases ended with ⟨_, all⟩ | ⟨record, isLast, stops, _⟩
      · rw [all]
        exact (List.getElem?_eq_some_iff.mp isStep).1
      · have member := List.mem_of_getLast? isLast
        obtain ⟨lint | docs, failed⟩ := (stopsIff record member).mp stops
        · rw [passing record member lint] at failed
          contradiction
        · exact recorded.lt_length_of_docs isLast docs isStep early
    refine ⟨_, List.getElem?_eq_getElem bound, ?_⟩
    refine recorded.inOrder index _ step (List.getElem?_eq_getElem bound) ?_
    rw [List.getElem?_take_of_lt bound, isStep]
  · intro record member lint failed
    have isLast :=
      follows.getLast?_of_stops member ((stopsIff record member).mpr ⟨.inl lint, failed⟩)
    obtain ⟨offset, inLints, front⟩ := recorded.exists_front_of_lint isLast lint
    exact ⟨isLast, front.tier_of_front, offset, inLints, front⟩

end Built

namespace Pipeline

/--
A run of a built plan that finds no workspace held, can enter every workspace
and is not interrupted stops early only at a lint or a documentation step that
does not pass, the first one.  Failures of all other steps are collected.
-/
theorem execute_fails_fast
    (pipeline : Pipeline σ)
    (config : Config)
    (catalog : FeatureCatalog)
    (workspaces : WorkspaceSet)
    (state : σ)
    (host : Host)
    (undisturbed :
      pipeline.Undisturbed workspaces (.build config catalog workspaces) state host) :
    FailsFast workspaces (.build config catalog workspaces) pipeline.runner.program
      (pipeline.execute (.build config catalog workspaces) state host).result := by
  have passes :=
    pipeline.passes_noted (.build config catalog workspaces) state undisturbed.free
  rw [execute_of_free undisturbed.free]
  refine passes.follows.failsFast passes.recordsOf ?_ ?_
  · exact undisturbed.enterable _ passes.chain.last_mem
  · intro record member
    obtain ⟨index, isRecord⟩ := List.mem_iff_getElem?.mp member
    obtain ⟨call, isCall, rfl⟩ := passes.call_of_record isRecord
    exact undisturbed.uninterrupted call (List.mem_of_getElem? isCall)

/-- The theorem at a run in which both baseline steps and the second of three lints fail. -/
theorem execute_fails_fast_second_lint :
    let failing : Runner Unit :=
      { program := "cargo"
        run := fun step _ inside =>
          ((if step.tool = .test ∨ step.workspace.name = "aside" then .failed (some 1) none
            else .passed, ()), inside) }
    let workspaces : WorkspaceSet :=
      ⟨⟨"main", ".", .empty⟩, [⟨"aside", "aside", .empty⟩, ⟨"beyond", "aside/..", .empty⟩]⟩
    let pipeline : Pipeline Unit := ⟨failing, ⟨[]⟩, .followStep⟩
    let plan : Plan := .build {} .lexical workspaces
    let host : Host := { tree := { entries := [(["aside"], .directory)] }, here := .root }
    let result := (pipeline.execute plan () host).result
    pipeline.Undisturbed workspaces plan () host ∧
      FailsFast workspaces plan "cargo" result ∧
      result.records.map StepRecord.passed = [false, false, true, false] ∧
      result.termination = .aborted 3 (some "lint_and_format/lint@aside[default]") .stepFailed := by
  intro failing workspaces pipeline plan host result
  have accepted :
      ∀ between ∈ host :: (pipeline.callsOf plan () host).map fun call => call.left.leave.1,
        ∀ workspace ∈ workspaces.all,
          (between.enter pipeline.project workspace).isOk = true := by
    decide +kernel
  have finished :
      ∀ call ∈ pipeline.callsOf plan () host, call.status.isInterrupted = false := by
    decide +kernel
  have undisturbed : pipeline.Undisturbed workspaces plan () host := {
    free := rfl
    enterable := by
      intro between isBetween workspace listed
      have isOk := accepted between isBetween workspace listed
      cases entering : between.enter pipeline.project workspace with
      | error why =>
          simp [entering, Except.isOk, Except.toBool] at isOk
      | ok entered =>
          exact ⟨entered, rfl⟩
    uninterrupted := by
      intro call isCall signal interrupted
      have ended := finished call isCall
      rw [interrupted] at ended
      contradiction
  }
  have failsFast := pipeline.execute_fails_fast {} .lexical workspaces () host undisturbed
  exact ⟨undisturbed, failsFast, by decide +kernel, by decide +kernel⟩

end Pipeline

end VerifyPipeline
