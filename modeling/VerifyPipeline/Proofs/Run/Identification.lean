import Mathlib.Data.List.Nodup
import VerifyPipeline.Proofs.Log.Numbering
import VerifyPipeline.Proofs.Plan.Faithfulness
import VerifyPipeline.Proofs.Run.Counts
import VerifyPipeline.Proofs.Run.Logging

namespace VerifyPipeline

/-!
# Steps by their identities

Identities are put together from names that may hold the signs between them, and several tiers run
the same selections in the same workspace.  In a built plan they tell the steps apart all the same,
if the labels of the catalog and the names of the workspaces do.
-/

namespace Plan

/-! ## Identities within a block -/

/-- Two steps have different identities. -/
def Distinct (first second : Step) : Prop := first.id ≠ second.id

/-- Steps of one workspace with different labels have different identities. -/
theorem distinct_of_label_ne
    {first second : Step}
    (here : first.workspace = second.workspace)
    (labels : first.features.label ≠ second.features.label) :
    Distinct first second := by
  intro same
  obtain ⟨_, _, named⟩ := Step.id_inj same
  rw [here] at named
  have bracketed := (List.cons.inj (List.append_cancel_left named)).2
  exact labels (String.toList_inj.mp (List.append_cancel_right bracketed))

/-- Steps in workspaces with different names have different identities, if the names end at the
bracket before the label. -/
theorem distinct_of_name_ne
    {first second : Step}
    (unbracketed : '[' ∉ first.workspace.name.toList)
    (unbracketedToo : '[' ∉ second.workspace.name.toList)
    (names : first.workspace.name ≠ second.workspace.name) :
    Distinct first second := by
  intro same
  obtain ⟨_, _, named⟩ := Step.id_inj same
  exact names (String.toList_inj.mp (Text.append_cons_inj unbracketed unbracketedToo named).1)

/-- Steps of different tiers are distinct, and so are steps that run different tools. -/
theorem distinct_of_kind_ne
    {first second : Step}
    (kinds : (first.tier, first.tool) ≠ (second.tier, second.tool)) :
    Distinct first second := by
  intro same
  obtain ⟨tier, tool, _⟩ := Step.id_inj same
  exact kinds (by rw [tier, tool])

variable
  {config : Config}
  {catalog : FeatureCatalog}
  {workspaces : WorkspaceSet}

/-- The two steps of a baseline differ in their features. -/
theorem distinct_baselineBlock
    (tier : Tier)
    (tool : Tool)
    (workspace : Workspace) :
    (baselineBlock tier tool workspace).Pairwise Distinct := by
  have labels : FeatureSelection.default.label ≠ FeatureSelection.allFeatures.label := by decide
  refine List.pairwise_pair.mpr (distinct_of_label_ne ?_ labels)
  rfl

/-- Those of a matrix do if the combinations have different labels. -/
theorem distinct_matrixBlock
    (labels : (catalog.combinations.map fun set => (FeatureSelection.features set).label).Nodup)
    (tier : Tier)
    (tool : Tool)
    (workspace : Workspace) :
    (matrixBlock tier tool workspace catalog).Pairwise Distinct := by
  rw [List.Nodup, List.pairwise_map] at labels
  refine List.pairwise_map.mpr (labels.imp fun different => ?_)
  exact distinct_of_label_ne rfl different

/-- Those of the lints differ in their workspaces. -/
theorem distinct_lintBlock
    (names : (workspaces.all.map Workspace.name).Nodup)
    (unbracketed : ∀ workspace ∈ workspaces.all, '[' ∉ workspace.name.toList) :
    (lintBlock workspaces).Pairwise Distinct := by
  rw [List.Nodup, List.pairwise_map] at names
  refine List.pairwise_map.mpr (names.imp_of_mem fun listed listedToo different => ?_)
  exact distinct_of_name_ne (unbracketed _ listed) (unbracketed _ listedToo) different

/-- Those of the documentation differ unless its features are labelled as none. -/
theorem distinct_docsBlock
    (docs : (FeatureSelection.features catalog.docs).label ≠ "no-default")
    (workspace : Workspace) :
    (docsBlock workspace catalog).Pairwise Distinct := by
  refine List.pairwise_pair.mpr (distinct_of_label_ne rfl ?_)
  exact Ne.symm docs

/-- Closing a block does not make its steps alike. -/
theorem distinct_gated
    {block : List Step}
    (distinct : block.Pairwise Distinct)
    (enabled : Bool) :
    (gated enabled block).Pairwise Distinct := by
  cases enabled with
  | false =>
      exact .nil
  | true =>
      exact distinct

/-! ## Identities in a plan -/

/-- The tiers and tools of the blocks of a plan, in their order. -/
def kindOrder : List (Tier × Tool) := [
  (.baseline, .test), (.lintAndFormat, .lint), (.memorySafetyBaseline, .valgrind),
  (.memorySafetyBaseline, .miri), (.featureMatrix, .test), (.memorySafetyMatrix, .valgrind),
  (.memorySafetyMatrix, .miri), (.docsStrict, .docs)]

/-- A plan is made of its kinds of steps, one after the other. -/
theorem build_eq_flatMap_ofKind
    (config : Config)
    (catalog : FeatureCatalog)
    (workspaces : WorkspaceSet) :
    (build config catalog workspaces).steps =
      kindOrder.flatMap fun kind => (build config catalog workspaces).ofKind kind.1 kind.2 := by
  rw [build_eq_flatMap_ofTier]
  simp [tierOrder, kindOrder, ofTier, ofKind, select_build]

theorem mem_ofKind
    {plan : Plan}
    {step : Step}
    {tier : Tier}
    {tool : Tool} :
    step ∈ plan.ofKind tier tool ↔ step ∈ plan.steps ∧ (step.tier, step.tool) = (tier, tool) := by
  simp [ofKind, select]

/-- The identities of the steps of a built plan are different. -/
theorem distinct_build
    (labels : (catalog.combinations.map fun set => (FeatureSelection.features set).label).Nodup)
    (docs : (FeatureSelection.features catalog.docs).label ≠ "no-default")
    (names : (workspaces.all.map Workspace.name).Nodup)
    (unbracketed : ∀ workspace ∈ workspaces.all, '[' ∉ workspace.name.toList) :
    (build config catalog workspaces).steps.Pairwise Distinct := by
  rw [build_eq_flatMap_ofKind, List.pairwise_flatMap]
  constructor
  · intro kind listed
    simp only [kindOrder, List.mem_cons, List.not_mem_nil, or_false] at listed
    rcases listed with rfl | rfl | rfl | rfl | rfl | rfl | rfl | rfl <;>
      simp only [ofKind, select_build] <;>
      simp only [decide_true, reduceCtorEq, decide_false, Bool.and_true, Bool.and_false, gated_true,
        gated_false, List.append_nil, List.nil_append]
    · exact distinct_baselineBlock _ _ _
    · exact distinct_gated (distinct_lintBlock names unbracketed) _
    · exact distinct_gated (distinct_baselineBlock _ _ _) _
    · exact distinct_gated (distinct_baselineBlock _ _ _) _
    · exact distinct_gated (distinct_matrixBlock labels _ _ _) _
    · exact distinct_gated (distinct_matrixBlock labels _ _ _) _
    · exact distinct_gated (distinct_matrixBlock labels _ _ _) _
    · exact distinct_gated (distinct_docsBlock docs _) _
  · have kinds : kindOrder.Nodup := by decide
    refine kinds.imp fun different first isFirst second isSecond => ?_
    refine distinct_of_kind_ne ?_
    rw [(mem_ofKind.mp isFirst).2, (mem_ofKind.mp isSecond).2]
    exact different

end Plan

/-! ## Where things happen -/

/-- What is said of a step is said of one that stands at its position. -/
def RunEvent.Placed (steps : List Step) : RunEvent → Prop
  | .stepStarted index step _ | .workspaceUnavailable index step _
  | .stepFinished index step _ _ _ | .stepSkipped index step => steps[index]? = some step
  | .reentered _ | .started _ _ _ | .restoreFailed _ | .ended _ => True

namespace Pipeline

/-- What happens around a call is about the step at its position. -/
theorem placed_call
    (call : Call σ)
    (program : String)
    {steps : List Step}
    {index : Nat}
    (isStep : steps[index]? = some call.step) :
    ∀ occurrence ∈ call.occurrences program index, occurrence.event.Placed steps := by
  cases restored : call.left.leave.2 <;>
    simp [Call.occurrences, restored, RunEvent.Placed, isStep]

/-- The step: what happens in the execution of the rest of a plan happens to its steps. -/
theorem placed_runSteps
    (pipeline : Pipeline σ)
    {plan : List Step}
    {index : Nat}
    {steps : List Step}
    (rest : plan.drop index = steps)
    (state : σ)
    (host : Host) :
    ∀ occurrence ∈ (pipeline.runSteps index steps state host).occurrences,
      occurrence.event.Placed plan := by
  have isStep {index : Nat} {step : Step} {later : List Step}
      (rest : plan.drop index = step :: later) : plan[index]? = some step := by
    rw [← List.head?_drop, rest, List.head?_cons]
  refine pipeline.runSteps_induction
    (motive := fun index steps _ passage =>
      plan.drop index = steps → ∀ occurrence ∈ passage.occurrences, occurrence.event.Placed plan)
    ?nil ?barred ?stopped ?goesOn index steps state host rest
  case nil =>
    exact fun _ _ _ _ => List.forall_mem_nil _
  case barred =>
    intro index step later state host why _ rest
    simp [RunEvent.Placed, isStep rest]
  case stopped =>
    intro index later host call reason _ _ rest
    exact placed_call call _ (isStep rest)
  case goesOn =>
    intro index later host call passage _ inductionHypothesis rest
    have restToo : plan.drop (index + 1) = later := by
      rw [← List.tail_drop, rest, List.tail_cons]
    exact List.forall_mem_append.mpr
      ⟨placed_call call _ (isStep rest), inductionHypothesis restToo⟩

/-- What happens when a step is skipped is placed at that step. -/
theorem placed_skipSteps
    (clock : Instant)
    {plan : List Step}
    {index : Nat}
    {steps : List Step}
    (rest : plan.drop index = steps) :
    ∀ occurrence ∈ skipSteps clock index steps, occurrence.event.Placed plan := by
  intro occurrence member
  obtain ⟨offset, step, isStep, rfl⟩ := exists_of_mem_skipSteps member
  rw [← rest, List.getElem?_drop] at isStep
  exact isStep

/-- The run: what happens in the execution of a plan happens to its steps. -/
theorem placed_execute
    (pipeline : Pipeline σ)
    (plan : Plan)
    (state : σ)
    (host : Host) :
    ∀ occurrence ∈ (pipeline.execute plan state host).occurrences,
      occurrence.event.Placed plan.steps := by
  cases holder : host.held? with
  | some held =>
      rw [execute_of_held holder]
      exact List.forall_mem_singleton.mpr trivial
  | none =>
      obtain ⟨_, occurrences⟩ := pipeline.occurrences_of_free holder plan state
      rw [occurrences]
      simp only [List.forall_mem_append, List.forall_mem_singleton]
      refine ⟨⟨⟨trivial, pipeline.placed_runSteps List.drop_zero state host⟩, ?_⟩, trivial⟩
      exact placed_skipSteps _ rfl

end Pipeline

/-! ## Joining by identities -/

/-- The entry is about the step at a position. -/
structure LogEntry.IsAbout (entry : LogEntry) (index : Nat) (step : Step) : Prop where
  stepIndex : entry.stepIndex = some index
  stepId : entry.stepId = some step.id
  tier : entry.tier = some step.tier.label
  tool : entry.tool = some step.tool.label
  workspace : entry.workspace = some step.workspace.name
  features : entry.features = some step.features.label
  policy : entry.policy = some step.policy.label

/-- An entry that names a step is about one at a position of the plan. -/
theorem RunEvent.isAbout_of_entry?
    {event : RunEvent}
    {steps : List Step}
    (placed : event.Placed steps)
    {clock : Instant}
    {entry : LogEntry}
    (told : event.entry? clock = some entry)
    {id : String}
    (named : entry.stepId = some id) :
    ∃ index step, steps[index]? = some step ∧ entry.IsAbout index step := by
  cases event with
  | reentered _ | started _ _ _ =>
      obtain rfl := Option.some.inj told
      contradiction
  | restoreFailed _ =>
      contradiction
  | ended result =>
      obtain rfl := Option.some.inj told
      unfold endEntry at named
      split at named <;> contradiction
  | stepStarted index step _ | workspaceUnavailable index step _ | stepFinished index step _ _ _
  | stepSkipped index step =>
      obtain rfl := Option.some.inj told
      exact ⟨index, step, placed, ⟨rfl, rfl, rfl, rfl, rfl, rfl, rfl⟩⟩

theorem LogEntry.IsAbout.complete
    {entry : LogEntry}
    {index : Nat}
    {step : Step}
    (isAbout : entry.IsAbout index step)
    (emitter : Emitter) :
    (emitter.complete entry).IsAbout index step :=
  { isAbout with }

/-- An identity stands for a step of a plan, which has it alone. -/
structure Plan.Identifies (plan : Plan) (id : String) (index : Nat) (step : Step) : Prop where
  isStep : plan.steps[index]? = some step
  isId : step.id = id
  only :
    ∀ (position : Nat) (other : Step),
      plan.steps[position]? = some other → other.id = id → position = index

/-- An id identifies its step if no other step has it. -/
theorem Plan.identifies_of_nodup
    {plan : Plan}
    {index : Nat}
    {step : Step}
    (ids : (plan.steps.map Step.id).Nodup)
    (isStep : plan.steps[index]? = some step) :
    plan.Identifies step.id index step where
  isStep := isStep
  isId := rfl
  only := by
    intro position other isOther same
    have bound : position < (plan.steps.map Step.id).length := by
      rw [List.length_map]
      exact (List.getElem?_eq_some_iff.mp isOther).1
    refine (List.getElem?_inj bound ids).mp ?_
    rw [List.getElem?_map, List.getElem?_map, isStep, isOther, Option.map_some, Option.map_some,
      same]

/-- Whatever is told of a step in a run of a plan can be joined to the plan by the identity alone:
what the identity stands for is what is told. -/
structure Execution.JoinsTo (execution : Execution σ) (plan : Plan) (program : String) : Prop where
  records :
    ∀ record ∈ execution.result.records,
      ∃ step,
        plan.Identifies record.stepId record.index step ∧ record.IsOf program record.index step
  /-- The entries of the log, as they are when they are written. -/
  entries :
    ∀ runId sequence, ∀ entry ∈ Emitter.completed runId sequence execution.entries,
      ∀ id,
        entry.stepId = some id →
          ∃ index step, plan.Identifies id index step ∧ entry.IsAbout index step
  stop :
    ∀ index id reason,
      execution.result.termination = .aborted index (some id) reason →
        ∃ step, plan.Identifies id index step

namespace Pipeline

/-- A run that stops at a step stops at the one whose identity it gives. -/
theorem Passes.exists_stop
    {pipeline : Pipeline σ}
    {steps : List Step}
    {state : σ}
    {host : Host}
    {calls : List (Call σ)}
    {passage : Passage σ}
    (passes : pipeline.Passes 0 steps state host calls passage)
    {index : Nat}
    {id : String}
    {reason : AbortReason}
    (aborted : passage.termination = .aborted index (some id) reason) :
    ∃ step, steps[index]? = some step ∧ step.id = id := by
  have ending := passes.ending
  generalize passage.termination = termination at aborted ending
  cases ending with
  | completed _ _ =>
      contradiction
  | @stopped earlier call _ _ _ _ =>
      simp only [Nat.zero_add, Termination.aborted.injEq, Option.some.injEq] at aborted
      obtain ⟨rfl, rfl, _⟩ := aborted
      exact ⟨call.step, passes.step_of_call List.getElem?_concat_length, rfl⟩
  | @barred _ _ step _ _ isStep _ =>
      simp only [Nat.zero_add, Termination.aborted.injEq, Option.some.injEq] at aborted
      obtain ⟨rfl, rfl, _⟩ := aborted
      exact ⟨step, isStep, rfl⟩

/-- If the identities tell the steps of a plan apart, they join every run to it. -/
theorem joinsTo_execute
    {plan : Plan}
    (ids : (plan.steps.map Step.id).Nodup)
    (pipeline : Pipeline σ)
    (state : σ)
    (host : Host) :
    (pipeline.execute plan state host).JoinsTo plan pipeline.runner.program where
  records := by
    intro record member
    cases holder : host.held? with
    | some held =>
        rw [execute_of_held holder] at member
        exact absurd member List.not_mem_nil
    | none =>
        obtain ⟨_, passes⟩ := pipeline.passes_runSteps 0 plan.steps state host
        rw [execute_of_free holder] at member
        obtain ⟨step, isStep, isOf⟩ := passes.step_of_record member
        have named : record.stepId = step.id := congrArg StepRecord.stepId isOf
        rw [named]
        exact ⟨step, Plan.identifies_of_nodup ids isStep, isOf⟩
  entries := by
    intro runId sequence entry member id named
    obtain ⟨original, isEntry, emitter, rfl⟩ := Emitter.exists_complete_of_mem_completed member
    obtain ⟨occurrence, happened, told⟩ := List.mem_filterMap.mp isEntry
    have placed := pipeline.placed_execute plan state host occurrence happened
    obtain ⟨index, step, isStep, isAbout⟩ := RunEvent.isAbout_of_entry? placed told named
    obtain rfl := Option.some.inj (isAbout.stepId.symm.trans named)
    exact ⟨index, step, Plan.identifies_of_nodup ids isStep, isAbout.complete emitter⟩
  stop := by
    intro index id reason aborted
    cases holder : host.held? with
    | some held =>
        rw [execute_of_held holder] at aborted
        exact absurd (Termination.aborted.inj aborted).2.1 nofun
    | none =>
        obtain ⟨_, passes⟩ := pipeline.passes_runSteps 0 plan.steps state host
        rw [execute_of_free holder] at aborted
        obtain ⟨step, isStep, rfl⟩ := passes.exists_stop aborted
        exact ⟨step, Plan.identifies_of_nodup ids isStep⟩

end Pipeline

/--
No two steps of a built plan have the same identity, if the labels of the
catalog and the names of the workspaces are different and no name has the
bracket that comes before a label.  So the identity alone joins the records of a
run, its log and its end to the plan.
-/
theorem Plan.build_identifies
    {catalog : FeatureCatalog}
    {workspaces : WorkspaceSet}
    (labels : (catalog.combinations.map fun set => (FeatureSelection.features set).label).Nodup)
    (docs : (FeatureSelection.features catalog.docs).label ≠ "no-default")
    (names : (workspaces.all.map Workspace.name).Nodup)
    (unbracketed : ∀ workspace ∈ workspaces.all, '[' ∉ workspace.name.toList)
    (config : Config) :
    ((build config catalog workspaces).steps.map Step.id).Nodup ∧
      ∀ (σ : Type) (pipeline : Pipeline σ) (state : σ) (host : Host),
        (pipeline.execute (build config catalog workspaces) state host).JoinsTo
          (build config catalog workspaces) pipeline.runner.program := by
  have ids : ((build config catalog workspaces).steps.map Step.id).Nodup :=
    List.pairwise_map.mpr (distinct_build labels docs names unbracketed)
  exact ⟨ids, fun σ pipeline state host => pipeline.joinsTo_execute ids state host⟩

/-- The theorem at names that hold signs of an identity, and at a run that stops at a workspace that
is missing. -/
theorem Plan.build_identifies_missing_workspace :
    let catalog : FeatureCatalog :=
      ⟨[.empty, .ofNames ["all-features"], .ofNames ["no-default"]], .ofNames ["no-default+x"]⟩
    let workspaces : WorkspaceSet :=
      ⟨⟨"a/test@b]", ".", .empty⟩, [⟨"a", "a", .empty⟩, ⟨"", ".", .empty⟩]⟩
    let plan := build { miriExhaustive := true } catalog workspaces
    let runner : Runner Unit :=
      { program := "cargo", run := fun _ _ inside => ((.passed, ()), inside) }
    let pipeline : Pipeline Unit := ⟨runner, ⟨[]⟩, .abort⟩
    let execution := pipeline.execute plan () { tree := .empty, here := .root }
    let id := "lint_and_format/lint@a[default]"
    (catalog.combinations.map fun set => (FeatureSelection.features set).label).Nodup ∧
      (FeatureSelection.features catalog.docs).label ≠ "no-default" ∧
      (workspaces.all.map Workspace.name).Nodup ∧
      (∀ workspace ∈ workspaces.all, '[' ∉ workspace.name.toList) ∧
      (plan.steps.map Step.id).Nodup ∧
      (∃ reason step,
        execution.result.termination = .aborted 3 (some id) reason ∧
          plan.Identifies id 3 step) ∧
      ∀ record ∈ execution.result.records,
        ∃ step, plan.Identifies record.stepId record.index step := by
  intro catalog workspaces plan runner pipeline execution id
  have labels :
      (catalog.combinations.map fun set => (FeatureSelection.features set).label).Nodup := by
    decide +kernel
  have docs : (FeatureSelection.features catalog.docs).label ≠ "no-default" := by decide +kernel
  have names : (workspaces.all.map Workspace.name).Nodup := by decide
  have unbracketed : ∀ workspace ∈ workspaces.all, '[' ∉ workspace.name.toList := by
    decide +kernel
  obtain ⟨ids, joins⟩ :=
    build_identifies labels docs names unbracketed { miriExhaustive := true }
  have joined := joins Unit pipeline () { tree := .empty, here := .root }
  have stopped :
      execution.result.termination =
        .aborted 3 (some id)
          (.workspaceUnavailable
            "workspace 'a' directory /a does not exist: No such file or directory (os error 2)") := by
    decide +kernel
  obtain ⟨step, identifies⟩ := joined.stop 3 id _ stopped
  refine ⟨labels, docs, names, unbracketed, ids, ⟨_, step, stopped, identifies⟩, ?_⟩
  intro record member
  obtain ⟨step, identifies, _⟩ := joined.records record member
  exact ⟨step, identifies⟩

end VerifyPipeline
