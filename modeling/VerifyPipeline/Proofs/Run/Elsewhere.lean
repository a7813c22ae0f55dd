import VerifyPipeline.Proofs.Run.Attempts
import VerifyPipeline.Proofs.Run.PlanOrder
import VerifyPipeline.Proofs.Workspace.Guards

namespace VerifyPipeline

/-!
# Runs from elsewhere

Workspaces are found from the project's root, so it does not matter which directory is current when
one of them is entered.  The only trace of that directory is that it becomes current again, and the
next workspace is again found from the root.  So a run comes to the same from wherever it is
started, as long as its runner does not look at the slot, and no program removes the directory that
is current when a workspace has been left: then the next one cannot be entered.
-/

namespace Host

/-- Two hosts differ in nothing but their current directory, which has not been removed in either
of them. -/
structure Elsewhere (first second : Host) : Prop where
  tree : second.tree = first.tree
  held : second.held? = first.held?
  clock : second.clock = first.clock
  there : first.here.removed = []
  thereToo : second.here.removed = []

/-- Entering a workspace in one host and in another comes to the same. -/
inductive SameEntry (project : Project) (workspace : Workspace) (first second : Host) : Prop where
  /-- Both are refused, with the same error. -/
  | refused
      {why : WorkspaceError} :
      first.enter project workspace = .error why →
      second.enter project workspace = .error why →
      SameEntry project workspace first second
  /-- Both hold the workspace that is held once more, and stay where they are. -/
  | nested
      {held : HeldWorkspace} :
      first.held? = some held →
      first.enter project workspace =
        .ok { first with held? := some { held with depth := held.depth + 1 } } →
      second.enter project workspace =
        .ok { second with held? := some { held with depth := held.depth + 1 } } →
      SameEntry project workspace first second
  /-- Both go to the same directory, and have their own one to come back to. -/
  | taken
      {directory : Location} :
      first.enter project workspace =
        .ok { first with
          here := .ofLocation directory
          held? := some ⟨workspace.name, directory, first.here.live, 1⟩ } →
      second.enter project workspace =
        .ok { second with
          here := .ofLocation directory
          held? := some ⟨workspace.name, directory, second.here.live, 1⟩ } →
      SameEntry project workspace first second

variable
  {host first second : Host}
  {project : Project}
  {workspace : Workspace}

/-- A free slot is taken from every directory that has not been removed. -/
theorem enter_of_there
    {directory : Location}
    (there : host.here.removed = [])
    (free : host.held? = none)
    (found : project.directoryOf workspace host = .ok directory) :
    host.enter project workspace =
      .ok { host with
        here := .ofLocation directory
        held? := some ⟨workspace.name, directory, host.here.live, 1⟩ } := by
  simp [enter, found, hold, free, currentDirectory, there, bind, Except.bind]

/-- Which directory is current does not matter to entering. -/
theorem Elsewhere.sameEntry
    (elsewhere : first.Elsewhere second)
    (project : Project)
    (workspace : Workspace) :
    SameEntry project workspace first second := by
  have same : project.directoryOf workspace second = project.directoryOf workspace first :=
    Project.directoryOf_congr elsewhere.tree project workspace
  cases found : project.directoryOf workspace first with
  | error why =>
      exact .refused (enter_of_lost found) (enter_of_lost (same.trans found))
  | ok directory =>
      have foundToo := same.trans found
      cases holder : first.held? with
      | some held =>
          have entering := enter_of_held holder found
          have enteringToo := enter_of_held (elsewhere.held.trans holder) foundToo
          by_cases isHeld : held.directory = directory
          · rw [if_pos isHeld] at entering enteringToo
            exact .nested holder entering enteringToo
          · rw [if_neg isHeld] at entering enteringToo
            exact .refused entering enteringToo
      | none =>
          have freeToo := elsewhere.held.trans holder
          exact .taken (enter_of_there elsewhere.there holder found)
            (enter_of_there elsewhere.thereToo freeToo foundToo)

/-- Two hosts that hold a workspace once, and differ in the directory before it, differ in nothing
but their current directory when they have left the workspace. -/
theorem elsewhere_leave
    {held other : HeldWorkspace}
    (once : held.depth = 1)
    (onceToo : other.depth = 1)
    (there : { host with held? := some held }.leave.1.here.removed = [])
    (thereToo : { host with held? := some other }.leave.1.here.removed = []) :
    { host with held? := some held }.leave.1.Elsewhere
      { host with held? := some other }.leave.1 := by
  have leaves (held : HeldWorkspace) (once : held.depth = 1) :
      { host with held? := some held }.leave =
        { host with held? := some held }.restore held :=
    leave_of_once rfl once
  rw [leaves held once] at there ⊢
  rw [leaves other onceToo] at thereToo ⊢
  obtain ⟨tree, clock, free⟩ := { host with held? := some held }.restore_frame held
  obtain ⟨treeToo, clockToo, freeToo⟩ := { host with held? := some other }.restore_frame other
  exact {
    tree := treeToo.trans tree.symm
    held := freeToo.trans free.symm
    clock := clockToo.trans clock.symm
    there := there
    thereToo := thereToo
  }

end Host

/-- A runner that neither looks at the slot nor touches it. -/
def Runner.Oblivious (runner : Runner σ) : Prop :=
  ∀ step state host held?,
    runner.run step state { host with held? := held? } =
      ((runner.run step state host).1, { (runner.run step state host).2 with held? := held? })

/-- The same call in hosts that hold a workspace. -/
def Call.holding (call : Call σ) (held : HeldWorkspace) : Call σ :=
  { call with
    entered := { call.entered with held? := some held }
    left := { call.left with held? := some held } }

namespace Pipeline

variable
  {pipeline : Pipeline σ}
  {first second : Host}

theorem callFor_holding
    (oblivious : pipeline.runner.Oblivious)
    (step : Step)
    (state : σ)
    (inside : Host)
    (held : HeldWorkspace) :
    pipeline.callFor step state { inside with held? := some held } =
      (pipeline.callFor step state inside).holding held := by
  simp only [callFor, oblivious step state inside (some held), Call.holding]

/-- Noting goes on from what has been noted. -/
theorem getElem?_noted
    {noted : σ × List (Call σ)}
    {host : Host}
    {call : Call σ}
    {number : Nat}
    (isCall : noted.2[number]? = some call)
    (pipeline : Pipeline σ)
    (index : Nat)
    (steps : List Step) :
    (pipeline.noting.runSteps index steps noted host).state.2[number]? = some call := by
  obtain ⟨_, passes⟩ := pipeline.noting.passes_runSteps index steps noted host
  obtain ⟨bound, _⟩ := List.getElem?_eq_some_iff.mp isCall
  rw [passes.chain.of_noting.1, List.getElem?_append_left bound]
  exact isCall

/-- Wherever calls for so many planned steps go on to another step, the directory that is current
when the workspace has been left has not been removed. -/
def GoesOnThere (pipeline : Pipeline σ) (calls : List (Call σ)) (planned : Nat) : Prop :=
  ∀ number call,
    calls[number]? = some call →
      number + 1 < planned →
        pipeline.reason? call = none → call.left.leave.1.here.removed = []

/-- Executing steps that does not end with its first call, goes on after it. -/
theorem GoesOnThere.tail
    {host entered : Host}
    {step : Step}
    {rest : List Step}
    {index : Nat}
    {noted : σ × List (Call σ)}
    (stays :
      pipeline.GoesOnThere (pipeline.noting.runSteps index (step :: rest) noted host).state.2
        (noted.2.length + (step :: rest).length))
    (entering : host.enter pipeline.project step.workspace = .ok entered)
    (goesOn : pipeline.reason? (pipeline.callFor step noted.1 entered) = none) :
    let call := pipeline.callFor step noted.1 entered
    let after := (call.after, noted.2 ++ [call])
    (rest ≠ [] → call.left.leave.1.here.removed = []) ∧
      pipeline.GoesOnThere
        (pipeline.noting.runSteps (index + 1) rest after call.left.leave.1).state.2
        (after.2.length + rest.length) := by
  intro call after
  have watched := runSteps_of_makes (pipeline.noting.makes_callFor entering noted) index rest
  have sameReason : pipeline.noting.reason? (pipeline.noting.callFor step noted entered) = none :=
    goesOn
  rw [sameReason] at watched
  have ended := congrArg Passage.state watched
  have unfolded :
      (pipeline.noting.runSteps index (step :: rest) noted host).state =
        (pipeline.noting.runSteps (index + 1) rest after call.left.leave.1).state :=
    ended
  have planned : noted.2.length + (step :: rest).length = after.2.length + rest.length := by
    simp only [after, List.length_append, List.length_cons, List.length_nil]
    omega
  rw [unfolded, planned] at stays
  refine ⟨fun more => ?_, stays⟩
  have isCall : after.2[noted.2.length]? = some call := by
    simp [after]
  have room : noted.2.length + 1 < after.2.length + rest.length := by
    have positive := List.length_pos_iff.mpr more
    simp only [after, List.length_append, List.length_singleton]
    omega
  exact stays _ call (getElem?_noted isCall _ _ _) room goesOn

/-- Executing steps comes to the same from elsewhere. -/
theorem runSteps_of_elsewhere
    (oblivious : pipeline.runner.Oblivious)
    (elsewhere : first.Elsewhere second)
    (free : first.held? = none)
    (index : Nat)
    (steps : List Step)
    (state : σ)
    (calls others : List (Call σ))
    (stays :
      pipeline.GoesOnThere (pipeline.noting.runSteps index steps (state, calls) first).state.2
        (calls.length + steps.length))
    (staysToo :
      pipeline.GoesOnThere (pipeline.noting.runSteps index steps (state, others) second).state.2
        (others.length + steps.length)) :
    (pipeline.runSteps index steps state second).records =
        (pipeline.runSteps index steps state first).records ∧
      (pipeline.runSteps index steps state second).termination =
        (pipeline.runSteps index steps state first).termination ∧
      (pipeline.runSteps index steps state second).state =
        (pipeline.runSteps index steps state first).state := by
  induction steps generalizing index state calls others first second with
  | nil =>
      exact ⟨rfl, rfl, rfl⟩
  | cons step rest inductionHypothesis =>
      cases elsewhere.sameEntry pipeline.project step.workspace with
      | refused refused refusedToo =>
          rw [pipeline.runSteps_of_enter_error refused,
            pipeline.runSteps_of_enter_error refusedToo]
          exact ⟨rfl, rfl, rfl⟩
      | nested holder _ _ =>
          rw [free] at holder
          contradiction
      | @taken directory entered enteredToo =>
          let inside : Host := { first with here := .ofLocation directory }
          let call := pipeline.callFor step state inside
          let held : HeldWorkspace := ⟨step.workspace.name, directory, first.here.live, 1⟩
          let other : HeldWorkspace := ⟨step.workspace.name, directory, second.here.live, 1⟩
          rw [elsewhere.tree, elsewhere.clock] at enteredToo
          have made : pipeline.callFor step state { inside with held? := some held } = _ :=
            callFor_holding oblivious step state inside held
          have madeToo : pipeline.callFor step state { inside with held? := some other } = _ :=
            callFor_holding oblivious step state inside other
          have makes : pipeline.Makes first (call.holding held) :=
            made ▸ pipeline.makes_callFor entered state
          have makesToo : pipeline.Makes second (call.holding other) :=
            madeToo ▸ pipeline.makes_callFor enteredToo state
          have unfolded := runSteps_of_makes makes index rest
          have unfoldedToo := runSteps_of_makes makesToo index rest
          change pipeline.runSteps index (step :: rest) state first = _ at unfolded
          change pipeline.runSteps index (step :: rest) state second = _ at unfoldedToo
          rw [unfolded, unfoldedToo]
          have sameReason :
              pipeline.reason? (call.holding other) = pipeline.reason? (call.holding held) :=
            rfl
          rw [sameReason]
          cases stops : pipeline.reason? (call.holding held) with
          | some reason =>
              exact ⟨rfl, rfl, rfl⟩
          | none =>
              obtain ⟨there, later⟩ := stays.tail entered (made ▸ stops)
              obtain ⟨thereToo, laterToo⟩ := staysToo.tail enteredToo (madeToo ▸ stops)
              rw [made] at there later
              rw [madeToo] at thereToo laterToo
              by_cases more : rest = []
              · subst more
                exact ⟨rfl, rfl, rfl⟩
              · have left :
                    (call.holding held).left.leave.1.Elsewhere (call.holding other).left.leave.1 :=
                  Host.elsewhere_leave rfl rfl (there more) (thereToo more)
                have holder : (call.holding held).left.held? = some held := rfl
                obtain ⟨records, termination, final⟩ :=
                  inductionHypothesis left (Host.leave_of_held_once holder rfl) (index + 1)
                    call.after _ _ later laterToo
                exact ⟨congrArg (List.cons _) records, termination, final⟩

/-- Wherever a run goes on to another step, the directory that is current when the workspace has
been left has not been removed. -/
def StandsThere (pipeline : Pipeline σ) (plan : Plan) (state : σ) (host : Host) : Prop :=
  pipeline.GoesOnThere (pipeline.noting.execute plan (state, []) host).state.2 plan.steps.length

/-- Executing a plan comes to the same from elsewhere. -/
theorem execute_of_elsewhere
    (oblivious : pipeline.runner.Oblivious)
    (elsewhere : first.Elsewhere second)
    (free : first.held? = none)
    (plan : Plan)
    (state : σ)
    (stands : pipeline.StandsThere plan state first)
    (standsToo : pipeline.StandsThere plan state second) :
    (pipeline.execute plan state second).result = (pipeline.execute plan state first).result ∧
      (pipeline.execute plan state second).state = (pipeline.execute plan state first).state := by
  have freeToo := elsewhere.held.trans free
  unfold StandsThere at stands standsToo
  rw [execute_of_free free] at stands
  rw [execute_of_free freeToo] at standsToo
  have planned : ([] : List (Call σ)).length + plan.steps.length = plan.steps.length :=
    Nat.zero_add _
  obtain ⟨records, termination, final⟩ :=
    runSteps_of_elsewhere oblivious elsewhere free 0 plan.steps state [] []
      (planned.symm ▸ stands) (planned.symm ▸ standsToo)
  rw [execute_of_free free, execute_of_free freeToo]
  refine ⟨?_, final⟩
  simp only [executeFree, records, termination]

end Pipeline

namespace ProcessRunner

/-- A program is started in the current directory, whatever is held. -/
theorem launch_slot
    (runner : ProcessRunner)
    (command : ToolCommand)
    (state : ProcessState)
    (host : Host)
    (held? : Option HeldWorkspace) :
    runner.launch command state { host with held? := held? } =
      ((runner.launch command state host).1,
        { (runner.launch command state host).2 with held? := held? }) := by
  have same :
      runner.refusal? { host with held? := held? } command.args state.attempts.length =
        runner.refusal? host command.args state.attempts.length :=
    rfl
  unfold launch
  rw [same]
  cases runner.refusal? host command.args state.attempts.length <;> rfl

theorem runCommands_slot
    (runner : ProcessRunner)
    (commands : List ToolCommand)
    (state : ProcessState)
    (host : Host)
    (held? : Option HeldWorkspace) :
    runner.runCommands commands state { host with held? := held? } =
      ((runner.runCommands commands state host).1,
        { (runner.runCommands commands state host).2 with held? := held? }) := by
  induction commands generalizing state host with
  | nil =>
      rfl
  | cons command rest inductionHypothesis =>
      rcases launched : runner.launch command state host with ⟨⟨status, after⟩, left⟩
      have launchedToo := runner.launch_slot command state host held?
      rw [launched] at launchedToo
      unfold runCommands
      rw [launched, launchedToo]
      rcases noticed : runner.notice after with ⟨_ | signal, noted⟩
      · simp only [noticed]
        split
        · exact inductionHypothesis noted left
        · rfl
      · simp only [noticed]

/-- A process runner only uses the directory that is current when a step is begun. -/
theorem oblivious (runner : ProcessRunner) : runner.toRunner.Oblivious := by
  intro step state host held?
  change runner.run step state { host with held? := held? } =
    ((runner.run step state host).1, { (runner.run step state host).2 with held? := held? })
  unfold run
  rcases runner.notice (runner.begun state) with ⟨_ | signal, noted⟩
  · exact runner.runCommands_slot step.commands noted host held?
  · rfl

/--
It does not matter in which directory a run is started, as long as that has not
been removed, nor has the directory that is current when a workspace has been
left and the run goes on to another step: the results are equal, and every
command is attempted in the same directory.  Nor does it matter to entering a
workspace, whatever is held: both are refused with the same error, or both stay
where they are, or both go to the same directory.
-/
theorem execute_independent_of_start
    {first second : Host}
    (elsewhere : first.Elsewhere second) :
    (first.held? = none →
        ∀ (runner : ProcessRunner) (project : Project) (interruptPolicy : InterruptPolicy)
          (plan : Plan) (state : ProcessState),
          let pipeline := runner.pipeline project interruptPolicy
          pipeline.StandsThere plan state first →
            pipeline.StandsThere plan state second →
              (pipeline.execute plan state second).result =
                  (pipeline.execute plan state first).result ∧
                (pipeline.execute plan state second).state =
                  (pipeline.execute plan state first).state) ∧
      ∀ (project : Project) (workspace : Workspace),
        Host.SameEntry project workspace first second := by
  refine ⟨fun free runner project interruptPolicy plan state => ?_, elsewhere.sameEntry⟩
  exact Pipeline.execute_of_elsewhere runner.oblivious elsewhere free plan state

/-- The theorem at a run that is started at the root, and in the workspace of its first step, which
is reached through a link.  The program is given by a relative path; it makes a directory when it
is run first, and fails when it is run again.  The workspace of the last step is missing. -/
theorem execute_independent_of_start_linked :
    let tree : FileTree :=
      { entries := [
          (["p"], .directory), (["q"], .directory), (["p", "lexical-asm"], .link "../q"),
          (["p", "lexical-size"], .directory), (["q", "tool"], .file 0),
          (["p", "lexical-size", "tool"], .file 0)]
        files := [(0, { executable := true })] }
    let first : Host := { tree, here := .root }
    let second : Host := { tree, here := .ofLocation ["q"] }
    let runner : ProcessRunner :=
      { program := "./tool"
        listens := true
        installed := []
        rustflags := none
        rustdocflags := none
        children := fun number =>
          if number = 0 then
            { acts := fun scene =>
                { scene with tree := scene.tree.put (scene.here.live ++ ["made"]) .directory } }
          else { ending := 256 } }
    let pipeline := runner.pipeline ⟨["p"]⟩ .abort
    let plan : Plan :=
      ⟨WorkspaceSet.lexical.auxiliary.map fun workspace =>
        ⟨.baseline, .test, workspace, .default, .recordAndContinue⟩⟩
    let execution := pipeline.execute plan {} second
    first.Elsewhere second ∧
      (pipeline.StandsThere plan {} first ∧ pipeline.StandsThere plan {} second) ∧
      execution.result = (pipeline.execute plan {} first).result ∧
      execution.result.records.map StepRecord.status = [.passed, .failed (some 1) none] ∧
      execution.state = (pipeline.execute plan {} first).state ∧
      execution.state.attempts.map Attempt.directory =
        [.ofLocation ["p", "lexical-size"], .ofLocation ["q"]] ∧
      execution.host.tree.get? ["q", "made"] = some .directory := by
  intro tree first second runner pipeline plan execution
  have elsewhere : first.Elsewhere second := ⟨rfl, rfl, rfl, rfl, rfl⟩
  have stands (host : Host) (isStart : host = first ∨ host = second) :
      pipeline.StandsThere plan {} host := by
    have each :
        (pipeline.noting.execute plan ({}, []) host).state.2.map
            (fun call => call.left.leave.1.here.removed) =
          [[], []] := by
      rcases isStart with rfl | rfl <;> decide +kernel
    intro _ call isCall _ _
    have noted :=
      List.mem_map_of_mem (f := fun call => call.left.leave.1.here.removed)
        (List.mem_of_getElem? isCall)
    rw [each] at noted
    simpa using noted
  have standsFirst := stands first (.inl rfl)
  have standsSecond := stands second (.inr rfl)
  obtain ⟨result, state⟩ :=
    (execute_independent_of_start elsewhere).1 rfl runner ⟨["p"]⟩ .abort plan {} standsFirst
      standsSecond
  exact ⟨elsewhere, ⟨standsFirst, standsSecond⟩, result, by decide +kernel, state,
    by decide +kernel, by decide +kernel⟩

/-- A program that removes the directory in which it is started, does not keep a run from going on
that was started at the root.  A run that was started in that directory does not find it again, and
cannot enter the next workspace. -/
theorem execute_depends_on_removed_start :
    let tree : FileTree :=
      { entries := [(["lexical-asm"], .directory), (["lexical-size"], .directory)] }
    let first : Host := { tree, here := .root }
    let second : Host := { tree, here := .ofLocation ["lexical-asm"] }
    let runner : ProcessRunner :=
      { program := "cargo"
        listens := true
        installed := ["cargo"]
        rustflags := none
        rustdocflags := none
        children := fun number =>
          if number = 0 then
            { acts := fun scene =>
                ⟨scene.tree.remove scene.here.live, scene.here.afterRemoval scene.here.live⟩ }
          else {} }
    let pipeline := runner.pipeline ⟨[]⟩ .abort
    let plan : Plan :=
      ⟨(WorkspaceSet.lexical.auxiliary.take 2).map fun workspace =>
        ⟨.baseline, .test, workspace, .default, .recordAndContinue⟩⟩
    first.Elsewhere second ∧
      first.held? = none ∧
      (pipeline.execute plan {} first).result.termination = .completed ∧
      (pipeline.execute plan {} second).result.termination =
        .aborted 1 (some "baseline/test@lexical-size[default]")
          (.workspaceUnavailable
            "cannot enter workspace 'lexical-size' at /lexical-size: No such file or directory (os error 2)") := by
  intro tree first second runner pipeline plan
  exact ⟨⟨rfl, rfl, rfl, rfl, rfl⟩, rfl, by decide +kernel, by decide +kernel⟩

end ProcessRunner

end VerifyPipeline
