import VerifyPipeline.Proofs.Run.Calls
import VerifyPipeline.Proofs.Runner.Commands

namespace VerifyPipeline

/-!
# The attempts of a run

With a process runner, the attempts of a run are those of its calls, one after the other: each call
has a part of them, which is what its step attempts in its own directory.  `Divides` relates a chain
of calls to such parts.  It carries what the next call relies on: the files are what the attempts
so far have made of them, no workspace is held, and no signal waits that has arrived before the last
call ended.
-/

/-! The items of a list that count are numbered, also when the list is given in parts. -/

theorem exists_split_of_lt_countP
    {counts : α → Bool}
    {items : List α}
    {number : Nat}
    (bound : number < items.countP counts) :
    ∃ before item after,
      items = before ++ item :: after ∧
        counts item = true ∧
        before.countP counts = number := by
  induction items generalizing number with
  | nil =>
      simp at bound
  | cons item rest inductionHypothesis =>
      by_cases counted : counts item = true
      · cases number with
        | zero =>
            exact ⟨[], item, rest, rfl, counted, rfl⟩
        | succ number =>
            have smaller : number < rest.countP counts := by
              simpa [counted] using bound
            obtain ⟨before, other, after, rfl, found, position⟩ := inductionHypothesis smaller
            exact ⟨item :: before, other, after, rfl, found, by simp [counted, position]⟩
      · have same : number < rest.countP counts := by
          simpa [counted] using bound
        obtain ⟨before, other, after, rfl, found, position⟩ := inductionHypothesis same
        exact ⟨item :: before, other, after, rfl, found, by simp [counted, position]⟩

theorem exists_part_of_lt_countP
    {counts : α → Bool}
    {parts : List (List α)}
    {number : Nat}
    (bound : number < parts.flatten.countP counts) :
    ∃ index before item after,
      parts[index]? = some (before ++ item :: after) ∧
        counts item = true ∧
        ((parts.take index).flatten ++ before).countP counts = number := by
  induction parts generalizing number with
  | nil =>
      simp at bound
  | cons part rest inductionHypothesis =>
      rw [List.flatten_cons, List.countP_append] at bound
      rcases Nat.lt_or_ge number (part.countP counts) with inside | beyond
      · obtain ⟨before, item, after, rfl, counted, position⟩ := exists_split_of_lt_countP inside
        exact ⟨0, before, item, after, rfl, counted, position⟩
      · obtain ⟨offset, rfl⟩ := Nat.exists_eq_add_of_le beyond
        obtain ⟨index, before, item, after, found, counted, position⟩ :=
          inductionHypothesis (Nat.lt_of_add_lt_add_left bound)
        refine ⟨index + 1, before, item, after, found, counted, ?_⟩
        simp only [List.take_succ_cons, List.flatten_cons, List.append_assoc, List.countP_append]
        rw [← List.countP_append, position]

namespace ProcessRunner

/-- The pipeline of a process runner. -/
def pipeline
    (runner : ProcessRunner)
    (project : Project)
    (interruptPolicy : InterruptPolicy) :
    Pipeline ProcessState where
  runner := runner.toRunner
  project := project
  interruptPolicy := interruptPolicy

/-- The signal that the runner notices when the step at a position of a run is begun.  A signal that
waits already when the run is begun is noticed at its first step. -/
def waitingAt? (runner : ProcessRunner) (state : ProcessState) (index : Nat) : Option Int32 :=
  if runner.listens then
    (runner.interim (state.steps + index)).getLast?.or
      (if index = 0 then state.pending? else none)
  else none

/-- The files as the step at a position of a run finds them. -/
def treeAt
    (runner : ProcessRunner)
    (state : ProcessState)
    (tree : FileTree)
    (parts : List (List Attempt))
    (index : Nat) :
    FileTree :=
  (runner.sceneAfterAll state.attempts.reverse ⟨tree, .root⟩ (parts.take index).flatten).tree

/-- A part of the attempts of a run is what the step at its position attempts in its workspace, as
that is found when the step is begun. -/
structure AccountsAt
    (runner : ProcessRunner)
    (project : Project)
    (state : ProcessState)
    (host : Host)
    (parts : List (List Attempt))
    (index : Nat)
    (step : Step)
    (directory : Location)
    (part : List Attempt)
    (status : StepStatus) : Prop
    extends runner.Accounts step ⟨runner.treeAt state host.tree parts index, .ofLocation directory⟩
      (runner.waitingAt? state index) (state.attempts.reverse ++ (parts.take index).flatten) part
      status where
  found :
    project.directoryOf step.workspace
        { host with tree := runner.treeAt state host.tree parts index } =
      .ok directory
  /-- The step stays in the directory unless a program moves or removes it. -/
  within :
    (∀ number scene, ((runner.children number).acts scene).here = scene.here) →
      ∀ attempt ∈ part, attempt.directory = .ofLocation directory

/-- The attempts of a chain of calls are divided into parts, one for each call. -/
structure Divides
    (runner : ProcessRunner)
    (project : Project)
    (state : ProcessState)
    (host : Host)
    (calls : List (Call ProcessState))
    (final : ProcessState)
    (last : Host)
    (parts : List (List Attempt)) : Prop where
  attempts : final.attempts.reverse = state.attempts.reverse ++ parts.flatten
  each : parts.length = calls.length
  accounted :
    ∀ index call part,
      calls[index]? = some call →
        parts[index]? = some part →
          ∃ directory,
            runner.AccountsAt project state host parts index call.step directory part call.status
  steps : final.steps = state.steps + calls.length
  calm :
    runner.listens = true →
      final.pending? = if calls.isEmpty then state.pending? else none
  tree : last.tree = runner.treeAt state host.tree parts parts.length
  free : last.held? = none

variable
  {runner : ProcessRunner}
  {project : Project}
  {interruptPolicy : InterruptPolicy}
  {state final : ProcessState}
  {host last : Host}

/-- What waits at the first step is what waits when the run is begun. -/
theorem waitingAt?_zero
    (runner : ProcessRunner)
    (state : ProcessState) :
    runner.waitingAt? state 0 = runner.waiting? state :=
  rfl

/-- After calls, the positions of the steps are counted from the next one on. -/
theorem waitingAt?_add
    (runner : ProcessRunner)
    {state after : ProcessState}
    {calls : List (Call ProcessState)}
    (steps : after.steps = state.steps + calls.length)
    (calm :
      runner.listens = true →
        after.pending? = if calls.isEmpty then state.pending? else none)
    (index : Nat) :
    runner.waitingAt? state (calls.length + index) = runner.waitingAt? after index := by
  unfold waitingAt?
  split
  · rename_i hears
    rw [steps, calm hears, Nat.add_assoc]
    cases calls with
    | nil =>
        simp
    | cons call rest =>
        simp
  · rfl

/-- After parts of the attempts, the files are what those have made of them. -/
theorem treeAt_append
    {between : ProcessState}
    {tree middle : FileTree}
    {parts : List (List Attempt)}
    (attempts : between.attempts.reverse = state.attempts.reverse ++ parts.flatten)
    (made : middle = runner.treeAt state tree parts parts.length)
    (others : List (List Attempt))
    (offset : Nat) :
    runner.treeAt state tree (parts ++ others) (parts.length + offset) =
      runner.treeAt between middle others offset := by
  rw [treeAt, List.take_length] at made
  rw [treeAt, treeAt, List.take_length_add_append, List.flatten_append, sceneAfterAll_append,
    attempts]
  exact tree_sceneAfterAll_congr made.symm _ _

/-- Parts behind a position do not matter to what is found there. -/
theorem treeAt_of_le
    {parts : List (List Attempt)}
    {index : Nat}
    (inside : index ≤ parts.length)
    (state : ProcessState)
    (tree : FileTree)
    (others : List (List Attempt)) :
    runner.treeAt state tree (parts ++ others) index = runner.treeAt state tree parts index := by
  rw [treeAt, treeAt, List.take_append_of_le_length inside]

/-- The attempts of a single call are one part. -/
theorem divides_of_makes
    {call : Call ProcessState}
    (makes : (runner.pipeline project interruptPolicy).Makes host call)
    (free : host.held? = none) :
    ∃ part,
      runner.Divides project call.given host [call] call.after call.left.leave.1 [part] := by
  obtain ⟨directory, previous, found, inside, held⟩ := Host.enter_of_free free makes.entered
  obtain ⟨part, status, after, left, ran, accounts, leaves⟩ :=
    runner.accounts_run call.step call.given call.entered
  obtain ⟨⟨rfl, rfl⟩, rfl⟩ : (status = call.status ∧ after = call.after) ∧ left = call.left := by
    have returned := ran.symm.trans makes.returned
    simpa using returned
  have enteredTree : call.entered.tree = host.tree := (Host.enter_frame makes.entered).1
  have scene : call.entered.scene = ⟨host.tree, .ofLocation directory⟩ := by
    rw [Host.scene, enteredTree, inside]
  refine ⟨part, ?_⟩
  exact {
    attempts := by simpa [begun] using leaves.attempts
    each := rfl
    accounted := by
      intro index other otherPart isCall isPart
      obtain ⟨rfl, rfl⟩ : index = 0 ∧ call = other := by
        simpa [List.getElem?_singleton] using isCall
      obtain rfl : part = otherPart := by simpa using isPart
      rw [scene] at accounts
      refine ⟨directory, ?_, found, accounts.directory_eq⟩
      simpa [waitingAt?_zero, treeAt, sceneAfterAll] using accounts
    steps := leaves.steps
    calm := leaves.calm
    tree := by
      have treeLeft : call.left.tree = _ := congrArg Scene.tree leaves.scene
      rw [call.left.leave_frame.1, treeLeft, treeAt, List.take_length, List.flatten_singleton]
      exact tree_sceneAfterAll_congr enteredTree _ _
    free := Host.leave_of_held_once (leaves.held.trans held) rfl
  }

/-- Calls that follow others add what they would add by themselves. -/
theorem Divides.append
    {between : ProcessState}
    {middle : Host}
    {calls more : List (Call ProcessState)}
    {parts others : List (List Attempt)}
    (first : runner.Divides project state host calls between middle parts)
    (second : runner.Divides project between middle more final last others) :
    runner.Divides project state host (calls ++ more) final last (parts ++ others) where
  attempts := by
    rw [second.attempts, first.attempts, List.flatten_append, List.append_assoc]
  each := by
    simp [first.each, second.each]
  accounted := by
    intro index call part isCall isPart
    rcases Nat.lt_or_ge index calls.length with early | late
    · rw [List.getElem?_append_left early] at isCall
      rw [List.getElem?_append_left (first.each ▸ early)] at isPart
      have within : index ≤ parts.length := first.each ▸ Nat.le_of_lt early
      obtain ⟨directory, accounts, found, inside⟩ := first.accounted index call part isCall isPart
      refine ⟨directory, ?_, ?_, inside⟩
      · rw [treeAt_of_le within, List.take_append_of_le_length within]
        exact accounts
      · rw [treeAt_of_le within]
        exact found
    · obtain ⟨offset, rfl⟩ := Nat.exists_eq_add_of_le late
      rw [List.getElem?_append_right late, Nat.add_sub_cancel_left] at isCall
      rw [← first.each, List.getElem?_append_right (Nat.le_add_right _ _),
        Nat.add_sub_cancel_left] at isPart
      obtain ⟨directory, accounts, found, inside⟩ :=
        second.accounted offset call part isCall isPart
      have sameTree := treeAt_append first.attempts first.tree others offset
      rw [first.attempts, List.append_assoc] at accounts
      refine ⟨directory, ?_, ?_, inside⟩
      · rw [← first.each, sameTree, List.take_length_add_append, List.flatten_append, first.each,
          runner.waitingAt?_add first.steps first.calm]
        exact accounts
      · rw [← first.each, ← found]
        exact Project.directoryOf_congr sameTree _ _
  steps := by
    rw [second.steps, first.steps, List.length_append, Nat.add_assoc]
  calm := by
    intro hears
    rw [second.calm hears, first.calm hears]
    cases calls <;> cases more <;> rfl
  tree := by
    rw [second.tree, List.length_append]
    exact (treeAt_append first.attempts first.tree others others.length).symm
  free := second.free

theorem Divides.accounts_at
    {calls : List (Call ProcessState)}
    {parts : List (List Attempt)}
    (divides : runner.Divides project state host calls final last parts)
    {index : Nat}
    (bound : index < calls.length) :
    ∃ part directory,
      parts[index]? = some part ∧
        runner.AccountsAt project state host parts index calls[index].step directory part
          calls[index].status := by
  have partBound : index < parts.length := divides.each ▸ bound
  have isPart : parts[index]? = some parts[index] := List.getElem?_eq_getElem partBound
  obtain ⟨directory, accounts⟩ :=
    divides.accounted index calls[index] parts[index] (List.getElem?_eq_getElem bound) isPart
  exact ⟨parts[index], directory, isPart, accounts⟩

/-- Every chain of calls divides its attempts. -/
theorem divides_of_chain
    {calls : List (Call ProcessState)}
    (chain : (runner.pipeline project interruptPolicy).Chain state host calls final last)
    (free : host.held? = none) :
    ∃ parts, runner.Divides project state host calls final last parts := by
  induction chain with
  | nil =>
      exact ⟨[], {
        attempts := by simp
        each := rfl
        accounted := by simp
        steps := rfl
        calm := fun _ => rfl
        tree := rfl
        free := free
      }⟩
  | cons makes _ inductionHypothesis =>
      obtain ⟨part, first⟩ := divides_of_makes makes free
      obtain ⟨parts, later⟩ := inductionHypothesis first.free
      exact ⟨part :: parts, first.append later⟩

/-- A run of a plan comes down to calls, among which its attempts are divided. -/
structure Unfolds
    (runner : ProcessRunner)
    (project : Project)
    (interruptPolicy : InterruptPolicy)
    (plan : Plan)
    (state : ProcessState)
    (host : Host)
    (calls : List (Call ProcessState))
    (parts : List (List Attempt)) : Prop where
  passes :
    (runner.pipeline project interruptPolicy).Passes 0 plan.steps state host calls
      ((runner.pipeline project interruptPolicy).runSteps 0 plan.steps state host)
  divides :
    runner.Divides project state host calls
      ((runner.pipeline project interruptPolicy).executeFree plan state host).state
      ((runner.pipeline project interruptPolicy).executeFree plan state host).host parts

/-- Every run of a process runner divides its attempts among its calls. -/
theorem exists_unfolds
    (runner : ProcessRunner)
    (project : Project)
    (interruptPolicy : InterruptPolicy)
    (plan : Plan)
    (state : ProcessState)
    {host : Host}
    (free : host.held? = none) :
    ∃ calls parts, runner.Unfolds project interruptPolicy plan state host calls parts := by
  obtain ⟨calls, passes⟩ :=
    (runner.pipeline project interruptPolicy).passes_runSteps 0 plan.steps state host
  obtain ⟨parts, divides⟩ := divides_of_chain passes.chain free
  exact ⟨calls, parts, passes, divides⟩

/-- The child with a number is started for the step at a position, between other attempts of that
step. -/
structure Starts
    (state : ProcessState)
    (parts : List (List Attempt))
    (number index : Nat)
    (before : List Attempt)
    (attempt : Attempt)
    (after : List Attempt) : Prop where
  split : parts[index]? = some (before ++ attempt :: after)
  started : attempt.started = true
  counted :
    (state.attempts.reverse ++ (parts.take index).flatten ++ before).countP Attempt.started =
      number

/-- Parts behind that of a child do not change where it is started. -/
theorem Starts.append
    {parts : List (List Attempt)}
    {number index : Nat}
    {before after : List Attempt}
    {attempt : Attempt}
    (starts : Starts state parts number index before attempt after)
    (others : List (List Attempt)) :
    Starts state (parts ++ others) number index before attempt after := by
  have bound : index < parts.length := (List.getElem?_eq_some_iff.mp starts.split).1
  refine ⟨?_, starts.started, ?_⟩
  · rw [List.getElem?_append_left bound]
    exact starts.split
  · rw [List.take_append_of_le_length (Nat.le_of_lt bound)]
    exact starts.counted

/-- The number of a child is below that of the programs that were started in all. -/
theorem Starts.lt_started
    {parts : List (List Attempt)}
    {number index : Nat}
    {before after : List Attempt}
    {attempt : Attempt}
    (starts : Starts state parts number index before attempt after)
    (attempts : final.attempts.reverse = state.attempts.reverse ++ parts.flatten) :
    number < final.started := by
  obtain ⟨bound, found⟩ := List.getElem?_eq_some_iff.mp starts.split
  have cut : parts = parts.take index ++ parts[index] :: parts.drop (index + 1) := by
    simp
  have total := congrArg (List.countP Attempt.started) attempts
  have counted := starts.counted
  rw [cut, found] at total
  simp only [List.countP_reverse, List.countP_append, List.flatten_append, List.flatten_cons,
    List.countP_cons_of_pos starts.started] at total counted
  rw [ProcessState.started]
  omega

/-- The child with a number is the one that its step starts. -/
theorem Starts.nextChild_eq
    {parts : List (List Attempt)}
    {number index : Nat}
    {before after : List Attempt}
    {attempt : Attempt}
    (starts : Starts state parts number index before attempt after)
    (runner : ProcessRunner) :
    runner.nextChild (state.attempts.reverse ++ (parts.take index).flatten ++ before) =
      runner.children number := by
  rw [nextChild, starts.counted]

/-- Every child of a run is started for the step of one of its calls. -/
theorem Divides.exists_starts
    {calls : List (Call ProcessState)}
    {parts : List (List Attempt)}
    (divides : runner.Divides project state host calls final last parts)
    {number : Nat}
    (later : state.started ≤ number)
    (ran : number < final.started) :
    ∃ index before attempt after call directory,
      Starts state parts number index before attempt after ∧
        calls[index]? = some call ∧
        runner.AccountsAt project state host parts index call.step directory
          (before ++ attempt :: after) call.status := by
  have total : final.started = state.started + parts.flatten.countP Attempt.started := by
    have counts := congrArg (List.countP Attempt.started) divides.attempts
    simpa only [ProcessState.started, List.countP_append, List.countP_reverse] using counts
  obtain ⟨offset, rfl⟩ := Nat.exists_eq_add_of_le later
  rw [total] at ran
  obtain ⟨index, before, attempt, after, found, started, position⟩ :=
    exists_part_of_lt_countP (Nat.lt_of_add_lt_add_left ran)
  have bound : index < calls.length := by
    rw [← divides.each]
    exact (List.getElem?_eq_some_iff.mp found).1
  have isCall : calls[index]? = some calls[index] := List.getElem?_eq_getElem bound
  obtain ⟨directory, accounts⟩ := divides.accounted index calls[index] _ isCall found
  refine ⟨index, before, attempt, after, calls[index], directory, ⟨found, started, ?_⟩, isCall,
    accounts⟩
  rw [List.append_assoc, List.countP_append, position, List.countP_reverse]
  rfl

/-- The attempts of a run are attributed to its records, each of which has a part of them. -/
structure Attributes
    (runner : ProcessRunner)
    (project : Project)
    (plan : Plan)
    (state : ProcessState)
    (host : Host)
    (execution : Execution ProcessState)
    (parts : List (List Attempt)) : Prop where
  /-- There are no other attempts. -/
  attempts : execution.state.attempts.reverse = state.attempts.reverse ++ parts.flatten
  each : parts.length = execution.result.records.length
  accounted :
    ∀ index record part,
      execution.result.records[index]? = some record →
        parts[index]? = some part →
          ∃ step directory,
            plan.steps[index]? = some step ∧
              record =
                .ofStep index step (step.renderCommands runner.program) record.status
                  record.durationMs ∧
              runner.AccountsAt project state host parts index step directory part record.status

/-- Parts that belong to the calls of a run belong to its records. -/
theorem Unfolds.attributes
    {plan : Plan}
    {calls : List (Call ProcessState)}
    {parts : List (List Attempt)}
    (unfolds : runner.Unfolds project interruptPolicy plan state host calls parts) :
    runner.Attributes project plan state host
      ((runner.pipeline project interruptPolicy).executeFree plan state host) parts where
  attempts := unfolds.divides.attempts
  each := unfolds.divides.each.trans unfolds.passes.length_records.symm
  accounted := by
    intro index record part isRecord isPart
    obtain ⟨call, isCall, rfl⟩ := unfolds.passes.call_of_record isRecord
    obtain ⟨directory, accounts⟩ := unfolds.divides.accounted index call part isCall isPart
    exact ⟨call.step, directory, unfolds.passes.step_of_call isCall, rfl, accounts⟩

/-- A run that is refused attempts nothing. -/
theorem attributes_of_held
    (runner : ProcessRunner)
    (project : Project)
    (interruptPolicy : InterruptPolicy)
    (plan : Plan)
    (state : ProcessState)
    {held : HeldWorkspace}
    (holder : host.held? = some held) :
    runner.Attributes project plan state host
      ((runner.pipeline project interruptPolicy).execute plan state host) [] := by
  rw [Pipeline.execute_of_held holder]
  exact ⟨by simp [Pipeline.refuse], rfl, by simp⟩

/--
Every attempt of a run belongs to a record.  The attempts of a record are made
in its step's directory for its step's commands in order, up to the first one
that does not succeed, and there are none only if a signal was waiting.

The directory is that of the step's workspace in the files as they are when the
step is begun.  It is the same one for the whole step, but a program may have
moved or removed it when the next one is started.
-/
theorem execute_attributes_attempts
    (runner : ProcessRunner)
    (project : Project)
    (interruptPolicy : InterruptPolicy)
    (plan : Plan)
    (state : ProcessState)
    (host : Host) :
    ∃ parts,
      runner.Attributes project plan state host
        ((runner.pipeline project interruptPolicy).execute plan state host) parts := by
  cases holder : host.held? with
  | some held =>
      exact ⟨[], runner.attributes_of_held project interruptPolicy plan state holder⟩
  | none =>
      obtain ⟨_, parts, unfolds⟩ :=
        runner.exists_unfolds project interruptPolicy plan state holder
      rw [Pipeline.execute_of_free holder]
      exact ⟨parts, unfolds.attributes⟩

end ProcessRunner

end VerifyPipeline
