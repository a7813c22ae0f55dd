import Mathlib.Data.List.Induction
import VerifyPipeline.Runner.Process

namespace VerifyPipeline

/-!
# The attempts of a step

A process runner attempts the commands of a step in order and goes on only as long as they succeed.
`Tries` says what is attempted and which status follows from it, in terms of the attempts alone: how
many programs have been started before one determines the child that it starts, and so its end, the
signals that arrive in the meantime, and what becomes of the files and of the current directory.
`Accounts` adds the signal that may be waiting when a step is begun.  The executable runner is
connected to both by an induction over the commands.
-/

/-- Only the status word zero stands for success. -/
theorem classify_eq_passed_iff (raw : Int32) : classify raw = .passed ↔ raw = 0 := by
  constructor
  · intro passed
    unfold classify at passed
    split at passed
    · assumption
    · split at passed <;> (try split at passed) <;> contradiction
  · rintro rfl
    rfl

namespace StepStatus

/-- The status of a command after a signal may have been noticed.  An interruption that the status
tells already is kept. -/
def overruledBy (status : StepStatus) : Option Int32 → StepStatus
  | none => status
  | some signal => if status.isInterrupted then status else .interrupted signal

/-- A status is one of success, signals considered, if no signal has been noticed either. -/
theorem overruledBy_eq_passed_iff
    (status : StepStatus)
    (signal? : Option Int32) :
    status.overruledBy signal? = .passed ↔ status = .passed ∧ signal? = none := by
  cases signal? with
  | none =>
      simp [overruledBy]
  | some signal =>
      cases status <;> simp [overruledBy, isInterrupted]

/-- A status that is overruled by a signal tells an interruption. -/
theorem overruledBy_some
    (status : StepStatus)
    (signal : Int32) :
    ∃ told,
      status.overruledBy (some signal) = .interrupted told ∧
        (status = .interrupted told ∨ status.isInterrupted = false ∧ told = signal) := by
  cases status with
  | interrupted own =>
      exact ⟨own, rfl, .inl rfl⟩
  | passed | failed _ _ | launchFailed _ =>
      exact ⟨signal, rfl, .inr ⟨rfl, rfl⟩⟩

end StepStatus

theorem Step.commands_ne_nil (step : Step) : step.commands ≠ [] := by
  unfold Step.commands
  cases step.tool <;> simp [Tool.commands]

namespace ProcessRunner

/-- The child that is started next after attempts. -/
def nextChild (runner : ProcessRunner) (earlier : List Attempt) : Child :=
  runner.children (earlier.countP Attempt.started)

/-- The signals that reach the runner during an attempt that follows others. -/
def signals (runner : ProcessRunner) (earlier : List Attempt) (attempt : Attempt) : List Int32 :=
  if attempt.started then (runner.nextChild earlier).raises else runner.alarms earlier.length

/-- The signal that the runner notices after an attempt that follows others. -/
def noticed?
    (runner : ProcessRunner)
    (earlier : List Attempt)
    (attempt : Attempt) :
    Option Int32 :=
  if runner.listens then (runner.signals earlier attempt).getLast? else none

/-- The signal that the runner notices when the next step is begun. -/
def waiting? (runner : ProcessRunner) (state : ProcessState) : Option Int32 :=
  if runner.listens then (runner.begun state).pending? else none

/-- What an attempt that follows others makes of the scene in which it is made. -/
def sceneAfter
    (runner : ProcessRunner)
    (earlier : List Attempt)
    (scene : Scene)
    (attempt : Attempt) :
    Scene :=
  if attempt.started then (runner.nextChild earlier).acts scene else scene

/-- The scene after attempts that follow others, each of which is made in its directory. -/
def sceneAfterAll (runner : ProcessRunner) : List Attempt → Scene → List Attempt → Scene
  | _, scene, [] => scene
  | earlier, scene, attempt :: rest =>
    runner.sceneAfterAll (earlier ++ [attempt])
      (runner.sceneAfter earlier { scene with here := attempt.directory } attempt) rest

/-- The status that an attempt after others comes to, signals aside. -/
inductive Yields (runner : ProcessRunner) (earlier : List Attempt) (attempt : Attempt) :
    StepStatus → Prop where
  | launchFailed
      (why : OsError) :
      attempt.started = false →
      Yields runner earlier attempt (runner.launchFailure ⟨attempt.arguments⟩ why)
  | ended :
      attempt.started = true →
      Yields runner earlier attempt (classify (runner.nextChild earlier).ending)

/-- An attempt after others succeeds. -/
structure Succeeds
    (runner : ProcessRunner)
    (earlier : List Attempt)
    (attempt : Attempt) : Prop where
  started : attempt.started = true
  exited : (runner.nextChild earlier).ending = 0
  undisturbed : runner.noticed? earlier attempt = none

/-- An attempt is made in a directory, with warnings denied. -/
structure MadeIn (runner : ProcessRunner) (directory : Spot) (attempt : Attempt) : Prop where
  directory : attempt.directory = directory
  rustflags : attempt.rustflags = mergedFlags runner.rustflags
  rustdocflags : attempt.rustdocflags = mergedFlags runner.rustdocflags

/-- What a step attempts after other attempts, and the status that it comes to. -/
structure Tries
    (runner : ProcessRunner)
    (scene : Scene)
    (commands : List ToolCommand)
    (earlier attempts : List Attempt)
    (status : StepStatus) : Prop where
  arguments : attempts.map Attempt.arguments <+: commands.map ToolCommand.args
  /-- The first attempt is made in the current directory, and each other one where the programs
  before it have left that directory. -/
  madeIn :
    ∀ before attempt after,
      attempts = before ++ attempt :: after →
        runner.MadeIn (runner.sceneAfterAll earlier scene before).here attempt
  /-- Every attempt succeeds, except the last one unless the step passes. -/
  succeedsIff :
    ∀ before attempt after,
      attempts = before ++ attempt :: after →
        (runner.Succeeds (earlier ++ before) attempt ↔ after ≠ [] ∨ status = .passed)
  whole : status = .passed → attempts.length = commands.length
  /-- The last attempt determines the status. -/
  decided :
    ∀ before attempt,
      attempts = before ++ [attempt] →
        ∃ own,
          runner.Yields (earlier ++ before) attempt own ∧
            status = own.overruledBy (runner.noticed? (earlier ++ before) attempt)

/-- What a step attempts and the status that it comes to, when a signal may be waiting. -/
structure Accounts
    (runner : ProcessRunner)
    (step : Step)
    (scene : Scene)
    (waiting? : Option Int32)
    (earlier attempts : List Attempt)
    (status : StepStatus) : Prop
    extends runner.Tries scene step.commands earlier attempts status where
  /-- A waiting signal is the only reason to attempt nothing. -/
  idleIff : attempts = [] ↔ waiting? ≠ none
  heeded : ∀ signal, waiting? = some signal → status = .interrupted signal

/-- What attempts leave behind. -/
structure Leaves
    (runner : ProcessRunner)
    (state : ProcessState)
    (host : Host)
    (attempts : List Attempt)
    (after : ProcessState)
    (left : Host) : Prop where
  /-- Programs act on the scene, and on nothing else but the time. -/
  scene : left.scene = runner.sceneAfterAll state.attempts.reverse host.scene attempts
  held : left.held? = host.held?
  attempts : after.attempts.reverse = state.attempts.reverse ++ attempts
  steps : after.steps = state.steps
  /-- No signal is left waiting. -/
  calm : runner.listens = true → after.pending? = none

variable
  {runner : ProcessRunner}
  {scene : Scene}
  {command : ToolCommand}
  {commands : List ToolCommand}
  {attempt : Attempt}
  {earlier attempts : List Attempt}
  {own status : StepStatus}
  {state after : ProcessState}
  {host left : Host}

/-- Attempts act one part after the other. -/
theorem sceneAfterAll_append
    (runner : ProcessRunner)
    (earlier : List Attempt)
    (scene : Scene)
    (attempts more : List Attempt) :
    runner.sceneAfterAll earlier scene (attempts ++ more) =
      runner.sceneAfterAll (earlier ++ attempts) (runner.sceneAfterAll earlier scene attempts)
        more := by
  induction attempts generalizing earlier scene with
  | nil =>
      rw [List.append_nil]
      rfl
  | cons attempt rest inductionHypothesis =>
      rw [List.cons_append, sceneAfterAll, sceneAfterAll, inductionHypothesis, List.append_assoc]
      rfl

/-- Every attempt knows its directory, so only the files matter to what attempts make of them. -/
theorem tree_sceneAfterAll_congr
    {other : Scene}
    (same : other.tree = scene.tree)
    (earlier attempts : List Attempt) :
    (runner.sceneAfterAll earlier other attempts).tree =
      (runner.sceneAfterAll earlier scene attempts).tree := by
  cases attempts with
  | nil =>
      exact same
  | cons attempt rest =>
      rw [sceneAfterAll, sceneAfterAll, same]

/-- Programs that leave the current directory where it is, leave it to those after them. -/
theorem here_sceneAfterAll
    (still : ∀ number scene, ((runner.children number).acts scene).here = scene.here)
    (earlier : List Attempt)
    (inside : ∀ attempt ∈ attempts, attempt.directory = scene.here) :
    (runner.sceneAfterAll earlier scene attempts).here = scene.here := by
  induction attempts generalizing earlier scene with
  | nil =>
      rfl
  | cons attempt rest inductionHypothesis =>
      obtain ⟨first, others⟩ := List.forall_mem_cons.mp inside
      have sameHere :
          (runner.sceneAfter earlier { scene with here := attempt.directory } attempt).here =
            scene.here := by
        unfold sceneAfter
        split
        · exact (still _ _).trans first
        · exact first
      rw [sceneAfterAll, inductionHypothesis _ (sameHere ▸ others), sameHere]

/-- An attempt succeeds exactly if what it yields is not overruled. -/
theorem Yields.succeeds_iff
    (yields : runner.Yields earlier attempt own) :
    runner.Succeeds earlier attempt ↔
      own.overruledBy (runner.noticed? earlier attempt) = .passed := by
  rw [StepStatus.overruledBy_eq_passed_iff]
  cases yields with
  | launchFailed _ notStarted =>
      constructor
      · rintro ⟨started, _, _⟩
        rw [notStarted] at started
        contradiction
      · rintro ⟨passed, _⟩
        contradiction
  | ended started =>
      rw [classify_eq_passed_iff]
      constructor
      · rintro ⟨_, exited, undisturbed⟩
        exact ⟨exited, undisturbed⟩
      · rintro ⟨exited, undisturbed⟩
        exact ⟨started, exited, undisturbed⟩

/-- No signal has arrived during an attempt that succeeds, if the runner listens. -/
theorem Succeeds.raises_eq_nil
    (succeeds : runner.Succeeds earlier attempt)
    (hears : runner.listens = true) :
    (runner.nextChild earlier).raises = [] := by
  have undisturbed := succeeds.undisturbed
  simpa [noticed?, signals, hears, succeeds.started] using undisturbed

/-- A program that is started succeeds if its child ends well and undisturbed. -/
theorem succeeds_of_child
    (started : attempt.started = true)
    (exited : (runner.nextChild earlier).ending = 0)
    (quiet : (runner.nextChild earlier).raises = []) :
    runner.Succeeds earlier attempt :=
  ⟨started, exited, by simp [noticed?, signals, started, quiet]⟩

namespace Tries

/-- To attempt nothing tries the commands unless there is one and the step passes. -/
theorem nil
    (runner : ProcessRunner)
    (scene : Scene)
    (earlier : List Attempt)
    (noCommand : status = .passed → commands = []) :
    runner.Tries scene commands earlier [] status where
  arguments := List.nil_prefix
  madeIn := by simp
  succeedsIff := by simp
  whole := by
    intro passed
    rw [noCommand passed]
    rfl
  decided := by simp

/-- One attempt that does not succeed ends the step. -/
theorem single
    (yields : runner.Yields earlier attempt own)
    (sameArguments : attempt.arguments = command.args)
    (madeIn : runner.MadeIn scene.here attempt)
    (fails : own.overruledBy (runner.noticed? earlier attempt) ≠ .passed) :
    runner.Tries scene (command :: commands) earlier [attempt]
      (own.overruledBy (runner.noticed? earlier attempt)) where
  arguments := by
    simp [sameArguments]
  madeIn := by
    intro before other after shape
    obtain ⟨rfl, rfl, rfl⟩ : before = [] ∧ other = attempt ∧ after = [] := by
      cases before <;> simp_all
    exact madeIn
  succeedsIff := by
    intro before other after shape
    obtain ⟨rfl, rfl, rfl⟩ : before = [] ∧ other = attempt ∧ after = [] := by
      cases before <;> simp_all
    simpa using yields.succeeds_iff
  whole := fun passed => absurd passed fails
  decided := by
    intro before other shape
    obtain ⟨rfl, rfl⟩ : before = [] ∧ other = attempt := by
      cases before <;> simp_all
    exact ⟨own, by simpa using yields, by simp⟩

/-- After an attempt that succeeds, the other commands are tried in the scene that it has left. -/
theorem cons
    (succeeds : runner.Succeeds earlier attempt)
    (sameArguments : attempt.arguments = command.args)
    (madeIn : runner.MadeIn scene.here attempt)
    (later :
      runner.Tries (runner.sceneAfter earlier scene attempt) commands (earlier ++ [attempt])
        attempts status)
    (goesOn : attempts = [] → status = .passed) :
    runner.Tries scene (command :: commands) earlier (attempt :: attempts) status where
  arguments := by
    simpa [sameArguments] using later.arguments
  madeIn := by
    intro before other after shape
    cases before with
    | nil =>
        obtain ⟨rfl, _⟩ := List.cons.inj shape
        exact madeIn
    | cons first before =>
        obtain ⟨rfl, rest⟩ := List.cons.inj shape
        rw [sceneAfterAll, madeIn.directory]
        exact later.madeIn before other after rest
  succeedsIff := by
    intro before other after shape
    cases before with
    | nil =>
        obtain ⟨rfl, rfl⟩ : attempt = other ∧ attempts = after := by simpa using shape
        have onwards : attempts ≠ [] ∨ status = .passed := by
          by_cases done : attempts = []
          · exact .inr (goesOn done)
          · exact .inl done
        simpa [onwards] using succeeds
    | cons first before =>
        obtain ⟨rfl, rest⟩ : attempt = first ∧ attempts = before ++ other :: after := by
          simpa using shape
        simpa using later.succeedsIff before other after rest
  whole := by
    intro passed
    simp [later.whole passed]
  decided := by
    intro before other shape
    cases before with
    | nil =>
        obtain ⟨rfl, rfl⟩ : attempt = other ∧ attempts = [] := by simpa using shape
        have yields : runner.Yields earlier attempt _ := .ended succeeds.started
        refine ⟨_, by simpa using yields, ?_⟩
        rw [goesOn rfl, List.append_nil]
        exact (yields.succeeds_iff.mp succeeds).symm
    | cons first before =>
        obtain ⟨rfl, rest⟩ : attempt = first ∧ attempts = before ++ [other] := by
          simpa using shape
        simpa using later.decided before other rest

/-- A child after whose end a signal is noticed is the last one of its step, which is interrupted.
-/
theorem interrupted_of_noticed
    (tries : runner.Tries scene commands earlier attempts status)
    {before after : List Attempt}
    (shape : attempts = before ++ attempt :: after)
    (started : attempt.started = true)
    {signal : Int32}
    (noticed : runner.noticed? (earlier ++ before) attempt = some signal) :
    after = [] ∧
      ∃ told,
        status = .interrupted told ∧
          (classify (runner.nextChild (earlier ++ before)).ending = .interrupted told ∨
            (classify (runner.nextChild (earlier ++ before)).ending).isInterrupted = false ∧
              told = signal) := by
  have disturbed : ¬ runner.Succeeds (earlier ++ before) attempt := by
    intro succeeds
    rw [succeeds.undisturbed] at noticed
    contradiction
  have isLast : after = [] := by
    by_cases done : after = []
    · exact done
    · exact absurd ((tries.succeedsIff before attempt after shape).mpr (.inl done)) disturbed
  subst isLast
  obtain ⟨own, yields, rfl⟩ := tries.decided before attempt shape
  rw [noticed]
  refine ⟨rfl, ?_⟩
  cases yields with
  | launchFailed _ notStarted =>
      rw [notStarted] at started
      contradiction
  | ended _ =>
      exact StepStatus.overruledBy_some _ signal

theorem succeeds_of_passed
    (tries : runner.Tries scene commands earlier attempts .passed)
    {before after : List Attempt}
    (shape : attempts = before ++ attempt :: after) :
    runner.Succeeds (earlier ++ before) attempt :=
  (tries.succeedsIff before attempt after shape).mpr (.inr rfl)

/-- All attempts are made in the same directory as long as no program moves or removes it. -/
theorem directory_eq
    (tries : runner.Tries scene commands earlier attempts status)
    (still : ∀ number scene, ((runner.children number).acts scene).here = scene.here) :
    ∀ attempt ∈ attempts, attempt.directory = scene.here := by
  suffices inOrder :
      ∀ before, before <+: attempts → ∀ attempt ∈ before, attempt.directory = scene.here from
    inOrder attempts List.prefix_rfl
  intro before
  induction before using List.reverseRecOn with
  | nil =>
      simp
  | append_singleton before last inductionHypothesis =>
      intro isPrefix
      have sameBefore := inductionHypothesis ((List.prefix_append before [last]).trans isPrefix)
      obtain ⟨after, shape⟩ := isPrefix
      have made := tries.madeIn before last after (by simp [← shape])
      refine List.forall_mem_append.mpr ⟨sameBefore, List.forall_mem_singleton.mpr ?_⟩
      rw [made.directory, here_sceneAfterAll still earlier sameBefore]

/-- A step that passes has started every one of its commands. -/
theorem launched_of_passed
    (tries : runner.Tries scene commands earlier attempts .passed) :
    attempts.map Attempt.arguments = commands.map ToolCommand.args ∧
      ∀ attempt ∈ attempts, attempt.started = true := by
  refine ⟨tries.arguments.eq_of_length (by simp [tries.whole rfl]), fun attempt member => ?_⟩
  obtain ⟨before, after, shape⟩ := List.append_of_mem member
  exact (tries.succeeds_of_passed shape).started

end Tries

namespace Leaves

theorem refl
    (calm : runner.listens = true → state.pending? = none)
    (host : Host) :
    runner.Leaves state host [] state host :=
  ⟨rfl, rfl, by simp, rfl, calm⟩

/-- What attempts leave is what later ones find. -/
theorem trans
    {between : ProcessState}
    {inside : Host}
    {more : List Attempt}
    (first : runner.Leaves state host attempts between inside)
    (second : runner.Leaves between inside more after left) :
    runner.Leaves state host (attempts ++ more) after left where
  attempts := by
    rw [second.attempts, first.attempts, List.append_assoc]
  steps := second.steps.trans first.steps
  calm := second.calm
  scene := by
    rw [second.scene, first.scene, first.attempts, sceneAfterAll_append]
  held := second.held.trans first.held

end Leaves

/-- Starting a command is an attempt in the current directory, whether or not its program can be
started. -/
theorem launch_eq
    (runner : ProcessRunner)
    (command : ToolCommand)
    (state : ProcessState)
    (host : Host) :
    ∃ attempt own left,
      runner.launch command state host =
          ((own,
            { state with
              pending? :=
                (runner.signals state.attempts.reverse attempt).getLast?.or state.pending?
              attempts := attempt :: state.attempts }),
            left) ∧
        runner.Yields state.attempts.reverse attempt own ∧
        attempt.arguments = command.args ∧
        runner.MadeIn host.here attempt ∧
        left.scene = runner.sceneAfter state.attempts.reverse host.scene attempt ∧
        left.held? = host.held? := by
  unfold launch
  cases refusal : runner.refusal? host command.args state.attempts.length with
  | some why =>
      refine ⟨runner.attempt host command false, _, host, ?_, .launchFailed why rfl, rfl,
        ⟨rfl, rfl, rfl⟩, rfl, rfl⟩
      simp [signals, attempt]
  | none =>
      have sameChild :
          runner.nextChild state.attempts.reverse = runner.children state.started := by
        simp [nextChild, ProcessState.started]
      refine ⟨runner.attempt host command true, _, host.after (runner.children state.started), ?_,
        .ended rfl, rfl, ⟨rfl, rfl, rfl⟩, ?_, rfl⟩
      · simp [signals, attempt, sameChild]
      · rw [sceneAfter, sameChild]
        rfl

/-- Noticing forgets the signal that waits, and nothing else. -/
theorem notice_eq
    (runner : ProcessRunner)
    (state : ProcessState) :
    ∃ noted,
      runner.notice state = (if runner.listens then state.pending? else none, noted) ∧
        noted.attempts = state.attempts ∧
        noted.steps = state.steps ∧
        (runner.listens = true → noted.pending? = none) := by
  unfold notice
  by_cases hears : runner.listens = true
  · rw [if_pos hears, if_pos hears]
    exact ⟨_, rfl, rfl, rfl, fun _ => rfl⟩
  · rw [if_neg hears, if_neg hears]
    exact ⟨state, rfl, rfl, rfl, fun listens => absurd listens hears⟩

/-- What an attempt comes to when the signal that it has brought has been noticed. -/
theorem launch_noticed
    (runner : ProcessRunner)
    (command : ToolCommand)
    {state : ProcessState}
    (calm : runner.listens = true → state.pending? = none)
    (host : Host) :
    ∃ attempt own launched left noted,
      runner.launch command state host = ((own, launched), left) ∧
        runner.notice launched = (runner.noticed? state.attempts.reverse attempt, noted) ∧
        runner.Yields state.attempts.reverse attempt own ∧
        attempt.arguments = command.args ∧
        runner.MadeIn host.here attempt ∧
        runner.Leaves state host [attempt] noted left := by
  obtain ⟨attempt, own, left, launched, yields, sameArguments, madeIn, scene, held⟩ :=
    runner.launch_eq command state host
  have sceneToo :
      left.scene = runner.sceneAfterAll state.attempts.reverse host.scene [attempt] := by
    rw [scene, sceneAfterAll, sceneAfterAll, madeIn.directory]
    rfl
  obtain ⟨noted, noticed, sameAttempts, sameSteps, calmAgain⟩ := runner.notice_eq
    { state with
      pending? := (runner.signals state.attempts.reverse attempt).getLast?.or state.pending?
      attempts := attempt :: state.attempts }
  have heard :
      (if runner.listens then
          (runner.signals state.attempts.reverse attempt).getLast?.or state.pending?
        else none) =
        runner.noticed? state.attempts.reverse attempt := by
    unfold noticed?
    split
    · rename_i listens
      rw [calm listens, Option.or_none]
    · rfl
  rw [heard] at noticed
  exact ⟨attempt, own, _, left, noted, launched, noticed, yields, sameArguments, madeIn,
    sceneToo, held, by simp [sameAttempts], sameSteps, calmAgain⟩

/-- The status of a command decides whether the next one is started. -/
theorem runCommands_cons
    {launched noted : ProcessState}
    {signal? : Option Int32}
    (started : runner.launch command state host = ((own, launched), left))
    (noticed : runner.notice launched = (signal?, noted))
    (rest : List ToolCommand) :
    runner.runCommands (command :: rest) state host =
      if own.overruledBy signal? = .passed then runner.runCommands rest noted left
      else ((own.overruledBy signal?, noted), left) := by
  simp only [runCommands, started, noticed]
  cases signal? with
  | none =>
      cases own <;> rfl
  | some signal =>
      have stops : own.overruledBy (some signal) ≠ .passed := by
        simp [StepStatus.overruledBy_eq_passed_iff]
      rw [if_neg stops]
      rfl

/-- Starting commands one after the other tries them.  What carries the induction is that no signal
waits when the next command is started. -/
theorem tries_runCommands
    (runner : ProcessRunner)
    (commands : List ToolCommand)
    {state : ProcessState}
    (calm : runner.listens = true → state.pending? = none)
    (host : Host) :
    ∃ attempts status after left,
      runner.runCommands commands state host = ((status, after), left) ∧
        runner.Tries host.scene commands state.attempts.reverse attempts status ∧
        (attempts = [] → commands = [] ∧ status = .passed) ∧
        runner.Leaves state host attempts after left := by
  induction commands generalizing state host with
  | nil =>
      exact ⟨[], .passed, state, host, rfl, .nil runner host.scene _ fun _ => rfl,
        fun _ => ⟨rfl, rfl⟩, .refl calm host⟩
  | cons command rest inductionHypothesis =>
      obtain ⟨attempt, own, _, left, noted, started, noticed, yields, sameArguments, madeIn,
        leaves⟩ := runner.launch_noticed command calm host
      rw [runCommands_cons started noticed]
      by_cases passed : own.overruledBy (runner.noticed? state.attempts.reverse attempt) = .passed
      · obtain ⟨attempts, status, after, final, ran, tries, idle, later⟩ :=
          inductionHypothesis leaves.calm left
        have succeeds := yields.succeeds_iff.mpr passed
        rw [leaves.scene, leaves.attempts, sceneAfterAll, sceneAfterAll, madeIn.directory] at tries
        rw [if_pos passed]
        refine ⟨attempt :: attempts, status, after, final, ran, ?_, nofun, leaves.trans later⟩
        exact .cons succeeds sameArguments madeIn tries fun nothing => (idle nothing).2
      · rw [if_neg passed]
        exact ⟨[attempt], _, noted, left, rfl, .single yields sameArguments madeIn passed,
          nofun, leaves⟩

/-- A step that finds no signal waiting tries its commands, and one that does tries nothing. -/
theorem accounts_run
    (runner : ProcessRunner)
    (step : Step)
    (state : ProcessState)
    (host : Host) :
    ∃ attempts status after left,
      runner.run step state host = ((status, after), left) ∧
        runner.Accounts step host.scene (runner.waiting? state) state.attempts.reverse attempts
          status ∧
        runner.Leaves (runner.begun state) host attempts after left := by
  obtain ⟨noted, noticed, sameAttempts, sameSteps, calm⟩ := runner.notice_eq (runner.begun state)
  have start : runner.Leaves (runner.begun state) host [] noted host :=
    ⟨rfl, rfl, by simp [sameAttempts], sameSteps, calm⟩
  have sameStart : noted.attempts = state.attempts := sameAttempts
  unfold run
  rw [noticed]
  cases waits : runner.waiting? state with
  | some signal =>
      simp only [waiting?] at waits
      simp only [waits]
      have interrupted : StepStatus.interrupted signal = .passed → step.commands = [] := nofun
      refine ⟨[], _, noted, host, rfl, ?_, start⟩
      exact {
        toTries := .nil runner host.scene state.attempts.reverse interrupted
        idleIff := by simp
        heeded := by simp
      }
  | none =>
      simp only [waiting?] at waits
      simp only [waits]
      obtain ⟨attempts, status, after, left, ran, tries, idle, leaves⟩ :=
        runner.tries_runCommands step.commands calm host
      rw [sameStart] at tries
      refine ⟨attempts, status, after, left, ran, ?_, start.trans leaves⟩
      exact {
        toTries := tries
        idleIff := by simpa using fun nothing => step.commands_ne_nil (idle nothing).1
        heeded := nofun
      }

end ProcessRunner

end VerifyPipeline
