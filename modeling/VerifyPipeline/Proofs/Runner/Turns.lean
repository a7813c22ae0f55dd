import VerifyPipeline.Proofs.Runner.Commands

namespace VerifyPipeline

/-!
# The turns of a step

Which starts the system refuses, what children do and when signals arrive is laid down in advance.
So it is known what the turn of every command of a step would bring, provided that all turns before
it succeed: then each of them has started a child, and the command finds what those children leave.
A step is decided by the first of its turns that does not succeed, and nothing is attempted
afterwards.
-/

/-- The turn of a command. -/
structure Turn where
  command : ToolCommand
  /-- Where the command is attempted. -/
  directory : Spot
  /-- The status word of the child, or why no child is started. -/
  ending : Except OsError Int32
  /-- The signals that are recorded meanwhile, in order. -/
  signals : List Int32

/-- A child is started, ends well, and no signal is recorded meanwhile. -/
structure Turn.Succeeds (turn : Turn) : Prop where
  ended : turn.ending = .ok 0
  undisturbed : turn.signals = []

namespace ProcessRunner

/-- The signals that are recorded of those that arrive. -/
def recorded (runner : ProcessRunner) (signals : List Int32) : List Int32 :=
  if runner.listens then signals else []

/-- The turn of a command after so many attempts and children. -/
def turn
    (runner : ProcessRunner)
    (attempted started : Nat)
    (host : Host)
    (command : ToolCommand) :
    Turn :=
  let child := runner.children started
  match runner.refusal? host command.args attempted with
  | some why => ⟨command, host.here, .error why, runner.recorded (runner.alarms attempted)⟩
  | none => ⟨command, host.here, .ok child.ending, runner.recorded child.raises⟩

/-- The turns of commands, each of which comes after a child for every command before it. -/
def turns (runner : ProcessRunner) : List ToolCommand → Nat → Nat → Host → List Turn
  | [], _, _, _ => []
  | command :: rest, attempted, started, host =>
    runner.turn attempted started host command ::
      runner.turns rest (attempted + 1) (started + 1) (host.after (runner.children started))

/-- The status that a turn comes to, signals aside. -/
def ownStatus (runner : ProcessRunner) (turn : Turn) : StepStatus :=
  match turn.ending with
  | .error why => runner.launchFailure turn.command why
  | .ok raw => classify raw

/-- The status that a turn comes to. -/
def verdict (runner : ProcessRunner) (turn : Turn) : StepStatus :=
  (runner.ownStatus turn).overruledBy turn.signals.getLast?

/-- The attempt that is made in a turn. -/
def attemptIn (runner : ProcessRunner) (turn : Turn) : Attempt where
  directory := turn.directory
  arguments := turn.command.args
  rustflags := mergedFlags runner.rustflags
  rustdocflags := mergedFlags runner.rustdocflags
  started := turn.ending.isOk

/-- The turns that are taken of those of a step, and the status that it comes to. -/
inductive Takes (runner : ProcessRunner) : List Turn → List Turn → StepStatus → Prop where
  | done : Takes runner [] [] .passed
  | stops
      (turn : Turn)
      (others : List Turn)
      (fails : ¬ turn.Succeeds) :
      Takes runner (turn :: others) [turn] (runner.verdict turn)
  | goesOn
      {turn : Turn}
      {others taken : List Turn}
      {status : StepStatus}
      (succeeds : turn.Succeeds)
      (later : Takes runner others taken status) :
      Takes runner (turn :: others) (turn :: taken) status

/-- What comes of the turns of a step when a signal may be pending. -/
structure Concludes
    (runner : ProcessRunner)
    (pending? : Option Int32)
    (turns taken : List Turn)
    (status : StepStatus) : Prop where
  inOrder : taken <+: turns
  passedIff : status = .passed ↔ pending? = none ∧ taken = turns ∧ ∀ turn ∈ turns, turn.Succeeds
  /-- A pending signal is the only reason to attempt nothing. -/
  idleIff : taken = [] ↔ pending? ≠ none
  heeded : ∀ signal, pending? = some signal → status = .interrupted signal
  /-- Every turn succeeds before another one is taken. -/
  stops : ∀ before turn after, taken = before ++ turn :: after → ¬ turn.Succeeds → after = []
  /-- A signal in the last turn interrupts the step, unless its child tells an interruption. -/
  disturbed :
    ∀ before last signal,
      taken = before ++ [last] →
        last.signals.getLast? = some signal →
          ∃ told,
            status = .interrupted told ∧
              (runner.ownStatus last = .interrupted told ∨
                (runner.ownStatus last).isInterrupted = false ∧ told = signal)
  undisturbed :
    ∀ before last,
      taken = before ++ [last] → last.signals = [] → status = runner.ownStatus last

variable
  {runner : ProcessRunner}
  {command : ToolCommand}
  {state noted : ProcessState}
  {host left : Host}
  {turn : Turn}
  {turns taken : List Turn}
  {status : StepStatus}

/-- A turn comes to nothing worse than success exactly if it succeeds. -/
theorem verdict_eq_passed_iff : runner.verdict turn = .passed ↔ turn.Succeeds := by
  have ownIff : runner.ownStatus turn = .passed ↔ turn.ending = .ok 0 := by
    unfold ownStatus
    cases turn.ending with
    | error why =>
        simp [launchFailure]
    | ok raw =>
        simpa using classify_eq_passed_iff raw
  rw [verdict, StepStatus.overruledBy_eq_passed_iff, ownIff, List.getLast?_eq_none_iff]
  exact ⟨fun ⟨ended, undisturbed⟩ => ⟨ended, undisturbed⟩, fun ⟨ended, undisturbed⟩ =>
    ⟨ended, undisturbed⟩⟩

namespace Takes

/-- The turns that are taken are the first ones. -/
theorem isPrefix
    (takes : runner.Takes turns taken status) :
    taken <+: turns := by
  induction takes with
  | done =>
      exact List.prefix_refl []
  | stops turn others =>
      exact ⟨others, rfl⟩
  | goesOn _ _ inductionHypothesis =>
      exact (List.prefix_cons_inj _).mpr inductionHypothesis

/-- A step passes exactly if every turn is taken and succeeds. -/
theorem passed_iff
    (takes : runner.Takes turns taken status) :
    status = .passed ↔ taken = turns ∧ ∀ turn ∈ turns, turn.Succeeds := by
  induction takes with
  | done =>
      simp
  | stops turn others fails =>
      refine iff_of_false (fun passed => fails (verdict_eq_passed_iff.mp passed)) ?_
      rintro ⟨_, succeed⟩
      exact fails (succeed turn List.mem_cons_self)
  | goesOn succeeds _ inductionHypothesis =>
      rw [inductionHypothesis, List.forall_mem_cons]
      simp [succeeds]

/-- No turn is taken after one that does not succeed. -/
theorem eq_nil_of_fails
    (takes : runner.Takes turns taken status)
    {before after : List Turn}
    (shape : taken = before ++ turn :: after)
    (fails : ¬ turn.Succeeds) :
    after = [] := by
  induction takes generalizing before with
  | done =>
      simp at shape
  | stops other others _ =>
      cases before <;> simp_all
  | goesOn succeeds _ inductionHypothesis =>
      cases before with
      | nil =>
          obtain ⟨rfl, _⟩ := List.cons.inj shape
          exact absurd succeeds fails
      | cons first before =>
          exact inductionHypothesis (List.cons.inj shape).2

/-- The last turn decides. -/
theorem eq_verdict
    (takes : runner.Takes turns taken status)
    {before : List Turn}
    {last : Turn}
    (shape : taken = before ++ [last]) :
    status = runner.verdict last := by
  induction takes generalizing before with
  | done =>
      simp at shape
  | stops other others _ =>
      cases before <;> simp_all
  | goesOn succeeds later inductionHypothesis =>
      cases before with
      | nil =>
          obtain ⟨rfl, rfl⟩ := List.cons.inj shape
          rw [verdict_eq_passed_iff.mpr succeeds]
          cases later
          rfl
      | cons first before =>
          exact inductionHypothesis (List.cons.inj shape).2

/-- Taking the turns of a step concludes it as long as there is any. -/
theorem concludes
    (takes : runner.Takes turns taken status)
    (anyTurn : turns ≠ []) :
    runner.Concludes none turns taken status where
  inOrder := takes.isPrefix
  passedIff := by
    simpa using takes.passed_iff
  idleIff := by
    cases takes with
    | done =>
        contradiction
    | _ =>
        simp
  heeded := nofun
  stops := fun _ _ _ shape fails => takes.eq_nil_of_fails shape fails
  disturbed := by
    intro before last signal shape recorded
    rw [takes.eq_verdict shape, verdict, recorded]
    exact StepStatus.overruledBy_some _ signal
  undisturbed := by
    intro before last shape undisturbed
    rw [takes.eq_verdict shape, verdict, undisturbed]
    rfl

end Takes

/-- A pending signal interrupts a step before it begins. -/
theorem concludes_of_pending
    (runner : ProcessRunner)
    (signal : Int32)
    (turns : List Turn) :
    runner.Concludes (some signal) turns [] (.interrupted signal) where
  inOrder := List.nil_prefix
  passedIff := by simp
  idleIff := by simp
  heeded := by simp
  stops := by simp
  disturbed := by simp
  undisturbed := by simp

/-- Launching a command is its turn. -/
theorem launch_turn
    (runner : ProcessRunner)
    (command : ToolCommand)
    {state : ProcessState}
    (calm : runner.listens = true → state.pending? = none)
    (host : Host) :
    let turn := runner.turn state.attempts.length state.started host command
    ∃ launched left noted,
      runner.launch command state host = ((runner.ownStatus turn, launched), left) ∧
        runner.notice launched = (turn.signals.getLast?, noted) ∧
        noted.attempts = runner.attemptIn turn :: state.attempts ∧
        (runner.listens = true → noted.pending? = none) ∧
        (turn.ending.isOk = true → left = host.after (runner.children state.started)) := by
  intro turn
  have hears (signals : List Int32) :
      (if runner.listens then signals.getLast?.or state.pending? else none) =
        (runner.recorded signals).getLast? := by
    unfold recorded
    split
    · rename_i listens
      rw [calm listens, Option.or_none]
    · rfl
  unfold launch
  cases refused : runner.refusal? host command.args state.attempts.length with
  | some why =>
      have isTurn :
          turn =
            ⟨command, host.here, .error why,
              runner.recorded (runner.alarms state.attempts.length)⟩ := by
        simp only [turn, ProcessRunner.turn, refused]
      obtain ⟨noted, noticed, sameAttempts, _, calmAgain⟩ := runner.notice_eq
        { state with
          pending? := (runner.alarms state.attempts.length).getLast?.or state.pending?
          attempts := runner.attempt host command false :: state.attempts }
      rw [hears] at noticed
      rw [isTurn]
      exact ⟨_, host, noted, rfl, noticed, sameAttempts, calmAgain, nofun⟩
  | none =>
      let child := runner.children state.started
      have isTurn :
          turn = ⟨command, host.here, .ok child.ending, runner.recorded child.raises⟩ := by
        simp only [turn, ProcessRunner.turn, refused, child]
      obtain ⟨noted, noticed, sameAttempts, _, calmAgain⟩ := runner.notice_eq
        { state with
          pending? := child.raises.getLast?.or state.pending?
          attempts := runner.attempt host command true :: state.attempts }
      rw [hears] at noticed
      rw [isTurn]
      exact ⟨_, host.after child, noted, rfl, noticed, sameAttempts, calmAgain, fun _ => rfl⟩

/-- Commands are started in turns. -/
theorem takes_runCommands
    (runner : ProcessRunner)
    (commands : List ToolCommand)
    {state : ProcessState}
    (calm : runner.listens = true → state.pending? = none)
    (host : Host) :
    let result := runner.runCommands commands state host
    ∃ taken,
      runner.Takes (runner.turns commands state.attempts.length state.started host) taken
          result.1.1 ∧
        result.1.2.attempts.reverse = state.attempts.reverse ++ taken.map runner.attemptIn ∧
        (runner.listens = true → result.1.2.pending? = none) := by
  induction commands generalizing state host with
  | nil =>
      exact ⟨[], .done, (List.append_nil _).symm, calm⟩
  | cons command rest inductionHypothesis =>
      let turn := runner.turn state.attempts.length state.started host command
      obtain ⟨launched, left, noted, started, noticed, attempts, calmAgain, acted⟩ :=
        runner.launch_turn command calm host
      have unfolded :
          runner.runCommands (command :: rest) state host =
            if runner.verdict turn = .passed then runner.runCommands rest noted left
            else ((runner.verdict turn, noted), left) :=
        runCommands_cons started noticed rest
      by_cases succeeds : turn.Succeeds
      · have isOk : turn.ending.isOk = true := by
          rw [succeeds.ended]
          rfl
        have attempted : noted.attempts.length = state.attempts.length + 1 := by
          rw [attempts, List.length_cons]
        have startedToo : noted.started = state.started + 1 := by
          unfold ProcessState.started
          rw [attempts]
          exact List.countP_cons_of_pos isOk
        obtain ⟨taken, takes, later, calmLater⟩ := inductionHypothesis calmAgain left
        rw [attempted, startedToo, acted isOk] at takes
        rw [unfolded, if_pos (verdict_eq_passed_iff.mpr succeeds), acted isOk]
        rw [acted isOk] at later calmLater
        refine ⟨_, .goesOn succeeds takes, ?_, calmLater⟩
        rw [later, attempts]
        simp
      · rw [unfolded, if_neg (mt verdict_eq_passed_iff.mp succeeds)]
        refine ⟨_, .stops _ _ succeeds, ?_, calmAgain⟩
        simp [attempts]

/--
A step passes exactly if no signal is pending and all its commands have
successful turns.  A pending signal is answered at once.  Otherwise turns are
taken in order up to the first one that does not succeed, and the last one
decides: an interruption that its child tells goes first, then a signal that was
recorded meanwhile, then the end of the child or what kept it from being
started.  No signal is pending afterwards.
-/
theorem run_concludes
    (runner : ProcessRunner)
    (step : Step)
    (state : ProcessState)
    (host : Host) :
    let turns := runner.turns step.commands state.attempts.length state.started host
    let ((status, after), _) := runner.run step state host
    ∃ taken,
      runner.Concludes (runner.waiting? state) turns taken status ∧
        after.attempts.reverse = state.attempts.reverse ++ taken.map runner.attemptIn ∧
        (runner.listens = true → after.pending? = none) := by
  intro turns
  obtain ⟨noted, noticed, sameAttempts, _, calm⟩ := runner.notice_eq (runner.begun state)
  have waits :
      (if runner.listens then (runner.begun state).pending? else none) = runner.waiting? state :=
    rfl
  have sameStart : noted.attempts = state.attempts := sameAttempts
  unfold run
  rw [noticed, waits]
  cases pending : runner.waiting? state with
  | some signal =>
      refine ⟨[], runner.concludes_of_pending signal turns, ?_, calm⟩
      rw [sameStart]
      exact (List.append_nil _).symm
  | none =>
      obtain ⟨taken, takes, attempts, calmLater⟩ := runner.takes_runCommands step.commands calm host
      rw [ProcessState.started, sameStart, ← ProcessState.started] at takes
      rw [sameStart] at attempts
      have anyTurn : turns ≠ [] := by
        obtain ⟨command, rest, shape⟩ := List.exists_cons_of_ne_nil step.commands_ne_nil
        simp [turns, ProcessRunner.turns, shape]
      exact ⟨taken, takes.concludes anyTurn, attempts, calmLater⟩

/-- The second child tells that it has passed on a signal, while another one is recorded. -/
example :
    let runner : ProcessRunner :=
      { program := "/tool"
        listens := true
        installed := []
        rustflags := none
        rustdocflags := none
        children := fun number => if number = 1 then { raises := [15], ending := 33280 } else {} }
    let step : Step :=
      ⟨.baseline, .lint, WorkspaceSet.lexical.primary, .default, .recordAndContinue⟩
    let tree : FileTree :=
      { entries := [(["tool"], .file 0)], files := [(0, { executable := true })] }
    let result := runner.run step {} { tree, here := .root }
    result.1.1 = .interrupted 2 ∧ result.1.2.started = 2 := by
  decide +kernel

end ProcessRunner

end VerifyPipeline
