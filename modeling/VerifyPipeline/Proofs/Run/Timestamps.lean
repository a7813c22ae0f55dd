import VerifyPipeline.Proofs.Calendar.Moments
import VerifyPipeline.Proofs.Run.Independence
import VerifyPipeline.Runner.Process

namespace VerifyPipeline

/-!
# Timestamps in order

If no call of the runner turns the clock back, then the clock readings of a run follow one another,
from the first event to the last.  Up to the year 9999 later readings have no smaller texts, so the
lines of the log are sorted by their timestamps, even if the writer stops taking them.
-/

/-! ## Clock readings -/

/-- Things happen one after the other, between two clock readings. -/
structure Onward (first : Instant) (occurrences : List Occurrence) (last : Instant) : Prop where
  ordered : first ≤ last
  sorted : occurrences.Pairwise fun earlier later => earlier.clock ≤ later.clock
  within : ∀ occurrence ∈ occurrences, first ≤ occurrence.clock ∧ occurrence.clock ≤ last

namespace Onward

variable
  {first middle last : Instant}
  {occurrences more : List Occurrence}

theorem of_forall_eq
    (still : ∀ occurrence ∈ occurrences, occurrence.clock = first) :
    Onward first occurrences first where
  ordered := Int.le_refl first
  sorted := by
    refine List.pairwise_of_forall_mem_list fun earlier member later alsoMember => ?_
    exact Int.le_of_eq ((still earlier member).trans (still later alsoMember).symm)
  within := fun occurrence member =>
    ⟨Int.le_of_eq (still occurrence member).symm, Int.le_of_eq (still occurrence member)⟩

/-- The clock does not go back where one part ends and the next one begins. -/
theorem append
    (onward : Onward first occurrences middle)
    (later : Onward middle more last) :
    Onward first (occurrences ++ more) last where
  ordered := Int.le_trans onward.ordered later.ordered
  sorted := by
    refine List.pairwise_append.mpr ⟨onward.sorted, later.sorted, ?_⟩
    intro earlier member following alsoMember
    exact Int.le_trans (onward.within earlier member).2 (later.within following alsoMember).1
  within := by
    refine List.forall_mem_append.mpr ⟨fun occurrence member => ?_, fun occurrence member => ?_⟩
    · obtain ⟨begun, ended⟩ := onward.within occurrence member
      exact ⟨begun, Int.le_trans ended later.ordered⟩
    · obtain ⟨begun, ended⟩ := later.within occurrence member
      exact ⟨Int.le_trans onward.ordered begun, ended⟩

end Onward

/-- No call of the runner turns the clock back. -/
def Runner.Onward (runner : Runner σ) : Prop :=
  ∀ step state host, host.clock ≤ (runner.run step state host).2.clock

namespace ProcessRunner

variable (runner : ProcessRunner)

theorem clock_le_launch
    (command : ToolCommand)
    (state : ProcessState)
    (host : Host) :
    host.clock ≤ (runner.launch command state host).2.clock := by
  unfold launch
  split
  · exact Int.le_refl _
  · exact Int.le_add_of_nonneg_right (Int.natCast_nonneg _)

/-- The clock does not go back while commands are run. -/
theorem clock_le_runCommands
    (commands : List ToolCommand)
    (state : ProcessState)
    (host : Host) :
    host.clock ≤ (runner.runCommands commands state host).2.clock := by
  induction commands generalizing state host with
  | nil =>
      exact Int.le_refl _
  | cons command rest inductionHypothesis =>
      have launched := runner.clock_le_launch command state host
      unfold runCommands
      simp only
      split
      · exact launched
      · split
        · exact Int.le_trans launched (inductionHypothesis _ _)
        · exact launched

/-- While programs run, time goes on. -/
theorem onward : runner.toRunner.Onward := by
  intro step state host
  change host.clock ≤ (runner.run step state host).2.clock
  unfold run
  split
  · exact Int.le_refl _
  · exact runner.clock_le_runCommands _ _ _

end ProcessRunner

namespace Pipeline

variable {pipeline : Pipeline σ}

/-- The step: what happens around a call happens between entering and leaving the workspace. -/
theorem onward_call
    {call : Call σ}
    (goesOn : call.entered.clock ≤ call.left.clock)
    (program : String)
    (index : Nat) :
    Onward call.entered.clock (call.occurrences program index) call.left.clock := by
  have announced :
      Onward call.entered.clock
        [⟨call.entered.clock, .stepStarted index call.step (call.step.renderCommands program)⟩]
        call.entered.clock :=
    .of_forall_eq (by simp)
  have waited : Onward call.entered.clock [] call.left.clock := ⟨goesOn, .nil, by simp⟩
  refine announced.append (waited.append (.of_forall_eq ?_))
  cases call.left.leave.2 <;> simp

/-- The run: what happens in the execution of steps happens one after the other. -/
theorem onward_runSteps
    (onward : pipeline.runner.Onward)
    (index : Nat)
    (steps : List Step)
    (state : σ)
    (host : Host) :
    Onward host.clock (pipeline.runSteps index steps state host).occurrences
      (pipeline.runSteps index steps state host).host.clock := by
  have called {index : Nat} {host : Host} {call : Call σ} (makes : pipeline.Makes host call) :
      Onward host.clock (call.occurrences pipeline.runner.program index)
        call.left.leave.1.clock := by
    have goesOn : call.entered.clock ≤ call.left.clock := by
      have left : (pipeline.runner.run call.step call.given call.entered).2 = call.left := by
        rw [makes.returned]
      rw [← left]
      exact onward call.step call.given call.entered
    rw [← (Host.enter_frame makes.entered).2, call.left.leave_frame.2]
    exact onward_call goesOn pipeline.runner.program index
  refine pipeline.runSteps_induction
    (motive := fun _ _ host passage =>
      Onward host.clock passage.occurrences passage.host.clock)
    ?nil ?barred ?stopped ?goesOn index steps state host
  case nil =>
    exact fun _ _ _ => .of_forall_eq (List.forall_mem_nil _)
  case barred =>
    exact fun _ _ _ _ _ _ _ => .of_forall_eq (by simp)
  case stopped =>
    exact fun _ _ _ _ _ makes _ => called makes
  case goesOn =>
    exact fun _ _ _ _ _ makes inductionHypothesis => (called makes).append inductionHypothesis

theorem clock_of_mem_skipSteps
    (clock : Instant)
    (index : Nat)
    (steps : List Step) :
    ∀ occurrence ∈ skipSteps clock index steps, occurrence.clock = clock := by
  intro occurrence member
  obtain ⟨_, _, _, rfl⟩ := exists_of_mem_skipSteps member
  rfl

/-- The clock does not go back in a run if it does not while its runner works. -/
theorem onward_execute
    (onward : pipeline.runner.Onward)
    (plan : Plan)
    (state : σ)
    (host : Host) :
    Onward host.clock (pipeline.execute plan state host).occurrences
      (pipeline.execute plan state host).host.clock := by
  cases holder : host.held? with
  | some held =>
      rw [execute_of_held holder]
      exact .of_forall_eq (by simp [refuse])
  | none =>
      obtain ⟨_, occurrences⟩ := pipeline.occurrences_of_free holder plan state
      have begun :
          Onward host.clock
            [⟨host.clock, .started plan.size plan.fingerprint pipeline.interruptPolicy⟩]
            host.clock :=
        .of_forall_eq (by simp)
      have passed := begun.append (pipeline.onward_runSteps onward 0 plan.steps state host)
      rw [occurrences]
      rw [execute_of_free holder]
      refine (passed.append (.of_forall_eq (clock_of_mem_skipSteps _ _ _))).append ?_
      exact .of_forall_eq (by simp)

end Pipeline

/-! ## Texts in order -/

/-- Texts in the order of their bytes. -/
def Text.Sorted (texts : List String) : Prop :=
  texts.Pairwise fun first second => bytes first ≤ bytes second

/-- An entry bears the time of what it tells. -/
theorem Occurrence.timestamp_of_entry?
    {occurrence : Occurrence}
    {entry : LogEntry}
    (told : occurrence.entry? = some entry) :
    entry.timestamp = occurrence.clock.text := by
  obtain ⟨clock, event⟩ := occurrence
  cases event with
  | restoreFailed failure =>
      contradiction
  | ended result =>
      obtain rfl := Option.some.inj told
      unfold RunEvent.endEntry
      split <;> rfl
  | _ =>
      obtain rfl := Option.some.inj told
      rfl

/-- A later reading has no smaller text. -/
theorem Instant.bytes_text_le
    {first second : Instant}
    (ordered : first ≤ second)
    (shortYear : (Moment.ofInstant second).date.year ≤ 9999) :
    Text.bytes first.text ≤ Text.bytes second.text := by
  have earlierYear := Moment.year_le_of_le (Moment.seconds_le_of_le ordered)
  have smaller := Moment.bytes_text_lt_iff shortYear (Nat.le_trans earlierYear shortYear)
  exact fun less => Moment.not_before_of_le ordered (smaller.mp less)

/-- The entries about what happens one after the other are sorted by their timestamps. -/
theorem Onward.sorted_timestamps
    {first last : Instant}
    {occurrences : List Occurrence}
    (onward : Onward first occurrences last)
    (shortYear : (Moment.ofInstant last).date.year ≤ 9999) :
    Text.Sorted ((occurrences.filterMap Occurrence.entry?).map LogEntry.timestamp) := by
  rw [Text.Sorted, List.pairwise_map, List.pairwise_filterMap]
  refine onward.sorted.imp_of_mem
    fun {earlier later} _ member ordered entry told other alsoTold => ?_
  have ended := (onward.within later member).2
  have laterYear := Moment.year_le_of_le (Moment.seconds_le_of_le ended)
  rw [Occurrence.timestamp_of_entry? told, Occurrence.timestamp_of_entry? alsoTold]
  exact Instant.bytes_text_le ordered (Nat.le_trans laterYear shortYear)

/-! ## Written lines -/

namespace Narrator

/-- A notice is written as a line with the timestamp of its entry, or not at all. -/
theorem exists_written_tell
    (narrator : Narrator)
    (notice : Notice) :
    ∃ written : List LogEntry,
      (narrator.tell notice).emitter.writer =
          narrator.emitter.writer.after (written.map LogEntry.line) ∧
        List.Sublist (written.map LogEntry.timestamp)
          (notice.entry?.toList.map LogEntry.timestamp) := by
  have unwritten (same : (narrator.tell notice).emitter.writer = narrator.emitter.writer) :
      ∃ written : List LogEntry,
        (narrator.tell notice).emitter.writer =
            narrator.emitter.writer.after (written.map LogEntry.line) ∧
          List.Sublist (written.map LogEntry.timestamp)
            (notice.entry?.toList.map LogEntry.timestamp) :=
    ⟨[], same.trans (LogWriter.after_nil _).symm, List.nil_sublist _⟩
  cases notice with
  | entry entry =>
      by_cases logging : narrator.logging = true
      · cases refused : narrator.emitter.writer.refusal? 0 with
        | none =>
            refine ⟨[narrator.emitter.complete entry], ?_, List.Sublist.refl _⟩
            simp only [tell, log, logging, ↓reduceIte, Emitter.emit_eq, refused]
            rfl
        | some why =>
            refine unwritten ?_
            simp only [tell, log, logging, ↓reduceIte, Emitter.emit_eq, refused]
            rfl
      · refine unwritten ?_
        simp only [tell, log, logging]
        rfl
  | _ =>
      refine unwritten ?_
      rw [(narrator.tell_of_entry?_eq_none rfl).1]

/-- What is written of notices are lines with timestamps of their entries, in their order. -/
theorem exists_written
    (narrator : Narrator)
    (notices : List Notice) :
    ∃ written : List LogEntry,
      (notices.foldl tell narrator).emitter.writer =
          narrator.emitter.writer.after (written.map LogEntry.line) ∧
        List.Sublist (written.map LogEntry.timestamp)
          ((notices.filterMap Notice.entry?).map LogEntry.timestamp) := by
  induction notices generalizing narrator with
  | nil =>
      exact ⟨[], (LogWriter.after_nil _).symm, List.Sublist.refl _⟩
  | cons notice others inductionHypothesis =>
      obtain ⟨first, wrote, isFirst⟩ := narrator.exists_written_tell notice
      obtain ⟨later, wroteLater, areLater⟩ := inductionHypothesis (narrator.tell notice)
      refine ⟨first ++ later, ?_, ?_⟩
      · rw [List.foldl_cons, wroteLater, wrote, LogWriter.after_after, List.map_append]
      · have split :
            (notice :: others).filterMap Notice.entry? =
              notice.entry?.toList ++ others.filterMap Notice.entry? := by
          rw [List.filterMap_cons]
          cases notice.entry? <;> rfl
        rw [split, List.map_append, List.map_append]
        exact isFirst.append areLater

end Narrator

namespace Pipeline

/-- The lines that a run adds to its log, as it goes on, are sorted by their timestamps. -/
def LogsInOrder
    (pipeline : Pipeline σ)
    (plan : Plan)
    (telling : Telling)
    (state : σ)
    (host : Host) : Prop :=
  ∃ written : List LogEntry,
    (pipeline.conduct plan telling state host).telling.narrator.emitter.writer =
        telling.narrator.emitter.writer.after (written.map LogEntry.line) ∧
      Text.Sorted (written.map LogEntry.timestamp)

/-- The entries of a run are in the order of their times, as long as years have four digits. -/
theorem logsInOrder
    {pipeline : Pipeline σ}
    (onward : pipeline.runner.Onward)
    {plan : Plan}
    {telling : Telling}
    {state : σ}
    {host : Host}
    (shortYear :
      (Moment.ofInstant (pipeline.conduct plan telling state host).host.clock).date.year ≤ 9999) :
    pipeline.LogsInOrder plan telling state host := by
  have sameHost :
      (pipeline.conduct plan telling state host).host = (pipeline.execute plan state host).host :=
    congrArg (fun outcome => outcome.2.2) (pipeline.outcome_conduct plan telling state host)
  rw [sameHost] at shortYear
  have sorted := (pipeline.onward_execute onward plan state host).sorted_timestamps shortYear
  obtain ⟨written, wrote, listed⟩ := telling.narrator.exists_written
    ((pipeline.execute plan state host).occurrences.flatMap (Occurrence.notices plan.size))
  rw [filterMap_flatMap_notices] at listed
  refine ⟨written, ?_, sorted.sublist listed⟩
  rw [narrator_conduct]
  exact wrote

end Pipeline

namespace Moment

/-- The texts of two moments are well-formed and in the order of the moments. -/
structure TextsCompare (first second : Moment) : Prop where
  earlier : first.Before second ↔ Text.bytes first.text < Text.bytes second.text
  written : first.Written first.text
  alsoWritten : second.Written second.text

end Moment

/--
Up to the year 9999, moments are ordered as the bytes of their texts are, and
can be read off these, which have a character for every place of a date and a
time of the day.  So the lines of a log are sorted by their timestamps if the
clock is never turned back.
-/
theorem timestamps_sorted
    (first second : Moment)
    (shortYear : first.date.year ≤ 9999)
    (alsoShort : second.date.year ≤ 9999) :
    first.TextsCompare second ∧
      ∀ (σ : Type) (pipeline : Pipeline σ) (plan : Plan) (telling : Telling) (state : σ)
        (host : Host),
        pipeline.runner.Onward →
          (Moment.ofInstant (pipeline.conduct plan telling state host).host.clock).date.year ≤
              9999 →
            pipeline.LogsInOrder plan telling state host := by
  refine ⟨⟨?_, Moment.written_text shortYear, Moment.written_text alsoShort⟩, ?_⟩
  · exact (Moment.bytes_text_lt_iff shortYear alsoShort).symm
  · intro σ pipeline plan telling state host onward lastYear
    exact Pipeline.logsInOrder onward lastYear

/-- A millisecond before a year begins and its beginning, and a run in which it begins. -/
theorem timestamps_sorted_new_year :
    let runner : ProcessRunner :=
      { program := "cargo"
        listens := false
        installed := ["cargo"]
        rustflags := none
        rustdocflags := none
        children := fun _ => { nanoseconds := 700000000 } }
    let pipeline : Pipeline ProcessState := ⟨runner.toRunner, ⟨[]⟩, .abort⟩
    let plan : Plan := .build {} .lexical .lexical
    let host : Host := { tree := .empty, here := .root, clock := 946684798500000000 }
    let telling : Telling :=
      { narrator := { emitter := .ofWriter (.keep #[] none none) "run", progress := false } }
    let first : Moment := .ofInstant 946684799999000000
    let second : Moment := .ofInstant 946684800000000000
    first.TextsCompare second ∧
      pipeline.LogsInOrder plan telling {} host ∧
      first.text = "1999-12-31T23:59:59.999Z" ∧
      second.text = "2000-01-01T00:00:00.000Z" ∧
      (pipeline.conduct plan telling {} host).host.clock.text = "2000-01-01T00:00:01.300Z" := by
  intro runner pipeline plan host telling first second
  obtain ⟨compare, inOrder⟩ := timestamps_sorted first second (by decide) (by decide)
  refine ⟨compare, ?_, by decide +kernel, by decide +kernel, by decide +kernel⟩
  exact inOrder ProcessState pipeline plan telling {} host runner.onward (by decide +kernel)

end VerifyPipeline
