import VerifyPipeline.Proofs.Run.Logging
import VerifyPipeline.Report.Summary

namespace VerifyPipeline

/-!
# The warnings of a run

While the log takes every line, a user is shown what the notices of a run say, and nothing about the
log.  Of these lines only those are warnings that tell of a directory that could not be made current
again.
-/

/-- The line is a warning. -/
def isWarning (line : String) : Bool := "warning: ".toList.isPrefixOf line.toList

/-- What begins with a warning is one. -/
theorem isWarning_append
    {start : String}
    (warns : isWarning start = true)
    (rest : String) :
    isWarning (start ++ rest) = true := by
  rw [isWarning, List.isPrefixOf_iff_prefix] at warns ⊢
  rw [String.toList_append]
  exact warns.trans (List.prefix_append _ _)

/-- A line with another first letter is none. -/
theorem isWarning_append_of_head
    {start : String}
    {first : Char}
    (begins : start.toList.head? = some first)
    (other : first ≠ 'w')
    (rest : String) :
    isWarning (start ++ rest) = false := by
  rw [Bool.eq_false_iff]
  intro warns
  obtain ⟨more, same⟩ := List.isPrefixOf_iff_prefix.mp warns
  have begins : (start ++ rest).toList.head? = some first := by
    rw [String.toList_append, List.head?_append, begins]
    rfl
  rw [← same] at begins
  exact other (Option.some.inj begins).symm

/-- The line that a notice shows, to users who want to see the progress or to others. -/
def Notice.line? (progress : Bool) : Notice → Option String
  | .progress line => if progress then some line else none
  | .warning line => some line
  | .entry _ | .flush => none

/-! ## What a narrator shows -/

namespace LogWriter

theorem Takes.after
    {writer : LogWriter}
    {lines : List String}
    {count : Nat}
    (takes : writer.Takes (lines.length + count)) :
    (writer.after lines).Takes count := by
  cases writer with
  | discard =>
      trivial
  | keep kept limit? flushError? =>
      intro limit why bounded
      have room := takes limit why bounded
      simp only [Array.size_append, List.size_toArray]
      omega

/-- Taking lines does not change whether a writer can be flushed. -/
theorem flushError?_after
    (writer : LogWriter)
    (lines : List String) :
    (writer.after lines).flushError? = writer.flushError? := by
  cases writer <;> rfl

end LogWriter

namespace Narrator

/-- A narrator whose log has no trouble. -/
structure Untroubled (narrator : Narrator) : Prop where
  logging : narrator.logging = true
  takes : ∀ count, narrator.emitter.writer.Takes count
  flushes : narrator.emitter.writer.flushError? = none

/-- The step: a notice is told by the line that it shows, and the log stays out of trouble. -/
theorem Untroubled.tell
    {narrator : Narrator}
    (untroubled : narrator.Untroubled)
    (notice : Notice) :
    (narrator.tell notice).Untroubled ∧
      (narrator.tell notice).progress = narrator.progress ∧
      (narrator.tell notice).shown.toList =
        narrator.shown.toList ++ (notice.line? narrator.progress).toList := by
  obtain ⟨logging, takes, flushes⟩ := untroubled
  cases notice with
  | progress line =>
      cases shows : narrator.progress with
      | false =>
          have told : narrator.tell (.progress line) = narrator := by
            simp [Narrator.tell, shows]
          rw [told]
          exact ⟨⟨logging, takes, flushes⟩, shows, by simp [Notice.line?]⟩
      | true =>
          have told : narrator.tell (.progress line) = narrator.display line := by
            simp [Narrator.tell, shows]
          rw [told]
          exact ⟨⟨logging, takes, flushes⟩, shows, by simp [Notice.line?, display]⟩
  | warning line =>
      exact ⟨⟨logging, takes, flushes⟩, rfl, by simp [Narrator.tell, display, Notice.line?]⟩
  | entry entry =>
      obtain ⟨emitted, _⟩ := Emitter.emit_of_takes (takes 1) entry
      have told :
          narrator.tell (.entry entry) =
            { narrator with emitter := narrator.emitter.wrote [entry] } := by
        simp only [Narrator.tell, log, logging, ↓reduceIte, emitted]
      rw [told]
      refine ⟨⟨logging, fun count => (takes _).after, ?_⟩, rfl, by simp [Notice.line?]⟩
      exact (LogWriter.flushError?_after _ _).trans flushes
  | flush =>
      have told : narrator.tell .flush = narrator := by
        simp only [Narrator.tell, flush, flushes]
      rw [told]
      exact ⟨⟨logging, takes, flushes⟩, rfl, by simp [Notice.line?]⟩

/-- The run: what is shown are the lines of the notices. -/
theorem Untroubled.shown_foldl
    {narrator : Narrator}
    (untroubled : narrator.Untroubled)
    (notices : List Notice) :
    (notices.foldl Narrator.tell narrator).shown.toList =
      narrator.shown.toList ++ notices.filterMap (Notice.line? narrator.progress) := by
  induction notices generalizing narrator with
  | nil =>
      simp
  | cons notice others inductionHypothesis =>
      obtain ⟨stays, progress, shown⟩ := untroubled.tell notice
      rw [List.foldl_cons, inductionHypothesis stays, shown, progress, List.filterMap_cons,
        List.append_assoc]
      cases notice.line? narrator.progress <;> rfl

end Narrator

/-! ## Which of the lines are warnings -/

/-- The text about a directory that could not be made current again is a warning. -/
theorem RestoreFailure.isWarning_text (failure : RestoreFailure) :
    isWarning failure.text = true := by
  have warns : isWarning "warning: failed to restore working directory " = true := by decide
  exact isWarning_append (isWarning_append (isWarning_append (isWarning_append
    (isWarning_append warns _) _) _) _) _

/-- A line about a step is none. -/
theorem RunEvent.isWarning_stepMark
    (total index : Nat)
    (rest : String) :
    isWarning (stepMark total index ++ rest) = false := by
  simp only [stepMark, String.append_assoc]
  exact isWarning_append_of_head (by rfl) (by decide) _

/-- A line of progress shows no warning, if it is none. -/
theorem Notice.filter_progress
    {line : String}
    (quiet : isWarning line = false)
    (progress : Bool) :
    ([Notice.progress line].filterMap (Notice.line? progress)).filter isWarning = [] := by
  cases progress <;> simp [line?, quiet]

/-- Of all that is told about an occurrence, the warning is the only one. -/
theorem Occurrence.filter_lines
    (progress : Bool)
    (total : Nat)
    (occurrence : Occurrence) :
    ((occurrence.notices total).filterMap (Notice.line? progress)).filter isWarning =
      occurrence.event.warning?.toList := by
  obtain ⟨clock, event⟩ := occurrence
  have before :
      ((event.linesBefore total).filterMap (Notice.line? progress)).filter isWarning =
        event.warning?.toList := by
    cases event with
    | restoreFailed failure =>
        simp [RunEvent.linesBefore, RunEvent.warning?, Notice.line?, failure.isWarning_text]
    | stepStarted index step command =>
        refine Notice.filter_progress ?_ progress
        rw [String.append_assoc, String.append_assoc]
        exact RunEvent.isWarning_stepMark total index _
    | workspaceUnavailable index step message =>
        refine Notice.filter_progress ?_ progress
        rw [String.append_assoc]
        exact RunEvent.isWarning_stepMark total index _
    | _ =>
        rfl
  have entry :
      ((event.entry? clock).map Notice.entry).toList.filterMap (Notice.line? progress) = [] := by
    cases event.entry? clock <;> rfl
  have behind :
      ((event.noticesAfter total).filterMap (Notice.line? progress)).filter isWarning = [] := by
    cases event with
    | stepFinished index step command status durationMs =>
        simp only [RunEvent.noticesAfter]
        split
        · rfl
        · refine Notice.filter_progress ?_ progress
          simp only [String.append_assoc]
          exact RunEvent.isWarning_stepMark total index _
    | _ =>
        rfl
  rw [notices, List.filterMap_append, List.filterMap_append, entry, List.filter_append,
    List.filter_append, before, behind, List.filter_nil, List.append_nil, List.append_nil]

/-- The warnings that are shown of a run are those about its occurrences. -/
theorem Narrator.Untroubled.filter_shown_tellRun
    {narrator : Narrator}
    (untroubled : narrator.Untroubled)
    (total : Nat)
    (occurrences : List Occurrence) :
    (narrator.tellRun total occurrences).shown.toList.filter isWarning =
      narrator.shown.toList.filter isWarning
        ++ occurrences.filterMap fun occurrence => occurrence.event.warning? := by
  rw [tellRun, untroubled.shown_foldl, List.filter_append]
  congr 1
  induction occurrences with
  | nil =>
      rfl
  | cons occurrence others inductionHypothesis =>
      rw [List.flatMap_cons, List.filterMap_append, List.filter_append, inductionHypothesis,
        occurrence.filter_lines, List.filterMap_cons]
      cases occurrence.event.warning? <;> rfl

theorem StepRecord.isWarning_failureLines (record : StepRecord) :
    ∀ line ∈ record.failureLines, isWarning line = false := by
  simp only [failureLines, List.forall_mem_cons, String.append_assoc]
  refine ⟨?_, ?_, ?_, List.forall_mem_nil _⟩ <;>
    exact isWarning_append_of_head (by rfl) (by decide) _

/-- The summary of a run has no warnings. -/
theorem RunResult.filter_summaryLines (result : RunResult) :
    result.summaryLines.filter isWarning = [] := by
  have headline : isWarning (RunSummary.ofResult result).headline = false := by
    rw [RunSummary.headline]
    split <;>
      · simp only [String.append_assoc]
        exact isWarning_append_of_head (by rfl) (by decide) _
  have termination (text : String) : isWarning ("  " ++ text) = false :=
    isWarning_append_of_head (by rfl) (by decide) text
  have quiet : ∀ line ∈ result.summaryLines, isWarning line = false := by
    refine List.forall_mem_cons.mpr ⟨headline, ?_⟩
    split
    · exact List.forall_mem_nil _
    · refine List.forall_mem_append.mpr ⟨?_, ?_⟩
      · intro line member
        obtain ⟨record, _, isLine⟩ := List.mem_flatMap.mp member
        exact record.isWarning_failureLines line isLine
      · intro line member
        obtain ⟨text, _, rfl⟩ := Option.map_eq_some_iff.mp (Option.mem_toList.mp member)
        exact termination text
  exact List.filter_eq_nil_iff.mpr fun line member => Bool.eq_false_iff.mp (quiet line member)

end VerifyPipeline
