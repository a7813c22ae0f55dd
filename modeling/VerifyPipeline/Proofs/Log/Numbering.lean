import VerifyPipeline.Proofs.Log.Emission
import VerifyPipeline.Proofs.Log.Validation
import VerifyPipeline.Proofs.Text.Numerals

namespace VerifyPipeline

/-!
# Logs of any entries

Entries with trace ids of their own may be mixed with ones that leave theirs to the emitter, and
their texts may hold anything.  The log has a line for each of them all the same, and its check
reports what each entry breaks under the number of its line.
-/

/-! ## Trace ids -/

namespace Emitter

/-- How many entries leave their trace ids to the emitter. -/
def untraced (entries : List LogEntry) : Nat := entries.countP fun entry => entry.traceId = ""

/-- Entries without a trace id are counted one by one. -/
theorem untraced_cons
    (entry : LogEntry)
    (others : List LogEntry) :
    untraced (entry :: others) = untraced [entry] + untraced others := by
  rw [untraced, ← List.singleton_append]
  exact List.countP_append

/-- An entry is completed by an emitter that has given out as many trace ids as entries before it
have needed one. -/
theorem getElem?_completed_eq
    (runId : String)
    (sequence index : Nat)
    (entries : List LogEntry) :
    (completed runId sequence entries)[index]? =
      entries[index]?.map
        (complete ⟨.discard, sequence + untraced (entries.take index), runId⟩) := by
  induction entries generalizing sequence index with
  | nil =>
      rfl
  | cons entry others inductionHypothesis =>
      cases index with
      | zero =>
          rfl
      | succ index =>
          rw [completed, List.getElem?_cons_succ, inductionHypothesis, nextSequence_eq,
            List.getElem?_cons_succ, List.take_succ_cons, untraced_cons, Nat.add_assoc]
          rfl

/-- Whatever has been written is an entry that an emitter has completed. -/
theorem exists_complete_of_mem_completed
    {runId : String}
    {sequence : Nat}
    {entries : List LogEntry}
    {entry : LogEntry}
    (member : entry ∈ completed runId sequence entries) :
    ∃ original ∈ entries, ∃ emitter, entry = complete emitter original := by
  obtain ⟨index, found⟩ := List.getElem?_of_mem member
  rw [getElem?_completed_eq, Option.map_eq_some_iff] at found
  obtain ⟨original, isEntry, rfl⟩ := found
  exact ⟨original, List.mem_of_getElem? isEntry, _, rfl⟩

/-- A trace id spells the run and the number, in at least three digits. -/
structure Spells (runId : String) (number : Nat) (digits : List Char) : Prop where
  text :
    (traceId runId number).toList =
      "lexical-verify::".toList ++ runId.toList ++ "::".toList ++ digits
  areDigits : ∀ c ∈ digits, c.isDigit = true
  numeral : Text.numeral digits = number
  length : digits.length = max 3 (Nat.toDigits 10 number).length

/-- A padded number spells the number of an entry. -/
theorem spells_padded
    (runId : String)
    (number : Nat) :
    Spells runId number (Text.padded 3 number).toList where
  text := by
    simp [traceId, traceStart]
  areDigits := fun _ member => Text.isDigit_of_mem_padded member
  numeral := Text.numeral_padded 3 number
  length := by
    rw [Text.toList_padded, List.length_append, List.length_replicate]
    omega

/-- Entries are written with their own ids, or else with the next trace id and the run of the
emitter. -/
structure Completes (runId : String) (entries written : List LogEntry) : Prop where
  length : written.length = entries.length
  completed :
    ∀ (index : Nat) (entry : LogEntry),
      entries[index]? = some entry →
        written[index]? =
          some { entry with
            traceId :=
              if entry.traceId = "" then traceId runId (untraced (entries.take (index + 1)))
              else entry.traceId
            runId := some (entry.runId.getD runId) }

/-- An entry without a trace id is given the number of such entries up to it. -/
theorem Completes.exists_given
    {runId : String}
    {entries written : List LogEntry}
    (completes : Completes runId entries written)
    {index : Nat}
    {entry : LogEntry}
    (isEntry : entries[index]? = some entry)
    (blank : entry.traceId = "") :
    ∃ other,
      written[index]? = some other ∧
        other.traceId = traceId runId (untraced (entries.take (index + 1))) :=
  ⟨_, completes.completed index entry isEntry, if_pos blank⟩

/-- The entries of an emitter are completed like that. -/
theorem completes_completed
    (runId : String)
    (entries : List LogEntry) :
    Completes runId entries (completed runId 0 entries) where
  length := length_completed runId 0 entries
  completed := by
    intro index entry found
    rw [getElem?_completed_eq, found, Option.map_some, Nat.zero_add]
    by_cases blank : entry.traceId = ""
    · have counted :
          untraced (entries.take (index + 1)) = untraced (entries.take index) + 1 := by
        rw [List.take_add_one, found]
        simp [untraced, blank]
      simp only [complete, blank, counted]
    · simp only [complete, blank, ↓reduceIte]

end Emitter

/-! ## The check of a log -/

namespace LogEntry

theorem Readable.complete
    {entry : LogEntry}
    (readable : entry.Readable)
    (emitter : Emitter) :
    (emitter.complete entry).Readable :=
  { readable with }

/-- Completed entries can still be read back. -/
theorem readable_completed
    {entries : List LogEntry}
    (readable : ∀ entry ∈ entries, entry.Readable)
    (runId : String)
    (sequence : Nat) :
    ∀ entry ∈ Emitter.completed runId sequence entries, entry.Readable := by
  intro entry member
  obtain ⟨original, isEntry, emitter, rfl⟩ := Emitter.exists_complete_of_mem_completed member
  exact (readable original isEntry).complete emitter

/-- The errors of entries come entry by entry, each under the number of its entry. -/
theorem exists_errorsFrom
    (number : Nat)
    (entries : List LogEntry) :
    ∃ parts : List (List SchemaError),
      errorsFrom number entries = parts.flatten ∧
        List.Forall₂ (fun numbered part => Reports numbered.1 numbered.2 part)
          (entries.zipIdx number) parts := by
  induction entries generalizing number with
  | nil =>
      exact ⟨[], rfl, .nil⟩
  | cons entry others inductionHypothesis =>
      obtain ⟨parts, errors, report⟩ := inductionHypothesis (number + 1)
      refine ⟨entry.faults.map (SchemaError.mk number) :: parts, ?_, ?_⟩
      · rw [errorsFrom, errors, List.flatten_cons]
      · exact .cons (entry.reports_map_faults number) report

/-- The errors of a log are at the entries that break the rules. -/
theorem mem_errorsFrom_iff
    {number : Nat}
    {entries : List LogEntry}
    {error : SchemaError} :
    error ∈ errorsFrom number entries ↔
      ∃ index entry,
        entries[index]? = some entry ∧ error.line = number + index ∧ entry.Breaks error.fault := by
  induction entries generalizing number with
  | nil =>
      simp [errorsFrom]
  | cons entry others inductionHypothesis =>
      have first := (entry.reports_map_faults number).exact error
      rw [errorsFrom, List.mem_append, first, inductionHypothesis]
      constructor
      · rintro (⟨line, breaks⟩ | ⟨index, other, found, line, breaks⟩)
        · exact ⟨0, entry, rfl, line, breaks⟩
        · exact ⟨index + 1, other, found, by omega, breaks⟩
      · rintro ⟨index, other, found, line, breaks⟩
        cases index with
        | zero =>
            obtain rfl := Option.some.inj found
            exact .inl ⟨line, breaks⟩
        | succ index =>
            exact .inr ⟨index, other, found, by omega, breaks⟩

end LogEntry

namespace Emitter

/-- What is found in the text of a log of entries. -/
structure Checked (written : List LogEntry) (text : List Char) : Prop where
  /-- There is one physical line for each entry. -/
  lines : Text.lines text = written.map fun entry => entry.line.toList
  untrimmed : ∀ line ∈ Text.lines text, Text.trimChars line = line
  counted : (LogCheck.ofText text).lines = written.length
  /-- The errors are those of the entries, each under the number of its entry. -/
  reported :
    ∃ parts : List (List SchemaError),
      (LogCheck.ofText text).errors = parts.flatten ∧
        List.Forall₂ (fun numbered part => LogEntry.Reports numbered.1 numbered.2 part)
          (written.zipIdx 1) parts

/-- The trace ids that were given out are in order exactly if the run id has no double colon. -/
def TracesPlain (runId : String) (entries : List LogEntry) (errors : List SchemaError) : Prop :=
  ∀ (index : Nat) (entry : LogEntry),
    entries[index]? = some entry →
      entry.traceId = "" →
        ((∀ error ∈ errors, error.line = index + 1 → ∀ found, error.fault ≠ .traceId found) ↔
          ¬ [':', ':'] <:+: runId.toList)

/-- The lines of entries that can be read back are checked entry by entry. -/
theorem checked_ofLines
    {written : List LogEntry}
    (readable : ∀ entry ∈ written, entry.Readable) :
    Checked written (Text.ofLines (written.map LogEntry.line)).toList where
  lines := LogEntry.lines_ofLines_line readable
  untrimmed := by
    rw [LogEntry.lines_ofLines_line readable]
    refine List.forall_mem_map.mpr fun entry _ => ?_
    obtain ⟨first, others, text, trimmed⟩ := entry.trimChars_line
    rw [text, trimmed]
  counted := by
    rw [LogEntry.ofText_ofLines_line readable]
  reported := by
    rw [LogEntry.ofText_ofLines_line readable]
    exact LogEntry.exists_errorsFrom 1 written

/-- A trace id that was given out is reported exactly if it has not three parts. -/
theorem tracesPlain_errorsFrom
    {runId : String}
    {entries written : List LogEntry}
    (completes : Completes runId entries written) :
    TracesPlain runId entries (LogEntry.errorsFrom 1 written) := by
  intro index entry isEntry blank
  obtain ⟨other, found, given⟩ := completes.exists_given isEntry blank
  rw [← length_splitAtDoubleColon_traceId, ← given]
  constructor
  · intro silent
    refine Decidable.byContradiction fun parts => ?_
    have breaks : other.Breaks (.traceId other.traceId) := .traceId parts
    have reported : ⟨index + 1, .traceId other.traceId⟩ ∈ LogEntry.errorsFrom 1 written :=
      LogEntry.mem_errorsFrom_iff.mpr ⟨index, other, found, Nat.add_comm index 1, breaks⟩
    exact silent _ reported rfl _ rfl
  · intro parts error reported line id isFault
    obtain ⟨position, another, isWritten, sameLine, breaks⟩ :=
      LogEntry.mem_errorsFrom_iff.mp reported
    obtain rfl : position = index := by omega
    obtain rfl := Option.some.inj (isWritten.symm.trans found)
    rw [isFault] at breaks
    cases breaks with
    | traceId notThree =>
        exact notThree parts

/--
With a writer that takes its lines, an emitter writes a line for each entry,
whatever is in its texts.  Entries without trace ids are numbered in their
order, others keep theirs, and the check of the log counts the entries and
reports what each of them breaks, under its position.  The trace ids that were
given out are reported exactly if the run id has a double colon.
-/
theorem emitAll_checked
    {entries : List LogEntry}
    (readable : ∀ entry ∈ entries, entry.Readable)
    {limit? : Option (Nat × OsError)}
    {flushError? : Option OsError}
    (takes : (LogWriter.keep #[] limit? flushError?).Takes entries.length)
    (runId : String) :
    ∃ after written,
      (ofWriter (.keep #[] limit? flushError?) runId).emitAll entries = (none, after) ∧
        Completes runId entries written ∧
        (∀ number, ∃ digits, Spells runId number digits) ∧
        Checked written after.writer.text.toList ∧
        TracesPlain runId entries (LogCheck.ofText after.writer.text.toList).errors := by
  let written := completed runId 0 entries
  have completes : Completes runId entries written := completes_completed runId entries
  have readableWritten := LogEntry.readable_completed readable runId 0
  have emitted :
      (ofWriter (.keep #[] limit? flushError?) runId).emitAll entries =
        (none, (ofWriter (.keep #[] limit? flushError?) runId).wrote entries) :=
    emitAll_of_takes takes
  have text :
      ((ofWriter (.keep #[] limit? flushError?) runId).wrote entries).writer.text =
        Text.ofLines (written.map LogEntry.line) := by
    simp only [LogWriter.text, wrote, ofWriter, LogWriter.after, LogWriter.lines,
      Array.empty_append]
    rfl
  refine ⟨_, written, emitted, completes, fun number => ⟨_, spells_padded runId number⟩, ?_⟩
  rw [text]
  refine ⟨checked_ofLines readableWritten, ?_⟩
  rw [LogEntry.ofText_ofLines_line readableWritten]
  exact tracesPlain_errorsFrom completes

/-- An entry with an id of its own between two without, for a run id with colons at its ends. -/
theorem emitAll_checked_mixed :
    let blank : LogEntry := (LogEntry.create 0 "" .info "a\nb\"\x01").withDetails (.object [])
    let own : LogEntry := { blank with traceId := "own::id", runId := some "other" }
    let entries := [blank, own, blank]
    (∀ entry ∈ entries, entry.Readable) ∧
      (LogWriter.keep #[] (some (3, .noSpace)) none).Takes entries.length ∧
      ∃ after written,
        (ofWriter (.keep #[] (some (3, .noSpace)) none) ":a:").emitAll entries = (none, after) ∧
          Checked written after.writer.text.toList ∧
          TracesPlain ":a:" entries (LogCheck.ofText after.writer.text.toList).errors ∧
          written.map LogEntry.traceId =
            ["lexical-verify:::a:::001", "own::id", "lexical-verify:::a:::002"] ∧
          written.map LogEntry.runId = [some ":a:", some "other", some ":a:"] := by
  intro blank own entries
  have details : ∀ details ∈ blank.details, details = .object [] := by
    rintro _ ⟨rfl⟩
    rfl
  have readable : blank.Readable :=
    { index := nofun
      duration := nofun
      exact := fun found present => by
        rw [details found present]
        exact .object (List.forall_mem_nil _)
      shallow := fun found present => by
        rw [details found present]
        decide }
  have allReadable : ∀ entry ∈ entries, entry.Readable := by
    have owned : own.Readable := { readable with }
    simp [entries, readable, owned]
  have takes : (LogWriter.keep #[] (some (3, .noSpace)) none).Takes entries.length := by
    rintro _ _ ⟨rfl⟩
    exact Nat.le_refl 3
  obtain ⟨after, written, emitted, completes, -, checked, plain⟩ :=
    emitAll_checked allReadable takes ":a:"
  obtain ⟨first, second, third, rfl⟩ := List.length_eq_three.mp completes.length
  have isFirst := completes.completed 0 blank rfl
  have isSecond := completes.completed 1 own rfl
  have isThird := completes.completed 2 blank rfl
  obtain rfl := Option.some.inj isFirst
  obtain rfl := Option.some.inj isSecond
  obtain rfl := Option.some.inj isThird
  exact ⟨allReadable, takes, after, _, emitted, checked, plain, by decide +kernel,
    by decide +kernel⟩

end Emitter

end VerifyPipeline
