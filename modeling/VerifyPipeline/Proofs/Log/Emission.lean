import VerifyPipeline.Proofs.Log.Lines
import VerifyPipeline.Proofs.Text.Splitting
import VerifyPipeline.Run.Narration

namespace VerifyPipeline

/-!
# Emitting entries

As long as its writer takes lines, an emitter writes one line for each entry, and numbers the
entries that have no trace id one after the other.
-/

/-! ## Writers -/

namespace LogWriter

/-- The writer takes so many lines more. -/
def Takes : LogWriter → Nat → Prop
  | .discard, _ => True
  | .keep lines limit? _, count =>
    ∀ limit why, limit? = some (limit, why) → lines.size + count ≤ limit

/-- The writer after it has taken lines. -/
def after : LogWriter → List String → LogWriter
  | .discard, _ => .discard
  | .keep lines limit? flushError?, more => .keep (lines ++ more.toArray) limit? flushError?

/-- A writer with room for a line takes it, and has the rest of the room left. -/
theorem Takes.write
    {writer : LogWriter}
    {count : Nat}
    (takes : writer.Takes (count + 1))
    (line : String) :
    writer.write line = .ok (writer.after [line]) ∧ (writer.after [line]).Takes count := by
  cases writer with
  | discard =>
      exact ⟨rfl, trivial⟩
  | keep lines limit? flushError? =>
      cases limit? with
      | none =>
          exact ⟨by simp [LogWriter.write, after], nofun⟩
      | some bound =>
          obtain ⟨limit, why⟩ := bound
          have room := takes limit why rfl
          have below : lines.size < limit := by omega
          refine ⟨by simp [LogWriter.write, after, below], ?_⟩
          rintro _ _ ⟨rfl⟩
          simp only [Array.size_append, List.size_toArray, List.length_singleton]
          omega

theorem after_nil (writer : LogWriter) : writer.after [] = writer := by
  cases writer <;> simp [after]

/-- Lines may be taken together or one part after the other. -/
theorem after_after
    (writer : LogWriter)
    (first second : List String) :
    (writer.after first).after second = writer.after (first ++ second) := by
  cases writer <;> simp [after]

/-- A writer in memory holds the lines that it has taken. -/
theorem lines_after_memory (more : List String) : (memory.after more).lines = more := by
  simp [memory, after, lines]

end LogWriter

/-! ## Emitters -/

namespace Emitter

/-- The entries that an emitter of a run writes, when it has given out so many trace ids, each with
what it adds to them. -/
def completed (runId : String) : Nat → List LogEntry → List LogEntry
  | _, [] => []
  | sequence, entry :: rest =>
    let emitter : Emitter := ⟨.discard, sequence, runId⟩
    emitter.complete entry :: completed runId (emitter.nextSequence entry) rest

/-- The emitter after it has written entries. -/
def wrote (emitter : Emitter) (entries : List LogEntry) : Emitter :=
  { emitter with
    writer :=
      emitter.writer.after ((completed emitter.runId emitter.sequence entries).map LogEntry.line)
    sequence := emitter.sequence + entries.countP fun entry => entry.traceId = "" }

/-- An entry takes a number exactly if it has no trace id yet. -/
theorem nextSequence_eq
    (emitter : Emitter)
    (entry : LogEntry) :
    emitter.nextSequence entry =
      emitter.sequence + [entry].countP fun entry => entry.traceId = "" := by
  by_cases blank : entry.traceId = "" <;> simp [nextSequence, blank]

theorem wrote_nil (emitter : Emitter) : emitter.wrote [] = emitter := by
  simp [wrote, completed, LogWriter.after_nil]

/-- Entries are written one by one. -/
theorem wrote_cons
    (emitter : Emitter)
    (entry : LogEntry)
    (others : List LogEntry) :
    emitter.wrote (entry :: others) = (emitter.wrote [entry]).wrote others := by
  have counted :
      ((entry :: others).countP fun entry => entry.traceId = "") =
        ([entry].countP fun entry => entry.traceId = "")
          + others.countP fun entry => entry.traceId = "" := by
    rw [← List.singleton_append, List.countP_append]
  simp only [wrote, counted, Nat.add_assoc, List.singleton_append, completed, nextSequence_eq,
    LogWriter.after_after, List.map_cons, List.map_nil]

/-- A writer that takes another line lets an entry be emitted. -/
theorem emit_of_takes
    {emitter : Emitter}
    {count : Nat}
    (takes : emitter.writer.Takes (count + 1))
    (entry : LogEntry) :
    emitter.emit entry = (none, emitter.wrote [entry]) ∧
      (emitter.wrote [entry]).writer.Takes count := by
  obtain ⟨written, room⟩ := takes.write (emitter.complete entry).line
  refine ⟨?_, room⟩
  simp only [emit, written, nextSequence_eq]
  rfl

/-- A writer that takes the lines of entries lets all of them be emitted. -/
theorem emitAll_of_takes
    {emitter : Emitter}
    {entries : List LogEntry}
    (takes : emitter.writer.Takes entries.length) :
    emitter.emitAll entries = (none, emitter.wrote entries) := by
  induction entries generalizing emitter with
  | nil =>
      rw [emitAll, wrote_nil]
  | cons entry others inductionHypothesis =>
      obtain ⟨emitted, room⟩ := emit_of_takes takes entry
      rw [emitter.wrote_cons entry others, ← inductionHypothesis room]
      simp only [emitAll, emitted]

/-- Entries without trace ids are numbered one after the other. -/
theorem getElem?_completed
    {entries : List LogEntry}
    (blank : ∀ entry ∈ entries, entry.traceId = "")
    (runId : String)
    (sequence index : Nat) :
    (completed runId sequence entries)[index]? =
      entries[index]?.map fun entry =>
        { entry with
          traceId := traceId runId (sequence + 1 + index)
          runId := some (entry.runId.getD runId) } := by
  induction entries generalizing sequence index with
  | nil =>
      rfl
  | cons entry others inductionHypothesis =>
      rw [List.forall_mem_cons] at blank
      cases index with
      | zero =>
          simp [completed, complete, blank.1]
      | succ index =>
          have next : sequence + 1 + 1 + index = sequence + 1 + (index + 1) := by omega
          simp [completed, nextSequence, blank.1, inductionHypothesis blank.2, next]

/-- No entry is lost when trace ids are given. -/
theorem length_completed
    (runId : String)
    (sequence : Nat)
    (entries : List LogEntry) :
    (completed runId sequence entries).length = entries.length := by
  induction entries generalizing sequence with
  | nil =>
      rfl
  | cons entry others inductionHypothesis =>
      simp [completed, inductionHypothesis]

/-- What does not look at the ids is the same of completed entries. -/
theorem map_completed
    {extract : LogEntry → β}
    (ignores :
      ∀ entry traceId runId,
        extract { entry with traceId := traceId, runId := runId } = extract entry)
    (runId : String)
    (sequence : Nat)
    (entries : List LogEntry) :
    (completed runId sequence entries).map extract = entries.map extract := by
  induction entries generalizing sequence with
  | nil =>
      rfl
  | cons entry others inductionHypothesis =>
      simp only [completed, List.map_cons, inductionHypothesis, complete, ignores]

/-- A trace id has three parts exactly if the run id has no double colon. -/
theorem length_splitAtDoubleColon_traceId
    (runId : String)
    (number : Nat) :
    (Text.splitAtDoubleColon (traceId runId number).toList).length = 3 ↔
      ¬ [':', ':'] <:+: runId.toList := by
  have digits : ':' ∉ (Text.padded 3 number).toList := by
    simp only [Text.padded, String.toList_ofList, List.mem_append, not_or]
    constructor
    · exact fun found => absurd (List.eq_of_mem_replicate found) (by decide)
    · exact fun found => absurd (Json.Reader.isDigit_of_mem_toDigits found) (by decide)
  have start : ':' ∉ traceStart.toList := by decide
  have parts :
      (traceId runId number).toList =
        traceStart.toList
          ++ ':' :: ':' :: (runId.toList ++ ':' :: ':' :: (Text.padded 3 number).toList) := by
    simp [traceId]
  rw [parts, Text.length_splitAtDoubleColon_of_not_mem start,
    Text.length_splitAtDoubleColon_append _ digits, ← Text.length_splitAtDoubleColon_eq_one_iff]
  omega

end Emitter

/-! ## Narrators -/

/-- The entry that is to be logged. -/
def Notice.entry? : Notice → Option LogEntry
  | .entry logged => some logged
  | _ => none

namespace Narrator

/-- A notice without an entry leaves the log alone. -/
theorem tell_of_entry?_eq_none
    (narrator : Narrator)
    {notice : Notice}
    (silent : notice.entry? = none) :
    (narrator.tell notice).emitter = narrator.emitter ∧
      (narrator.tell notice).logging = narrator.logging := by
  cases notice with
  | progress line =>
      rw [tell]
      split <;> exact ⟨rfl, rfl⟩
  | warning line =>
      exact ⟨rfl, rfl⟩
  | entry entry =>
      contradiction
  | flush =>
      rw [tell, flush]
      split
      · split <;> exact ⟨rfl, rfl⟩
      · exact ⟨rfl, rfl⟩

/-- Telling notices comes down to emitting their entries, since nothing else reaches the writer. -/
theorem foldl_tell
    {narrator : Narrator}
    {notices : List Notice}
    (logging : narrator.logging = true)
    (takes : narrator.emitter.writer.Takes (notices.filterMap Notice.entry?).length) :
    (notices.foldl tell narrator).emitter =
        narrator.emitter.wrote (notices.filterMap Notice.entry?) ∧
      (notices.foldl tell narrator).logging = true := by
  induction notices generalizing narrator with
  | nil =>
      exact ⟨(Emitter.wrote_nil _).symm, logging⟩
  | cons notice others inductionHypothesis =>
      cases entry : notice.entry? with
      | none =>
          obtain ⟨sameEmitter, sameLogging⟩ := narrator.tell_of_entry?_eq_none entry
          simp only [List.filterMap_cons_none entry] at takes ⊢
          rw [← sameEmitter] at takes ⊢
          exact inductionHypothesis (sameLogging.trans logging) takes
      | some logged =>
          obtain rfl : notice = .entry logged := by
            cases notice with
            | entry _ =>
                exact congrArg Notice.entry (Option.some.inj entry)
            | _ =>
                contradiction
          simp only [List.filterMap_cons_some entry, List.length_cons] at takes ⊢
          obtain ⟨emitted, room⟩ := Emitter.emit_of_takes takes logged
          have told :
              narrator.tell (.entry logged) =
                { narrator with emitter := narrator.emitter.wrote [logged] } := by
            simp only [tell, log, logging, ↓reduceIte, emitted]
          rw [List.foldl_cons, told, narrator.emitter.wrote_cons logged (others.filterMap _)]
          exact @inductionHypothesis
            { narrator with emitter := narrator.emitter.wrote [logged] } logging room

end Narrator

end VerifyPipeline
