import VerifyPipeline.Proofs.Log.Emission

namespace VerifyPipeline

/-!
# Well-formed logs

An entry that is put together from an event, a step, a status and details keeps every rule of the
schema as soon as it has its ids, and is read back as it is.  So an emitter that takes only such
entries writes a log without errors.
-/

open Json

namespace LogEntry

/-! ## Well-formed entries -/

/-- An entry that keeps every rule and is read back as it is. -/
structure WellFormed (entry : LogEntry) : Prop where
  readable : entry.Readable
  faultless : entry.faults = []
  same : entry.readBack = entry

/-- The line of a well-formed entry is accepted and read as the entry. -/
theorem WellFormed.checkText_line
    {entry : LogEntry}
    (wellFormed : entry.WellFormed) :
    LogSchema.checkText entry.line.toList = .ok entry := by
  have checked := LogEntry.checkText_line wellFormed.readable
  rwa [wellFormed.faultless, wellFormed.same] at checked

/-- Well-formed entries break no rule, whatever their lines are numbered from. -/
theorem errorsFrom_of_wellFormed
    {entries : List LogEntry}
    (wellFormed : ∀ entry ∈ entries, entry.WellFormed)
    (number : Nat) :
    errorsFrom number entries = [] := by
  induction entries generalizing number with
  | nil =>
      rfl
  | cons entry others inductionHypothesis =>
      rw [List.forall_mem_cons] at wellFormed
      rw [errorsFrom, wellFormed.1.faultless, inductionHypothesis wellFormed.2]
      rfl

/-! ## Entries without ids -/

/-- An entry without ids that otherwise keeps every rule. -/
structure Emittable (entry : LogEntry) : Prop where
  readable : entry.Readable
  /-- The details are read back as they are. -/
  settled : readDetails entry.details = entry.details
  tier : ∀ word ∈ entry.tier, word ∈ Tier.all.map Tier.label
  policy : ∀ word ∈ entry.policy, word ∈ FailurePolicy.all.map FailurePolicy.label
  stepped : entry.outcome.isSome → entry.stepId.isSome
  untraced : entry.traceId = ""
  unowned : entry.runId = none

/-- An object of values that contain no others can be read inside the object of an entry. -/
theorem fits_object
    {members : List (String × Json)}
    (exact : ∀ member ∈ members, member.2.Exact)
    (flat : ∀ member ∈ members, member.2.depth = 0) :
    Fits (.object members) := by
  have depth : (object members).depth ≤ 0 + 1 :=
    depth_object_le fun member isMember => Nat.le_of_eq (flat member isMember)
  exact ⟨.object exact, Nat.lt_of_le_of_lt (Nat.succ_le_succ depth) (by decide)⟩

/-- An entry without a trace id can be emitted when it has been made. -/
theorem emittable_create
    (now : Instant)
    (level : LogLevel)
    (event : String) :
    (create now "" level event).Emittable where
  readable := ⟨nofun, nofun, nofun, nofun⟩
  settled := rfl
  tier := nofun
  policy := nofun
  stepped := nofun
  untraced := rfl
  unowned := rfl

namespace Emittable

variable {entry : LogEntry}

/-- An entry can still be written with the fields of a step, if the position is a word. -/
theorem withStep
    (emittable : entry.Emittable)
    {index : Nat}
    (below : index < Decoder.wordLimit)
    (step : Step) :
    (entry.withStep index step).Emittable := by
  have tier : step.tier.label ∈ Tier.all.map Tier.label := by
    cases step.tier <;> decide
  have policy : step.policy.label ∈ FailurePolicy.all.map FailurePolicy.label := by
    cases step.policy <;> decide
  exact { emittable with
    readable := { emittable.readable with index := by rintro _ ⟨rfl⟩; exact below }
    tier := by rintro _ ⟨rfl⟩; exact tier
    policy := by rintro _ ⟨rfl⟩; exact policy
    stepped := fun _ => rfl }

theorem withCommand
    (emittable : entry.Emittable)
    (command : String) :
    (entry.withCommand command).Emittable :=
  { emittable with readable := { emittable.readable with } }

/-- An outcome needs a step. -/
theorem withOutcome
    (emittable : entry.Emittable)
    (stepped : entry.stepId.isSome)
    (outcome : Outcome) :
    (entry.withOutcome outcome).Emittable :=
  { emittable with
    readable := { emittable.readable with }
    stepped := fun _ => stepped }

theorem withExitCode
    (emittable : entry.Emittable)
    (code : Int32) :
    (entry.withExitCode code).Emittable :=
  { emittable with readable := { emittable.readable with } }

/-- A duration has to be a word. -/
theorem withDurationMs
    (emittable : entry.Emittable)
    {milliseconds : Nat}
    (below : milliseconds < Decoder.wordLimit) :
    (entry.withDurationMs milliseconds).Emittable :=
  { emittable with
    readable := { emittable.readable with duration := by rintro _ ⟨rfl⟩; exact below } }

/-- Details have to be such that they can be read. -/
theorem withDetails
    (emittable : entry.Emittable)
    {members : List (String × Json)}
    (fits : Fits (.object members)) :
    (entry.withDetails (.object members)).Emittable := by
  obtain ⟨exact, shallow⟩ := fits
  have depth := exact.depth_canonical_le
  exact { emittable with
    readable := { emittable.readable with
      exact := by rintro _ ⟨rfl⟩; exact exact.canonical
      shallow := by rintro _ ⟨rfl⟩; omega }
    settled := congrArg some (canonical_canonical (.object members)) }

/-- With the status of a step come its outcome and its exit code; the failure to start a program is
the only status that replaces the details. -/
theorem withStatus
    (emittable : entry.Emittable)
    (stepped : entry.stepId.isSome)
    (status : StepStatus) :
    (entry.withStatus status).Emittable := by
  cases status with
  | launchFailed message =>
      have fits : Fits (.object [("launch_error", .string message)]) :=
        fits_object (by simp [Exact.string]) (by simp [depth])
      have described := (emittable.withDetails fits).withOutcome stepped .error
      exact { described with readable := { described.readable with } }
  | _ =>
      exact { emittable with
        readable := { emittable.readable with }
        stepped := fun _ => stepped }

/-- With its ids, an emittable entry is well formed. -/
theorem wellFormed_complete
    (emittable : entry.Emittable)
    {emitter : Emitter}
    (plain : ¬ [':', ':'] <:+: emitter.runId.toList) :
    (emitter.complete entry).WellFormed := by
  have parts := (Emitter.length_splitAtDoubleColon_traceId _ (emitter.sequence + 1)).mpr plain
  refine ⟨{ emittable.readable with }, ?_, ?_⟩
  · have outcome : (entry.outcome.isSome && entry.stepId.isNone) = false := by
      rw [Bool.and_eq_false_imp, Option.isNone_eq_false_iff]
      exact emittable.stepped
    simp [faults, Emitter.complete, foreignWord?_of_mem emittable.tier,
      foreignWord?_of_mem emittable.policy, outcome, emittable.untraced, parts]
  · simp only [readBack, Emitter.complete, emittable.settled]

end Emittable

end LogEntry

/-! ## Logs -/

namespace Emitter

/-- Entries that can be emitted are well formed when they have got their trace ids and a run id
without a double colon. -/
theorem wellFormed_of_mem_completed
    {runId : String}
    {sequence : Nat}
    {entries : List LogEntry}
    (emittable : ∀ entry ∈ entries, entry.Emittable)
    (plain : ¬ [':', ':'] <:+: runId.toList) :
    ∀ entry ∈ completed runId sequence entries, entry.WellFormed := by
  induction entries generalizing sequence with
  | nil =>
      exact List.forall_mem_nil _
  | cons entry others inductionHypothesis =>
      rw [List.forall_mem_cons] at emittable
      refine List.forall_mem_cons.mpr ⟨?_, inductionHypothesis emittable.2⟩
      exact @LogEntry.Emittable.wellFormed_complete entry emittable.1 ⟨.discard, sequence, runId⟩
        plain

/-- What an emitter has become by writing entries that leave their ids to it. -/
structure Logged (before after : Emitter) (entries : List LogEntry) : Prop where
  written :
    after =
      { before with
        writer := before.writer.after (entries.map LogEntry.line)
        sequence := before.sequence + entries.length }
  numbered :
    ∀ index entry,
      entries[index]? = some entry →
        entry.traceId = traceId before.runId (before.sequence + 1 + index) ∧
          entry.runId = some before.runId
  /-- There is one physical line for each entry. -/
  lines :
    Text.lines (Text.ofLines (entries.map LogEntry.line)).toList =
      entries.map fun entry => entry.line.toList
  readBack : ∀ entry ∈ entries, LogSchema.checkText entry.line.toList = .ok entry
  checked :
    LogCheck.ofText (Text.ofLines (entries.map LogEntry.line)).toList = ⟨entries.length, []⟩

/-- Emittable entries are logged without errors. -/
theorem logged_wrote
    {emitter : Emitter}
    {entries : List LogEntry}
    (emittable : ∀ entry ∈ entries, entry.Emittable)
    (plain : ¬ [':', ':'] <:+: emitter.runId.toList) :
    emitter.Logged (emitter.wrote entries) (completed emitter.runId emitter.sequence entries) := by
  have wellFormed := @wellFormed_of_mem_completed _ emitter.sequence _ emittable plain
  have readable :
      ∀ entry ∈ completed emitter.runId emitter.sequence entries, entry.Readable :=
    fun entry member => (wellFormed entry member).readable
  have untraced : ∀ entry ∈ entries, entry.traceId = "" :=
    fun entry member => (emittable entry member).untraced
  constructor
  · have counted : (entries.countP fun entry => entry.traceId = "") = entries.length := by
      simpa [List.countP_eq_length] using untraced
    simp only [wrote, counted, length_completed]
  · intro index entry found
    rw [getElem?_completed untraced, Option.map_eq_some_iff] at found
    obtain ⟨original, found, rfl⟩ := found
    have unowned := (emittable original (List.mem_of_getElem? found)).unowned
    simp [unowned]
  · exact LogEntry.lines_ofLines_line readable
  · exact fun entry member => (wellFormed entry member).checkText_line
  · rw [LogEntry.ofText_ofLines_line readable, LogEntry.errorsFrom_of_wellFormed wellFormed]

end Emitter

end VerifyPipeline
