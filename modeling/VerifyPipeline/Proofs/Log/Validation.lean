import VerifyPipeline.Proofs.Log.ReadBack

namespace VerifyPipeline

/-!
# What the schema says of a written entry

The line of an entry is accepted exactly if the entry is lawful, and what is read back is the entry.
Otherwise the report lists what the entry breaks: each broken rule once, in the order of the rules.
-/

open Json

/-! ## The words of the closed vocabularies -/

/-- The vocabulary of tiers is made of their labels. -/
theorem Tier.mem_labels_iff
    {word : String} :
    word ∈ Tier.all.map Tier.label ↔ ∃ tier : Tier, word = tier.label := by
  constructor
  · intro known
    obtain ⟨tier, -, rfl⟩ := List.mem_map.mp known
    exact ⟨tier, rfl⟩
  · rintro ⟨tier, rfl⟩
    cases tier <;> decide

theorem FailurePolicy.mem_labels_iff
    {word : String} :
    word ∈ FailurePolicy.all.map FailurePolicy.label ↔
      ∃ policy : FailurePolicy, word = policy.label := by
  constructor
  · intro known
    obtain ⟨policy, -, rfl⟩ := List.mem_map.mp known
    exact ⟨policy, rfl⟩
  · rintro ⟨policy, rfl⟩
    cases policy <;> decide

namespace LogEntry

/-! ## Rules and what breaks them -/

/-- An entry that keeps the rules of the schema that the types of its fields leave open. -/
structure Lawful (entry : LogEntry) : Prop where
  traced : (Text.splitAtDoubleColon entry.traceId.toList).length = 3
  tier : ∀ word ∈ entry.tier, ∃ tier : Tier, word = tier.label
  policy : ∀ word ∈ entry.policy, ∃ policy : FailurePolicy, word = policy.label
  stepped : entry.outcome.isSome → entry.stepId.isSome

/-- A rule that an entry breaks, with the fault that it is reported as. -/
inductive Breaks (entry : LogEntry) : SchemaFault → Prop where
  | tier
      {word : String}
      (present : word ∈ entry.tier)
      (foreign : ∀ tier : Tier, word ≠ tier.label) :
      Breaks entry (.invalidValue "tier" word)
  | policy
      {word : String}
      (present : word ∈ entry.policy)
      (foreign : ∀ policy : FailurePolicy, word ≠ policy.label) :
      Breaks entry (.invalidValue "policy" word)
  | outcomeWithoutStep
      (decided : entry.outcome.isSome)
      (stepless : entry.stepId = none) :
      Breaks entry .outcomeWithoutStep
  | traceId
      (parts : (Text.splitAtDoubleColon entry.traceId.toList).length ≠ 3) :
      Breaks entry (.traceId entry.traceId)

/-- A lawful entry breaks no rule in any way. -/
theorem Lawful.not_breaks
    {entry : LogEntry}
    (lawful : entry.Lawful)
    (fault : SchemaFault) :
    ¬ entry.Breaks fault := by
  intro breaks
  cases breaks with
  | tier present foreign =>
      obtain ⟨tier, known⟩ := lawful.tier _ present
      exact foreign tier known
  | policy present foreign =>
      obtain ⟨policy, known⟩ := lawful.policy _ present
      exact foreign policy known
  | outcomeWithoutStep decided stepless =>
      simpa [stepless] using lawful.stepped decided
  | traceId parts =>
      exact parts lawful.traced

/-- An entry that breaks nothing is lawful. -/
theorem lawful_of_not_breaks
    {entry : LogEntry}
    (innocent : ∀ fault, ¬ entry.Breaks fault) :
    entry.Lawful := by
  constructor
  · exact Decidable.byContradiction fun parts => innocent _ (.traceId parts)
  · intro word present
    exact Classical.byContradiction fun foreign =>
      innocent _ (.tier present (not_exists.mp foreign))
  · intro word present
    exact Classical.byContradiction fun foreign =>
      innocent _ (.policy present (not_exists.mp foreign))
  · intro decided
    refine Decidable.byContradiction fun stepless => ?_
    rw [Bool.not_eq_true, Option.isSome_eq_false_iff, Option.isNone_iff_eq_none] at stepless
    exact innocent _ (.outcomeWithoutStep decided stepless)

/-! ## The list of the faults -/

/-- A field is reported exactly if it has a word that is not in its vocabulary. -/
theorem mem_foreignWord?_iff
    {field : String}
    {words : List String}
    {value : Option String}
    {fault : SchemaFault} :
    fault ∈ (foreignWord? field words value).toList ↔
      ∃ word ∈ value, word ∉ words ∧ fault = .invalidValue field word := by
  simp only [foreignWord?, Option.mem_toList, Option.mem_def, Option.map_eq_some_iff,
    Option.filter_eq_some_iff, Bool.not_eq_eq_eq_not, Bool.not_true, List.contains_eq_mem,
    decide_eq_false_iff_not, and_assoc, eq_comm (a := fault)]

/-- The faults of an entry are the ways in which it breaks the rules. -/
theorem mem_faults_iff
    {entry : LogEntry}
    {fault : SchemaFault} :
    fault ∈ entry.faults ↔ entry.Breaks fault := by
  simp only [faults, List.mem_append, mem_foreignWord?_iff, Tier.mem_labels_iff,
    FailurePolicy.mem_labels_iff, not_exists]
  constructor
  · rintro (((⟨word, present, foreign, rfl⟩ | ⟨word, present, foreign, rfl⟩) | outcome) | trace)
    · exact .tier present foreign
    · exact .policy present foreign
    · split at outcome
      · rename_i decided
        rw [Bool.and_eq_true, Option.isNone_iff_eq_none] at decided
        rw [List.mem_singleton.mp outcome]
        exact .outcomeWithoutStep decided.1 decided.2
      · contradiction
    · split at trace
      · contradiction
      · rename_i parts
        rw [List.mem_singleton.mp trace]
        exact .traceId parts
  · intro breaks
    cases breaks with
    | tier present foreign =>
        exact .inl (.inl (.inl ⟨_, present, foreign, rfl⟩))
    | policy present foreign =>
        exact .inl (.inl (.inr ⟨_, present, foreign, rfl⟩))
    | outcomeWithoutStep decided stepless =>
        refine .inl (.inr ?_)
        simp [decided, stepless]
    | traceId parts =>
        refine .inr ?_
        simp [parts]

/-- An entry has no faults exactly if it is lawful. -/
theorem faults_eq_nil_iff {entry : LogEntry} : entry.faults = [] ↔ entry.Lawful := by
  constructor
  · intro none
    refine lawful_of_not_breaks fun fault breaks => ?_
    rw [← mem_faults_iff, none] at breaks
    contradiction
  · intro lawful
    exact List.eq_nil_iff_forall_not_mem.mpr fun fault member =>
      lawful.not_breaks fault (mem_faults_iff.mp member)

/-- The faults are about different fields, in the order of the rules. -/
theorem fields_faults_sublist
    (entry : LogEntry)
    (line : Nat) :
    List.Sublist (entry.faults.map (SchemaError.field? ∘ SchemaError.mk line))
      ([some "tier"] ++ [some "policy"] ++ [some "step_id"] ++ [some "trace_id"]) := by
  have word (field : String) (words : List String) (value : Option String) :
      List.Sublist
        ((foreignWord? field words value).toList.map (SchemaError.field? ∘ SchemaError.mk line))
        [some field] := by
    rw [foreignWord?]
    cases value.filter fun word => !words.contains word with
    | none =>
        exact List.nil_sublist _
    | some word =>
        exact .refl _
  simp only [faults, List.map_append]
  refine (((word _ _ _).append (word _ _ _)).append ?_).append ?_
  · split
    · exact .refl _
    · exact List.nil_sublist _
  · split
    · exact List.nil_sublist _
    · exact .refl _

/-! ## The check of a line -/

/-- The entry with `null` in place of details taken for none. -/
def withoutNull (entry : LogEntry) : LogEntry :=
  { entry with
    details :=
      match entry.details with
      | some .null => none
      | details => details }

/-- Details in canonical form are read back as they are, and null as none. -/
theorem readBack_eq_withoutNull
    {entry : LogEntry}
    (settled : ∀ details ∈ entry.details, details.canonical = details) :
    entry.readBack = entry.withoutNull := by
  have same : readDetails entry.details = (entry.withoutNull).details := by
    rw [withoutNull]
    cases details : entry.details with
    | none =>
        rfl
    | some value =>
        have canonical := settled value details
        cases value with
        | null =>
            rfl
        | _ =>
            exact congrArg some canonical
  exact congrArg (fun details => { entry with details := details }) same

/-- The errors of the line of an entry are as they should be. -/
structure Reports (entry : LogEntry) (line : Nat) (errors : List SchemaError) : Prop where
  /-- What is reported is what the entry breaks, under the number of the line. -/
  exact : ∀ error, error ∈ errors ↔ error.line = line ∧ entry.Breaks error.fault
  /-- Nothing is reported twice, and all in the order of the rules. -/
  ordered :
    List.Sublist (errors.map SchemaError.field?)
      [some "tier", some "policy", some "step_id", some "trace_id"]
  /-- The line is an object with all the fields that an entry needs. -/
  legible :
    ∀ error ∈ errors,
      (∀ message, error.fault ≠ .unreadable message) ∧
        error.fault ≠ .notAnObject ∧ ∀ field, error.fault ≠ .missingField field

/-- The errors about an entry are its faults, with the line at which it stands.  None of the four
ways to break a rule makes a line illegible. -/
theorem reports_map_faults
    (entry : LogEntry)
    (line : Nat) :
    entry.Reports line (entry.faults.map (SchemaError.mk line)) where
  exact := by
    rintro ⟨number, fault⟩
    simp only [List.mem_map, mem_faults_iff, SchemaError.mk.injEq]
    constructor
    · rintro ⟨_, breaks, rfl, rfl⟩
      exact ⟨rfl, breaks⟩
    · rintro ⟨rfl, breaks⟩
      exact ⟨fault, breaks, rfl, rfl⟩
  ordered := by
    rw [List.map_map]
    exact entry.fields_faults_sublist line
  legible := by
    refine List.forall_mem_map.mpr fun fault member => ?_
    cases mem_faults_iff.mp member <;> exact ⟨nofun, nofun, nofun⟩

/-- The line of an entry is accepted exactly if the entry is lawful, and is then read back as the
entry; otherwise what the entry breaks is reported. -/
theorem checkLine_line
    {entry : LogEntry}
    (readable : entry.Readable)
    (settled : ∀ details ∈ entry.details, details.canonical = details)
    (line : Nat) :
    ((∃ decoded, LogSchema.checkLine entry.line.toList line = .ok decoded) ↔ entry.Lawful) ∧
      (∀ decoded,
        LogSchema.checkLine entry.line.toList line = .ok decoded →
          decoded = entry.withoutNull) ∧
      ∀ errors,
        LogSchema.checkLine entry.line.toList line = .error errors →
          entry.Reports line errors := by
  have checked := checkText_line readable
  rw [readBack_eq_withoutNull settled] at checked
  cases found : entry.faults with
  | nil =>
      have lawful := faults_eq_nil_iff.mp found
      have accepted : LogSchema.checkLine entry.line.toList line = .ok entry.withoutNull := by
        simp only [LogSchema.checkLine, checked, found]
      rw [accepted]
      exact ⟨⟨fun _ => lawful, fun _ => ⟨_, rfl⟩⟩, fun _ same => (Except.ok.inj same).symm, nofun⟩
  | cons fault others =>
      have unlawful : ¬ entry.Lawful := by
        rw [← faults_eq_nil_iff, found]
        exact List.cons_ne_nil fault others
      obtain ⟨errors, rejected, reports⟩ :
          ∃ errors,
            LogSchema.checkLine entry.line.toList line = .error errors ∧
              entry.Reports line errors := by
        refine ⟨_, ?_, entry.reports_map_faults line⟩
        simp only [LogSchema.checkLine, checked, found]
      rw [rejected]
      refine ⟨by simp [unlawful], by simp, fun _ same => ?_⟩
      exact Except.error.inj same ▸ reports

/-- An entry with everything wrong that can be. -/
def astray : LogEntry where
  timestamp := "2024-05-06T07:08:09.000Z"
  traceId := "lexical-verify::0001"
  level := .error
  event := "step_end"
  stepIndex := some 2
  tier := some "nightly"
  policy := some "retry"
  outcome := some .fail
  exitCode := some (-1)
  durationMs := some 1500
  details := some (.object [("retries", .whole (-3)), ("seen", .array [.null, .string "a\"b"])])

/-- The theorem at an entry that breaks every rule. -/
theorem checkLine_line_astray :
    astray.Readable ∧
      (∀ details ∈ astray.details, details.canonical = details) ∧
      ∃ errors,
        LogSchema.checkLine astray.line.toList 7 = .error errors ∧ astray.Reports 7 errors ∧
          ⟨7, .invalidValue "tier" "nightly"⟩ ∈ errors ∧
          ⟨7, .invalidValue "policy" "retry"⟩ ∈ errors ∧
          ⟨7, .outcomeWithoutStep⟩ ∈ errors ∧
          ⟨7, .traceId "lexical-verify::0001"⟩ ∈ errors := by
  have exact : ∀ details ∈ astray.details, details.Exact := by
    rintro _ ⟨rfl⟩
    have retries : (whole (-3)).Exact := .whole (by decide) (by decide)
    refine .object ?_
    simp [retries, Exact.array, Exact.null, Exact.string]
  have readable : astray.Readable :=
    { index := by rintro _ ⟨rfl⟩; decide
      duration := by rintro _ ⟨rfl⟩; decide
      exact
      shallow := by rintro _ ⟨rfl⟩; decide }
  have settled : ∀ details ∈ astray.details, details.canonical = details := by
    rintro _ ⟨rfl⟩
    rfl
  have unlawful : ¬ astray.Lawful := fun lawful => absurd lawful.traced (by decide)
  obtain ⟨accepts, -, rejects⟩ := checkLine_line readable settled 7
  cases verdict : LogSchema.checkLine astray.line.toList 7 with
  | ok decoded =>
      exact absurd (accepts.mp ⟨decoded, verdict⟩) unlawful
  | error errors =>
      have reports := rejects errors verdict
      refine ⟨readable, settled, errors, rfl, reports, ?_, ?_, ?_, ?_⟩
      all_goals
        refine (reports.exact _).mpr ⟨rfl, ?_⟩
      · exact .tier rfl fun tier => by cases tier <;> decide
      · exact .policy rfl fun policy => by cases policy <;> decide
      · exact .outcomeWithoutStep rfl rfl
      · exact .traceId (by decide)

end LogEntry

end VerifyPipeline
