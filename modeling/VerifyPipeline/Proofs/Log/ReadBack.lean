import VerifyPipeline.Log.Schema
import VerifyPipeline.Proofs.Json.Records
import VerifyPipeline.Proofs.Json.Values

namespace VerifyPipeline

/-!
# Log entries read back

The line of an entry is read back as the entry, unless the entry itself breaks a rule of the schema;
then exactly the broken rules are reported.
-/

open Json

/-! ## Decoding what was encoded -/

namespace Json

/-- A decoder takes the written form of a value, which is not `null`, back to the value. -/
structure Decoder.Undoes (decoder : Decoder α) (encode : α → Json) (a : α) : Prop where
  present : (encode a).canonical ≠ .null
  decodes : decoder.tree (encode a).canonical = .ok a

variable
  {decoder : Decoder α}
  {encode : α → Json}

/-- A field that is there is decoded from what it was written as. -/
theorem Decoder.Undoes.ofMember?
    {a : α}
    (undoes : decoder.Undoes encode a)
    (name : String) :
    decoder.ofMember? name (some (encode a).canonical) = .ok a :=
  undoes.decodes

/-- A field that may be missing is decoded as well.  An optional decoder looks for null first, so
the written form is split by its kind. -/
theorem Decoder.ofMember?_optional
    {value : Option α}
    (undoes : ∀ a ∈ value, decoder.Undoes encode a)
    (name : String) :
    decoder.optional.ofMember? name (value.map (canonical ∘ encode)) = .ok value := by
  cases value with
  | none =>
      rfl
  | some a =>
      obtain ⟨present, decodes⟩ := undoes a rfl
      simp only [Option.map_some, Function.comp_apply, Decoder.ofMember?]
      generalize (encode a).canonical = written at present decodes
      cases written <;> first | contradiction | simp [optional, decodes, pure, Except.pure]

theorem Decoder.undoes_string (text : String) : Decoder.string.Undoes .string text :=
  ⟨nofun, rfl⟩

/-- A count is decoded if it is below the limit. -/
theorem Decoder.undoes_natBelow
    {limit n : Nat}
    (below : n < limit)
    (wanted : String) :
    (Decoder.natBelow limit wanted).Undoes count n := by
  refine ⟨nofun, ?_⟩
  simp [natBelow, simple, count, canonical, below]

theorem Decoder.undoes_int32 (n : Int32) : Decoder.int32.Undoes StepStatus.word n := by
  refine ⟨nofun, ?_⟩
  have inRange : -Int.pow 2 31 ≤ n.toInt ∧ n.toInt < Int.pow 2 31 := ⟨n.le_toInt, n.toInt_lt⟩
  simp only [int32, simple, StepStatus.word, canonical, if_pos inRange, Int32.ofInt_toInt]

end Json

theorem LogLevel.undoes (level : LogLevel) : LogLevel.decoder.Undoes LogLevel.toJson level := by
  cases level <;> exact ⟨nofun, rfl⟩

theorem Outcome.undoes (outcome : Outcome) : Outcome.decoder.Undoes Outcome.toJson outcome := by
  cases outcome <;> exact ⟨nofun, rfl⟩

/-! ## The members of an entry -/

namespace LogEntry

/-- A field that is written at most once is found under its name, and under no other. -/
theorem lookup?_member
    (key name : String)
    (encode : α → Json)
    (value : Option α) :
    lookup? key (member name encode value) = if name = key then value.map encode else none := by
  cases value <;> simp [member, lookup?]

/-- The details as they are read back: in canonical form, and missing if they are `null`. -/
def readDetails : Option Json → Option Json
  | none | some .null => none
  | some details => some details.canonical

def readBack (entry : LogEntry) : LogEntry :=
  { entry with details := readDetails entry.details }

/-- An entry whose numbers and details are in the ranges of what they are read as. -/
structure Readable (entry : LogEntry) : Prop where
  index : ∀ index ∈ entry.stepIndex, index < Decoder.wordLimit
  duration : ∀ milliseconds ∈ entry.durationMs, milliseconds < Decoder.wordLimit
  exact : ∀ details ∈ entry.details, details.Exact
  shallow : ∀ details ∈ entry.details, details.depth + 1 < Reader.levelLimit

/-- Details are decoded to their canonical form, and null to none. -/
theorem ofMember?_details (details : Option Json) :
    Decoder.any.optional.ofMember? "details" (details.map canonical) =
      .ok (readDetails details) := by
  cases details with
  | none =>
      rfl
  | some details =>
      cases details <;> rfl

/-- From the written form of an entry, the entry is decoded. -/
theorem tree_canonical_toJson
    {entry : LogEntry}
    (readable : entry.Readable) :
    decoder.tree entry.toJson.canonical = .ok entry.readBack := by
  have text (value : Option String) (name : String) :
      Decoder.string.optional.ofMember? name (value.map (canonical ∘ .string)) = .ok value :=
    Decoder.ofMember?_optional (fun text _ => Decoder.undoes_string text) name
  have number (value : Option Int32) (name : String) :
      Decoder.int32.optional.ofMember? name (value.map (canonical ∘ StepStatus.word)) =
        .ok value :=
    Decoder.ofMember?_optional (fun n _ => Decoder.undoes_int32 n) name
  have index :
      Decoder.size.optional.ofMember? "step_index"
          (entry.stepIndex.map (canonical ∘ count)) = .ok entry.stepIndex :=
    Decoder.ofMember?_optional
      (fun n present => Decoder.undoes_natBelow (readable.index n present) "usize") "step_index"
  have duration :
      Decoder.wide.optional.ofMember? "duration_ms"
          (entry.durationMs.map (canonical ∘ count)) = .ok entry.durationMs :=
    Decoder.ofMember?_optional
      (fun n present => Decoder.undoes_natBelow (readable.duration n present) "u64") "duration_ms"
  have outcome :
      Outcome.decoder.optional.ofMember? "outcome"
          (entry.outcome.map (canonical ∘ Outcome.toJson)) = .ok entry.outcome :=
    Decoder.ofMember?_optional (fun outcome _ => outcome.undoes) "outcome"
  refine Decoder.tree_record_canonical (by decide) ?_ "LogEntry"
  simp [Fields.ofLookup, lookup?_append, lookup?_cons, lookup?_member, text, number, index,
    duration, outcome, ofMember?_details, (Decoder.undoes_string _).ofMember?,
    entry.level.undoes.ofMember?]
  rfl

/-! ## Reading the line -/

/-- A value that can be read inside the object of an entry. -/
def Fits (value : Json) : Prop := value.Exact ∧ value.depth + 1 < Reader.levelLimit

/-- A value without levels can be read if it is exact. -/
theorem fits_of_depth_eq_zero
    {value : Json}
    (exact : value.Exact)
    (flat : value.depth = 0) :
    Fits value :=
  ⟨exact, by rw [flat]; decide⟩

theorem fits_string (text : String) : Fits (.string text) :=
  fits_of_depth_eq_zero (.string text) rfl

theorem fits_count
    {n : Nat}
    (below : n < Decoder.wordLimit) :
    Fits (count n) :=
  fits_of_depth_eq_zero (.count below) rfl

theorem fits_word (n : Int32) : Fits (StepStatus.word n) :=
  fits_of_depth_eq_zero (.int32 n) rfl

/-- What holds of all that a field can hold, holds of what is written of it. -/
theorem forall_mem_member
    {name : String}
    {encode : α → Json}
    {value : Option α}
    {holds : Json → Prop}
    (each : ∀ a ∈ value, holds (encode a)) :
    ∀ found ∈ member name encode value, holds found.2 := by
  cases value with
  | none =>
      exact List.forall_mem_nil _
  | some a =>
      simpa [member] using each a rfl

/-- Every member of the object that an entry is written as can be read, in the order in which the
members are written. -/
theorem Readable.fits
    {entry : LogEntry}
    (readable : entry.Readable) :
    ∃ members, entry.toJson = .object members ∧ ∀ found ∈ members, Fits found.2 := by
  have text (name : String) (value : Option String) :
      ∀ found ∈ member name .string value, Fits found.2 :=
    forall_mem_member fun text _ => fits_string text
  have fixed :
      ∀ found ∈
        [("timestamp", .string entry.timestamp), ("trace_id", .string entry.traceId),
          ("level", entry.level.toJson), ("event", .string entry.event)],
        Fits found.2 := by
    simp [fits_string, LogLevel.toJson]
  refine ⟨_, rfl, ?_⟩
  simp only [List.forall_mem_append, and_assoc]
  exact ⟨fixed, text _ _,
    forall_mem_member fun index present => fits_count (readable.index index present),
    text _ _, text _ _, text _ _, text _ _, text _ _, text _ _, text _ _,
    forall_mem_member fun _ _ => fits_string _,
    forall_mem_member fun n _ => fits_word n,
    forall_mem_member fun n _ => fits_word n,
    forall_mem_member fun n present => fits_count (readable.duration n present),
    forall_mem_member fun details present =>
      ⟨readable.exact details present, readable.shallow details present⟩⟩

/-- An entry that can be read back is written exactly. -/
theorem Readable.exact_toJson
    {entry : LogEntry}
    (readable : entry.Readable) :
    entry.toJson.Exact := by
  obtain ⟨members, written, fits⟩ := readable.fits
  rw [written]
  exact .object fun found isMember => (fits found isMember).1

/-- The written form of an entry is read back from its line. -/
theorem ofText_line
    {entry : LogEntry}
    (readable : entry.Readable) :
    Json.ofText entry.line.toList = .ok entry.toJson := by
  obtain ⟨members, written, fits⟩ := readable.fits
  have shallow : entry.toJson.depth ≤ Reader.levelLimit - 2 + 1 := by
    rw [written]
    refine depth_object_le fun found isMember => ?_
    have := (fits found isMember).2
    omega
  rw [line, compact, String.toList_ofList]
  exact ofText_write readable.exact_toJson (Nat.lt_of_le_of_lt shallow (by decide)) .compact

/-! ## The rules of the schema -/

/-- The fault of a field that holds a word outside its vocabulary. -/
def foreignWord? (field : String) (words : List String) (value : Option String) :
    Option SchemaFault :=
  (value.filter fun word => !words.contains word).map (SchemaFault.invalidValue field)

/-- The rules of the schema that an entry breaks. -/
def faults (entry : LogEntry) : List SchemaFault :=
  (foreignWord? "tier" (Tier.all.map Tier.label) entry.tier).toList
    ++ (foreignWord? "policy" (FailurePolicy.all.map FailurePolicy.label) entry.policy).toList
    ++ (if entry.outcome.isSome && entry.stepId.isNone then [.outcomeWithoutStep] else [])
    ++ if (Text.splitAtDoubleColon entry.traceId.toList).length = 3 then []
      else [.traceId entry.traceId]

/-- What the schema looks at in the written form of an entry. -/
structure Shows (entry : LogEntry) (value : Json) : Prop where
  timestamp : value.get? "timestamp" = some (.string entry.timestamp)
  traceId : value.get? "trace_id" = some (.string entry.traceId)
  level : value.get? "level" = some (.string entry.level.label)
  event : value.get? "event" = some (.string entry.event)
  outcome : value.get? "outcome" = entry.outcome.map fun outcome => .string outcome.label
  stepId : value.get? "step_id" = entry.stepId.map .string
  tier : value.get? "tier" = entry.tier.map .string
  policy : value.get? "policy" = entry.policy.map .string

/-- The canonical form of what an entry is written as shows its fields. -/
theorem shows_canonical_toJson (entry : LogEntry) : entry.Shows entry.toJson.canonical := by
  constructor
  all_goals
    rw [get?_canonical]
    simp [toJson, Json.get?, lookup?_append, lookup?_cons, lookup?_member]
    rfl

/-- A value that shows an entry lacks no field. -/
theorem Shows.missingFields_eq_nil
    {entry : LogEntry}
    {value : Json}
    (shows : entry.Shows value) :
    LogSchema.missingFields value = [] := by
  simp [LogSchema.missingFields, LogSchema.requiredFields, shows.timestamp, shows.traceId,
    shows.level, shows.event]

/-- A word of the vocabulary is not foreign to it. -/
theorem foreignWord?_of_mem
    {field : String}
    {words : List String}
    {value : Option String}
    (known : ∀ word ∈ value, word ∈ words) :
    foreignWord? field words value = none := by
  cases value with
  | none =>
      rfl
  | some word =>
      simp [foreignWord?, Option.filter, known word rfl]

/-- Of each vocabulary at most one word is reported. -/
theorem invalidValues_eq (value : Json) :
    LogSchema.invalidValues value =
      LogSchema.vocabularies.filterMap fun vocabulary =>
        foreignWord? vocabulary.1 vocabulary.2 ((value.get? vocabulary.1).bind text?) := by
  refine congrArg (List.filterMap · LogSchema.vocabularies) (funext fun ⟨field, words⟩ => ?_)
  dsimp only
  cases (value.get? field).bind text? with
  | none =>
      rfl
  | some word =>
      by_cases known : word ∈ words <;> simp [foreignWord?, Option.filter, known]

/-- Only the tier and the policy of an entry can have foreign words, since its level and its outcome
are read as such. -/
theorem Shows.invalidValues_eq
    {entry : LogEntry}
    {value : Json}
    (shows : entry.Shows value) :
    LogSchema.invalidValues value =
      (foreignWord? "tier" (Tier.all.map Tier.label) entry.tier).toList
        ++ (foreignWord? "policy" (FailurePolicy.all.map FailurePolicy.label)
          entry.policy).toList := by
  have level :
      foreignWord? "level" (LogLevel.all.map LogLevel.label) (some entry.level.label) = none := by
    cases entry.level <;> rfl
  have outcome :
      foreignWord? "outcome" (Outcome.all.map Outcome.label) (entry.outcome.map Outcome.label) =
        none := by
    cases entry.outcome with
    | none =>
        rfl
    | some outcome =>
        cases outcome <;> rfl
  have texts (value : Option String) : (value.map Json.string).bind text? = value := by
    cases value <;> rfl
  have labels :
      (entry.outcome.map fun outcome => Json.string outcome.label).bind text? =
        entry.outcome.map Outcome.label := by
    cases entry.outcome <;> rfl
  rw [LogEntry.invalidValues_eq]
  simp only [LogSchema.vocabularies, List.filterMap_cons, List.filterMap_nil, shows.level,
    shows.outcome, shows.tier, shows.policy, texts, labels, outcome, Option.bind_some, text?, level]
  cases foreignWord? "tier" (Tier.all.map Tier.label) entry.tier <;>
    cases foreignWord? "policy" (FailurePolicy.all.map FailurePolicy.label) entry.policy <;> rfl

/-- The schema finds exactly the rules that the entry breaks. -/
theorem Shows.faults_eq
    {entry : LogEntry}
    {value : Json}
    (shows : entry.Shows value) :
    LogSchema.faults value = entry.faults := by
  have outcome :
      LogSchema.outcomeFaults value =
        if entry.outcome.isSome && entry.stepId.isNone then [.outcomeWithoutStep] else [] := by
    rw [LogSchema.outcomeFaults, shows.outcome, shows.stepId]
    cases entry.outcome <;> cases entry.stepId <;> simp [text?]
  have trace :
      LogSchema.traceFaults value =
        if (Text.splitAtDoubleColon entry.traceId.toList).length = 3 then []
        else [.traceId entry.traceId] := by
    simp [LogSchema.traceFaults, shows.traceId, text?]
  rw [LogSchema.faults, shows.missingFields_eq_nil, shows.invalidValues_eq, outcome, trace]
  rfl

/-- The line of an entry is read back as the entry, unless the entry breaks rules. -/
theorem checkText_line
    {entry : LogEntry}
    (readable : entry.Readable) :
    LogSchema.checkText entry.line.toList =
      match entry.faults with
      | [] => .ok entry.readBack
      | found => .error found := by
  have decoded := tree_canonical_toJson readable
  have faults := (shows_canonical_toJson entry).faults_eq
  obtain ⟨members, object⟩ : ∃ members, entry.toJson.canonical = .object members := ⟨_, rfl⟩
  rw [object] at decoded faults
  simp only [LogSchema.checkText, ofText_line readable, object, faults]
  cases entry.faults with
  | nil =>
      simp only [decoded]
  | cons fault others =>
      rfl

end LogEntry

end VerifyPipeline
