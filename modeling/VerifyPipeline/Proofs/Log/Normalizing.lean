import VerifyPipeline.Proofs.Json.Bounds
import VerifyPipeline.Proofs.Log.Validation
import VerifyPipeline.Proofs.Log.Vocabulary
import VerifyPipeline.Proofs.Log.WellFormed

namespace VerifyPipeline

/-!
# Normal lines

An accepted text may have white space, keys that no field has, repeated keys, keys in any order, and
`null` for what is missing.  Nothing of that is left in the line of the entry that is decoded from
it, which is accepted again, as the same entry.
-/

namespace Json

/-- What is found under a key is a member with that key. -/
theorem mem_of_lookup?
    {key : String}
    {value : Json}
    {members : List (String × Json)}
    (found : lookup? key members = some value) :
    (key, value) ∈ members := by
  induction members with
  | nil =>
      contradiction
  | cons member others inductionHypothesis =>
      rw [lookup?_cons, Option.or_eq_some_iff] at found
      rcases found with later | ⟨_, here⟩
      · exact List.mem_cons_of_mem member (inductionHypothesis later)
      · split at here
        · rename_i same
          obtain rfl := Option.some.inj here
          exact same ▸ List.mem_cons_self
        · contradiction

/-- Fields are decoded one by one. -/
theorem Fields.ofLookup_field_eq_ok
    {β γ : Type}
    {name : String}
    {decoder : Decoder β}
    {rest : Fields γ}
    {find : String → Option Json}
    {taken : β × γ} :
    (field name decoder rest).ofLookup find = .ok taken ↔
      decoder.ofMember? name (find name) = .ok taken.1 ∧ rest.ofLookup find = .ok taken.2 := by
  obtain ⟨b, c⟩ := taken
  rw [ofLookup, Reader.bind_eq_ok]
  constructor
  · rintro ⟨first, isFirst, others⟩
    obtain ⟨later, areLater, pair⟩ := Reader.bind_eq_ok.mp others
    obtain ⟨rfl, rfl⟩ := Prod.mk.inj (Except.ok.inj pair)
    exact ⟨isFirst, areLater⟩
  · rintro ⟨isFirst, areLater⟩
    exact ⟨b, isFirst, Reader.bind_eq_ok.mpr ⟨c, areLater, rfl⟩⟩

namespace Decoder

/-- An optional value that is there was taken from a member that is not `null`. -/
theorem exists_of_ofMember?_optional
    {decoder : Decoder α}
    {name : String}
    {found? : Option Json}
    {a : α}
    (taken : decoder.optional.ofMember? name found? = .ok (some a)) :
    ∃ value, found? = some value ∧ value ≠ .null ∧ decoder.tree value = .ok a := by
  cases found? with
  | none =>
      cases Except.ok.inj taken
  | some value =>
      have present : value ≠ .null := by
        rintro rfl
        cases Except.ok.inj taken
      obtain ⟨b, decoded, same⟩ := exists_of_tree_optional taken present
      obtain rfl := Option.some.inj same
      exact ⟨value, rfl, present, decoded⟩

/-- A count that has been decoded is below its limit. -/
theorem lt_of_tree_natBelow
    {limit n : Nat}
    {wanted : String}
    {value : Json}
    (decoded : (natBelow limit wanted).tree value = .ok n) :
    n < limit := by
  cases value with
  | whole found =>
      simp only [natBelow, simple] at decoded
      split at decoded
      · rename_i bounds
        obtain rfl := Except.ok.inj decoded
        exact (Int.toNat_lt bounds.1).mpr bounds.2
      · contradiction
  | _ =>
      contradiction

end Decoder

end Json

open Json

namespace LogEntry

/-- A value that is not `null`, in canonical form. -/
def Settled (value : Json) : Prop := value ≠ .null ∧ value.canonical = value

/-- An entry with settled details is read back as it is. -/
theorem readBack_of_settled
    {entry : LogEntry}
    (settled : ∀ details ∈ entry.details, Settled details) :
    entry.readBack = entry := by
  have same : readDetails entry.details = entry.details := by
    cases present : entry.details with
    | none =>
        rfl
    | some details =>
        obtain ⟨notNull, canonical⟩ := settled details present
        cases details with
        | null =>
            contradiction
        | _ =>
            exact congrArg some canonical
  exact congrArg (fun details => { entry with details := details }) same

/-! ## What an entry is taken from -/

/-- Every field of an entry is what its decoder takes from the member with its name. -/
structure TakenFrom (entry : LogEntry) (object : Json) : Prop where
  timestamp :
    Decoder.string.ofMember? "timestamp" (object.get? "timestamp") = .ok entry.timestamp
  traceId : Decoder.string.ofMember? "trace_id" (object.get? "trace_id") = .ok entry.traceId
  level : LogLevel.decoder.ofMember? "level" (object.get? "level") = .ok entry.level
  event : Decoder.string.ofMember? "event" (object.get? "event") = .ok entry.event
  runId : Decoder.string.optional.ofMember? "run_id" (object.get? "run_id") = .ok entry.runId
  stepIndex :
    Decoder.size.optional.ofMember? "step_index" (object.get? "step_index") = .ok entry.stepIndex
  stepId : Decoder.string.optional.ofMember? "step_id" (object.get? "step_id") = .ok entry.stepId
  tier : Decoder.string.optional.ofMember? "tier" (object.get? "tier") = .ok entry.tier
  tool : Decoder.string.optional.ofMember? "tool" (object.get? "tool") = .ok entry.tool
  workspace :
    Decoder.string.optional.ofMember? "workspace" (object.get? "workspace") = .ok entry.workspace
  features :
    Decoder.string.optional.ofMember? "features" (object.get? "features") = .ok entry.features
  policy : Decoder.string.optional.ofMember? "policy" (object.get? "policy") = .ok entry.policy
  command :
    Decoder.string.optional.ofMember? "command" (object.get? "command") = .ok entry.command
  outcome :
    Outcome.decoder.optional.ofMember? "outcome" (object.get? "outcome") = .ok entry.outcome
  exitCode :
    Decoder.int32.optional.ofMember? "exit_code" (object.get? "exit_code") = .ok entry.exitCode
  signal : Decoder.int32.optional.ofMember? "signal" (object.get? "signal") = .ok entry.signal
  durationMs :
    Decoder.wide.optional.ofMember? "duration_ms" (object.get? "duration_ms") =
      .ok entry.durationMs
  details : Decoder.any.optional.ofMember? "details" (object.get? "details") = .ok entry.details

/-- An entry that has been decoded has its fields from the members with their names. -/
theorem takenFrom_of_tree
    {members : List (String × Json)}
    {entry : LogEntry}
    (distinct : (members.map Prod.fst).Nodup)
    (decoded : decoder.tree (.object members) = .ok entry) :
    entry.TakenFrom (.object members) := by
  obtain ⟨fields, ofMembers, made⟩ := Reader.bind_eq_ok.mp decoded
  have taken := Fields.ofLookup_of_ofMembers (by decide) distinct ofMembers
  obtain rfl := Except.ok.inj made
  simp only [Fields.ofLookup_field_eq_ok] at taken
  obtain ⟨timestamp, traceId, level, event, runId, stepIndex, stepId, tier, tool, workspace,
    features, policy, command, outcome, exitCode, signal, durationMs, details, _⟩ := taken
  exact {
    timestamp, traceId, level, event, runId, stepIndex, stepId, tier, tool, workspace, features,
    policy, command, outcome, exitCode, signal, durationMs, details }

namespace TakenFrom

variable
  {entry : LogEntry}
  {object : Json}

/-- An entry from an object without faults keeps the rules. -/
theorem lawful
    (taken : entry.TakenFrom object)
    (faultless : LogSchema.faults object = []) :
    entry.Lawful := by
  simp only [LogSchema.faults, List.append_eq_nil_iff] at faultless
  obtain ⟨⟨⟨_, valid⟩, stepped⟩, traced⟩ := faultless
  have word {field : String} {words : List String} {value : Option String}
      (vocabulary : (field, words) ∈ LogSchema.vocabularies)
      (taken : Decoder.string.optional.ofMember? field (object.get? field) = .ok value) :
      ∀ word ∈ value, word ∈ words := by
    rintro word ⟨rfl⟩
    obtain ⟨_, found, _, decoded⟩ := Decoder.exists_of_ofMember?_optional taken
    obtain rfl := Decoder.eq_string_of_tree decoded
    exact LogSchema.mem_of_invalidValues_eq_nil valid vocabulary found
  constructor
  · obtain ⟨_, found, decoded⟩ := Decoder.exists_of_ofMember? rfl taken.traceId
    obtain rfl := Decoder.eq_string_of_tree decoded
    exact LogSchema.length_of_traceFaults_eq_nil traced found
  · exact fun text present =>
      Tier.mem_labels_iff.mp (word (by simp [LogSchema.vocabularies]) taken.tier text present)
  · exact fun text present =>
      FailurePolicy.mem_labels_iff.mp
        (word (by simp [LogSchema.vocabularies]) taken.policy text present)
  · intro decided
    obtain ⟨outcome, isOutcome⟩ := Option.isSome_iff_exists.mp decided
    have takenOutcome := taken.outcome
    rw [isOutcome] at takenOutcome
    obtain ⟨_, found, _, _⟩ := Decoder.exists_of_ofMember?_optional takenOutcome
    obtain ⟨id, isStep⟩ := LogSchema.exists_step_of_outcomeFaults_eq_nil stepped found
    have takenStep := taken.stepId
    rw [isStep] at takenStep
    rw [← Except.ok.inj takenStep]
    rfl

/-- Details are taken as they are, but `null` is taken for none. -/
theorem details_of_some
    (taken : entry.TakenFrom object)
    {details : Json}
    (present : entry.details = some details) :
    object.get? "details" = some details ∧ details ≠ .null := by
  have takenDetails := taken.details
  rw [present] at takenDetails
  obtain ⟨_, found, notNull, decoded⟩ := Decoder.exists_of_ofMember?_optional takenDetails
  obtain rfl := Except.ok.inj decoded
  exact ⟨found, notNull⟩

/-- An entry that was taken from a value which was read can be read from its line. -/
theorem readable
    {members : List (String × Json)}
    (taken : entry.TakenFrom (.object members))
    (within : (Json.object members).Within Reader.levelLimit)
    (floatFree : ∀ details ∈ entry.details, details.FloatFree) :
    entry.Readable := by
  have bounded {name : String} {wanted : String} {found? : Option Json} {value : Option Nat}
      (taken :
        (Decoder.natBelow Decoder.wordLimit wanted).optional.ofMember? name found? = .ok value) :
      ∀ n ∈ value, n < Decoder.wordLimit := by
    rintro n ⟨rfl⟩
    obtain ⟨_, _, _, decoded⟩ := Decoder.exists_of_ofMember?_optional taken
    exact Decoder.lt_of_tree_natBelow decoded
  have inside {details : Json} (present : details ∈ entry.details) :
      details.Within (Reader.levelLimit - 1) :=
    within.of_mem_object _ (mem_of_lookup? (taken.details_of_some present).1)
  exact {
    index := bounded taken.stepIndex
    duration := bounded taken.durationMs
    exact := fun details present =>
      exact_iff.mpr ⟨(inside present).inRange, floatFree details present⟩
    shallow := fun details present => Nat.succ_lt_succ (inside present).shallow }

end TakenFrom

/-! ## The line of an entry that was taken from an object -/

/-- The names of the fields, in their order. -/
def fieldNames : List String :=
  ["timestamp", "trace_id", "level", "event", "run_id", "step_index", "step_id", "tier", "tool",
    "workspace", "features", "policy", "command", "outcome", "exit_code", "signal", "duration_ms",
    "details"]

/-- A line is the text of an object without white space, whose keys are names of fields in their
order, with a settled value under each. -/
def NormalLine (line : String) : Prop :=
  ∃ members : List (String × Json),
    Json.ofText line.toList = .ok (.object members) ∧
      line = (Json.object members).compact ∧
      List.Sublist (members.map Prod.fst) fieldNames ∧
      ∀ member ∈ members, Settled member.2

/-- The line of an entry that can be read back is in normal form if its details are settled. -/
theorem normalLine_line
    {entry : LogEntry}
    (readable : entry.Readable)
    (settled : ∀ details ∈ entry.details, Settled details) :
    NormalLine entry.line := by
  have fixed :
      ∀ found ∈
        [("timestamp", .string entry.timestamp), ("trace_id", .string entry.traceId),
          ("level", entry.level.toJson), ("event", .string entry.event)],
        Settled found.2 := by
    simp [Settled, LogLevel.toJson, Json.canonical]
  have text (name : String) (value : Option String) :
      ∀ found ∈ member name .string value, Settled found.2 :=
    forall_mem_member fun _ _ => ⟨by simp, rfl⟩
  have number (name : String) (value : Option Nat) :
      ∀ found ∈ member name count value, Settled found.2 :=
    forall_mem_member fun _ _ => ⟨by simp [count], rfl⟩
  have word (name : String) (value : Option Int32) :
      ∀ found ∈ member name StepStatus.word value, Settled found.2 :=
    forall_mem_member fun _ _ => ⟨by simp [StepStatus.word], rfl⟩
  have keys {α : Type} {name : String} {encode : α → Json} {value : Option α} :
      List.Sublist ((member name encode value).map Prod.fst) [name] := by
    cases value with
    | none =>
        exact List.nil_sublist _
    | some _ =>
        exact .refl _
  refine ⟨_, ofText_line readable, rfl, ?_, ?_⟩
  · simp only [List.map_append]
    exact List.Sublist.refl ["timestamp", "trace_id", "level", "event"]
      |>.append keys |>.append keys |>.append keys |>.append keys |>.append keys |>.append keys
      |>.append keys |>.append keys |>.append keys |>.append keys |>.append keys |>.append keys
      |>.append keys |>.append keys
  · simp only [List.forall_mem_append, and_assoc]
    have outcomes : ∀ found ∈ member "outcome" Outcome.toJson entry.outcome, Settled found.2 :=
      forall_mem_member fun _ _ => ⟨by simp [Outcome.toJson], rfl⟩
    exact ⟨fixed, text _ _, number _ _, text _ _, text _ _, text _ _, text _ _, text _ _, text _ _,
      text _ _, outcomes, word _ _, word _ _, number _ _, forall_mem_member settled⟩

end LogEntry

namespace LogSchema

/-- An accepted line is an object without faults, and its entry is taken from that. -/
theorem exists_of_checkLine
    {text : List Char}
    {line : Nat}
    {entry : LogEntry}
    (accepted : checkLine text line = .ok entry) :
    ∃ value members,
      Json.ofText text = .ok value ∧
        value.canonical = .object (canonicalMembers members) ∧
        faults value.canonical = [] ∧
        entry.TakenFrom value.canonical := by
  unfold checkLine checkText at accepted
  cases read : Json.ofText text with
  | error failure =>
      simp [read] at accepted
  | ok value =>
      cases value with
      | object given =>
          simp only [read, canonical] at accepted
          cases faultless : faults (.object (canonicalMembers given)) with
          | cons fault others =>
              simp [faultless] at accepted
          | nil =>
              cases decoded : LogEntry.decoder.tree (.object (canonicalMembers given)) with
              | error why =>
                  simp [faultless, decoded] at accepted
              | ok found =>
                  obtain rfl : found = entry := by simpa [faultless, decoded] using accepted
                  exact ⟨_, given, rfl, rfl, faultless,
                    LogEntry.takenFrom_of_tree (nodup_canonicalMembers given) decoded⟩
      | _ =>
          simp [read, canonical] at accepted

/--
An entry that was decoded from an accepted text, with details free of floating
numbers, keeps the rules, and its line is accepted again, as the same entry.  The
entry depends only on what counts for the names of its fields, and its line has
nothing else.
-/
theorem checkLine_settles
    {text : List Char}
    {number : Nat}
    {entry : LogEntry}
    (accepted : checkLine text number = .ok entry)
    (floatFree : ∀ details ∈ entry.details, details.FloatFree) :
    (∃ value, Json.ofText text = .ok value ∧ entry.TakenFrom value.canonical) ∧
      entry.Lawful ∧
      (∀ other, checkLine entry.line.toList other = .ok entry) ∧
      LogEntry.NormalLine entry.line := by
  obtain ⟨value, members, read, object, faultless, taken⟩ := exists_of_checkLine accepted
  have within := (within_of_ofText read).canonical
  have lawful := taken.lawful faultless
  refine ⟨⟨value, read, taken⟩, lawful, ?_⟩
  rw [object] at taken within
  have readable := taken.readable within floatFree
  have settled : ∀ details ∈ entry.details, LogEntry.Settled details := by
    intro details present
    obtain ⟨found, notNull⟩ := taken.details_of_some present
    exact ⟨notNull, canonical_of_mem_canonicalMembers members _ (mem_of_lookup? found)⟩
  have wellFormed : entry.WellFormed :=
    ⟨readable, LogEntry.faults_eq_nil_iff.mpr lawful, LogEntry.readBack_of_settled settled⟩
  refine ⟨fun other => ?_, LogEntry.normalLine_line readable settled⟩
  simp only [checkLine, wellFormed.checkText_line]

/-- An object with foreign and repeated keys, keys out of order, and `null`. -/
def untidy : Json :=
  .object [("event", .string "begin"), ("extra", .array [.null]), ("tier", .null),
    ("details", .object [("b", .whole 1), ("a", .null), ("b", .whole 2)]),
    ("trace_id", .string "a::b::001"), ("level", .string "warn"), ("step_index", .whole 7),
    ("event", .string "end"), ("timestamp", .string "now")]

theorem exact_untidy : untidy.Exact := by
  refine .object ?_
  have one : (Json.whole 1).Exact := .whole (by decide) (by decide)
  have two : (Json.whole 2).Exact := .whole (by decide) (by decide)
  have seven : (Json.whole 7).Exact := .whole (by decide) (by decide)
  have details : (Json.object [("b", .whole 1), ("a", .null), ("b", .whole 2)]).Exact :=
    .object (by simp [one, two, Exact.null])
  simp [details, seven, Exact.null, Exact.string, Exact.array]

/-- Laid out over several lines, such an object has an entry with a tidy line. -/
theorem checkLine_settles_untidy :
    ∃ entry,
      checkLine (untidy.write .indented 0) 3 = .ok entry ∧
        (∀ details ∈ entry.details, details.FloatFree) ∧
        entry.Lawful ∧
        checkLine entry.line.toList 4 = .ok entry ∧
        LogEntry.NormalLine entry.line ∧
        entry.line =
          "\x7b\"timestamp\":\"now\",\"trace_id\":\"a::b::001\",\"level\":\"warn\"," ++
            "\"event\":\"end\",\"step_index\":7,\"details\":\x7b\"a\":null,\"b\":2\x7d\x7d" := by
  have written :
      (checkLine (untidy.write .indented 0) 3).toOption.map LogEntry.line =
        some ("\x7b\"timestamp\":\"now\",\"trace_id\":\"a::b::001\",\"level\":\"warn\"," ++
          "\"event\":\"end\",\"step_index\":7,\"details\":\x7b\"a\":null,\"b\":2\x7d\x7d") := by
    decide +kernel
  cases accepted : checkLine (untidy.write .indented 0) 3 with
  | error errors =>
      rw [accepted] at written
      contradiction
  | ok entry =>
      rw [accepted] at written
      obtain ⟨value, members, read, _, _, taken⟩ := exists_of_checkLine accepted
      have isUntidy := ofText_write exact_untidy (by decide) .indented
      obtain rfl : value = untidy := Except.ok.inj (read.symm.trans isUntidy)
      have floatFree : ∀ details ∈ entry.details, details.FloatFree := by
        intro details present
        have found : lookup? "details" (canonicalMembers _) = some details :=
          (taken.details_of_some present).1
        have parts := (exact_iff.mp exact_untidy.canonical).2
        exact parts.of_mem_object _ (mem_of_lookup? found)
      obtain ⟨-, lawful, again, normal⟩ := checkLine_settles accepted floatFree
      exact ⟨entry, rfl, floatFree, lawful, again 4, normal, Option.some.inj written⟩

end LogSchema

end VerifyPipeline
