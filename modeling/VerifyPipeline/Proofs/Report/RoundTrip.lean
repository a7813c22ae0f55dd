import VerifyPipeline.Proofs.Plan.RoundTrip
import VerifyPipeline.Report.Basic

namespace VerifyPipeline

/-!
# Reports read back

The text of a report is read back as the report, however its steps and its run ended.
-/

open Json Json.Decoder

/-! ## Counts -/

/-- The counts of a record fit into words of 64 bits. -/
structure StepRecord.InRange (record : StepRecord) : Prop where
  index : record.index < wordLimit
  duration : record.durationMs < wordLimit

/-- The position of the step at which a run stopped fits into a word of 64 bits. -/
def Termination.InRange : Termination → Prop
  | .completed => True
  | .aborted stepIndex _ _ => stepIndex < wordLimit

/-- The counts of a result fit into words of 64 bits. -/
structure RunResult.InRange (result : RunResult) : Prop where
  planned : result.planned < wordLimit
  records : ∀ record ∈ result.records, record.InRange
  termination : result.termination.InRange

/-- The counts of a summary fit into words of 64 bits. -/
structure RunSummary.InRange (summary : RunSummary) : Prop where
  planned : summary.planned < wordLimit
  executed : summary.executed < wordLimit
  passed : summary.passed < wordLimit
  failed : summary.failed < wordLimit
  skipped : summary.skipped < wordLimit

/-- The counts of a report fit into words of 64 bits. -/
structure RunReport.InRange (report : RunReport) : Prop where
  summary : report.summary.InRange
  result : report.result.InRange

/-! ## Choices -/

theorem InterruptPolicy.reads (policy : InterruptPolicy) :
    InterruptPolicy.decoder.Reads policy.toJson policy := by
  cases policy <;> exact reads_choice rfl

theorem Verdict.reads (verdict : Verdict) : Verdict.decoder.Reads verdict.toJson verdict := by
  cases verdict <;> exact reads_choice rfl

/-! ## Statuses and terminations -/

/-- Every status is read back from what it is written as. -/
theorem StepStatus.reads (status : StepStatus) :
    StepStatus.decoder.Reads status.toJson status := by
  have word (n : Option Int32) :
      Decoder.int32.optional.Reads (Json.optional StepStatus.word n) n :=
    reads_optional reads_int32 nofun n
  cases status with
  | passed =>
      exact reads_tagged rfl rfl (List.forall_mem_nil _) (List.forall_mem_nil _)
  | failed code signal =>
      exact reads_tagged_record rfl (by decide) (by decide)
        (.field (word code) (.field (word signal) .done)) rfl
  | interrupted signal =>
      exact reads_tagged_record rfl (by decide) (by decide)
        (.field (reads_int32 signal) .done) rfl
  | launchFailed message =>
      exact reads_tagged_record rfl (by decide) (by decide)
        (.field (reads_string message) .done) rfl

/-- A reason is taken from its members. -/
theorem AbortReason.ofMembers_members (reason : AbortReason) :
    AbortReason.ofMembers reason.members = .ok reason := by
  cases reason with
  | stepFailed =>
      exact ofTaggedMembers_cons rfl (List.forall_mem_nil _) rfl
  | interrupted signal =>
      exact ofTaggedMembers_cons rfl (by simp)
        (Variant.ofMembers_record (by decide) (.field (reads_int32 signal) .done) rfl)
  | workspaceUnavailable message =>
      exact ofTaggedMembers_cons rfl (by simp)
        (Variant.ofMembers_record (by decide) (.field (reads_string message) .done) rfl)
  | reentrant held =>
      exact ofTaggedMembers_cons rfl (by simp)
        (Variant.ofMembers_record (by decide) (.field (reads_string held) .done) rfl)

/-- The members of a reason are told from those beside them. -/
theorem AbortReason.keys_members (reason : AbortReason) :
    ∀ member ∈ reason.members, member.1 ∈ ["reason", "signal", "message", "held"] := by
  cases reason <;> simp [members]

/-- What tells the reason of an abort is written exactly. -/
theorem AbortReason.exact_members (reason : AbortReason) :
    ∀ member ∈ reason.members, member.2.Exact := by
  cases reason with
  | interrupted signal =>
      simp [members, Exact.string, (reads_int32 signal).exact]
  | _ =>
      simp [members, Exact.string]

/-- A termination is read back if its position is a word. -/
theorem Termination.InRange.reads
    {termination : Termination}
    (inRange : termination.InRange) :
    Termination.decoder.Reads termination.toJson termination := by
  cases termination with
  | completed =>
      exact reads_tagged rfl rfl (List.forall_mem_nil _) (List.forall_mem_nil _)
  | aborted stepIndex stepId reason =>
      have apart (key : String) (absent : key ∉ ["reason", "signal", "message", "held"]) :
          ∀ member ∈ reason.members, member.1 ≠ key := by
        rintro member isMember rfl
        exact absent (reason.keys_members member isMember)
      have step :
          Fields.Written
            (.field "step_index" .size <| .field "step_id" (.optional .string) .done)
            [("step_index", count stepIndex), ("step_id", .optional .string stepId)]
            (stepIndex, stepId, ()) :=
        .field (reads_natBelow inRange "usize")
          (.field (reads_optional reads_string nofun stepId) .done)
      have index := apart "step_index" (by decide)
      have id := apart "step_id" (by decide)
      have state := apart "state" (by decide)
      refine reads_tagged rfl
        (Variant.ofMembers_recordWith (by decide) step ?_ reason.ofMembers_members rfl) ?_ ?_
      · intro member isMember
        simp [Fields.names, index member isMember, id member isMember]
      · simpa using state
      · exact List.forall_mem_append.mpr ⟨step.exact, reason.exact_members⟩

/-! ## Records of runs -/

/-- A record is read back if its numbers are words. -/
theorem StepRecord.InRange.reads
    {record : StepRecord}
    (inRange : record.InRange) :
    StepRecord.decoder.Reads record.toJson record :=
  reads_record (by decide)
    (.field (reads_natBelow inRange.index "usize") <| .field (reads_string _) <|
      .field record.tier.reads <| .field record.tool.reads <| .field (reads_string _) <|
      .field (reads_string _) <| .field record.policy.reads <| .field (reads_string _) <|
      .field record.status.reads <| .field (reads_natBelow inRange.duration "u64") .done)
    rfl

/-- A result is read back if the numbers in it are words. -/
theorem RunResult.InRange.reads
    {result : RunResult}
    (inRange : result.InRange) :
    RunResult.decoder.Reads result.toJson result :=
  reads_record (by decide)
    (.field (reads_string _) <| .field (reads_string _) <|
      .field (reads_natBelow inRange.planned "usize") <|
      .field (reads_list fun record member => (inRange.records record member).reads) <|
      .field inRange.termination.reads .done)
    rfl

/-- A summary is read back, if its counts are words. -/
theorem RunSummary.InRange.reads
    {summary : RunSummary}
    (inRange : summary.InRange) :
    RunSummary.decoder.Reads summary.toJson summary :=
  reads_record (by decide)
    (.field (reads_natBelow inRange.planned "usize") <|
      .field (reads_natBelow inRange.executed "usize") <|
      .field (reads_natBelow inRange.passed "usize") <|
      .field (reads_natBelow inRange.failed "usize") <|
      .field (reads_natBelow inRange.skipped "usize") <| .field summary.verdict.reads .done)
    rfl

theorem Config.reads (config : Config) : Config.decoder.Reads config.toJson config :=
  reads_record (by decide)
    (.field (reads_bool _) <| .field (reads_bool _) <| .field (reads_bool _) <|
      .field (reads_bool _) <| .field (reads_bool _) <| .field (reads_bool _) <|
      .field (reads_bool _) .done)
    rfl

/-- A report is read back if the numbers in it are words. -/
theorem RunReport.InRange.reads
    {report : RunReport}
    (inRange : report.InRange) :
    RunReport.decoder.Reads report.toJson report :=
  reads_record (by decide)
    (.field (reads_string _) <| .field (reads_string _) <| .field (reads_string _) <|
      .field report.config.reads <| .field report.interruptPolicy.reads <|
      .field (reads_list fun warning _ => reads_string warning) <|
      .field inRange.summary.reads <| .field inRange.result.reads .done)
    rfl

/-! ## Nesting -/

/-- No status is written deeper than one level. -/
theorem StepStatus.depth_toJson_le (status : StepStatus) : status.toJson.depth ≤ 1 := by
  have word (n : Option Int32) : (Json.optional StepStatus.word n).depth = 0 := by
    cases n <;> rfl
  cases status <;> simp [toJson, StepStatus.word, depth, depthMembers, word]

/-- A record has two levels at most. -/
theorem StepRecord.depth_toJson_le (record : StepRecord) : record.toJson.depth ≤ 2 := by
  have status := record.status.depth_toJson_le
  have tool := record.tool.depth_toJson
  simp [toJson, Tier.toJson, FailurePolicy.toJson, count, depth, depthMembers, tool, status]

theorem Termination.depth_toJson_le (termination : Termination) :
    termination.toJson.depth ≤ 1 := by
  have text (id : Option String) : (Json.optional .string id).depth = 0 := by
    cases id <;> rfl
  cases termination with
  | completed =>
      simp [toJson, depth, depthMembers]
  | aborted stepIndex stepId reason =>
      cases reason <;> simp [toJson, AbortReason.members, count, depth, depthMembers, text]

/-- A result adds two levels to those of its records. -/
theorem RunResult.depth_toJson_le (result : RunResult) : result.toJson.depth ≤ 4 := by
  have termination := result.termination.depth_toJson_le
  have records : (array (result.records.map StepRecord.toJson)).depth ≤ 3 :=
    depth_array_le (List.forall_mem_map.mpr fun record _ => record.depth_toJson_le)
  simp only [toJson, count, depth, depthMembers] at records ⊢
  omega

/-- A report has five levels, which is far below what the parser admits. -/
theorem RunReport.depth_toJson_le (report : RunReport) : report.toJson.depth ≤ 5 := by
  have result := report.result.depth_toJson_le
  have warnings : (strings report.warnings).depth ≤ 1 :=
    depth_array_le (List.forall_mem_map.mpr fun _ _ => Nat.le_refl 0)
  have policy : report.interruptPolicy.toJson.depth = 0 := by
    cases report.interruptPolicy <;> rfl
  have summary : report.summary.toJson.depth = 1 := rfl
  have config : report.config.toJson.depth = 1 := rfl
  simp only [toJson, depth, depthMembers]
  omega

/-! ## Reports -/

/-- The text of a report is read back as the report. -/
theorem RunReport.ofText_jsonText
    {report : RunReport}
    (inRange : report.InRange) :
    decoder.ofText report.jsonText.toList = .ok report := by
  rw [jsonText, indented, String.toList_ofList]
  exact inRange.reads.ofText_write (Nat.lt_of_le_of_lt report.depth_toJson_le (by decide)) .indented

/-- The report of a run that a signal ended at its fourth step. -/
def RunReport.cutShort : RunReport where
  title := RunReport.standardTitle
  timestamp := "2024-05-06T07:08:09.000Z"
  program := "/opt/\"tools\"/cargo"
  config := { skipDocs := true, miriExhaustive := true }
  interruptPolicy := .followStep
  warnings := ["first\nsecond", "\t"]
  summary := ⟨7, 4, 1, 3, 3, .failed⟩
  result :=
    let record (index : Nat) (status : StepStatus) : StepRecord :=
      ⟨index, "docs_strict", .docsStrict, .docs, "root", "all-features", .recordAndContinue,
        "cargo doc", status, 18446744073709551615⟩
    { runId := ""
      planFingerprint := "\\"
      planned := 7
      records :=
        [record 0 .passed, record 1 (.failed none (some (-9))),
          record 2 (.launchFailed "no such file"), record 3 (.interrupted (-2147483648))]
      termination := .aborted 3 none (.interrupted (-2147483648)) }

/-- The theorem at a report about a run that was cut short. -/
theorem RunReport.ofText_jsonText_cutShort :
    RunReport.cutShort.InRange ∧
      decoder.ofText RunReport.cutShort.jsonText.toList = .ok RunReport.cutShort := by
  have records : ∀ record ∈ cutShort.result.records, record.InRange := by
    simp only [cutShort, List.forall_mem_cons]
    exact ⟨⟨by decide, by decide⟩, ⟨by decide, by decide⟩, ⟨by decide, by decide⟩,
      ⟨by decide, by decide⟩, List.forall_mem_nil _⟩
  have position : cutShort.result.termination.InRange := by
    change 3 < wordLimit
    decide
  have inRange : cutShort.InRange :=
    { summary := ⟨by decide, by decide, by decide, by decide, by decide⟩
      result := ⟨by decide, records, position⟩ }
  exact ⟨inRange, ofText_jsonText inRange⟩

end VerifyPipeline
