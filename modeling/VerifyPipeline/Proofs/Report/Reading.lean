import VerifyPipeline.Proofs.Plan.Characters
import VerifyPipeline.Proofs.Text.Reading
import VerifyPipeline.Report.Markdown

namespace VerifyPipeline

/-!
# Reading reports

What a report says about failures and about the end of its run can be read off the lines of its
Markdown text, and so it can off the lines of the summary for a user, as long as no name or message
breaks a line.
-/

/-! ## What is looked for -/

/-- The reason for a stop that a line tells behind so many blanks, if it tells one. -/
def stopLine? (blanks : Nat) (line : String) : Option String :=
  if (List.replicate blanks ' ' ++ "Run stopped at ".toList).isPrefixOf line.toList then
    some (String.ofList (line.toList.drop blanks))
  else none

/-- What lines tell about stops behind so many blanks. -/
def stopLines (blanks : Nat) (lines : List String) : List String :=
  lines.filterMap (stopLine? blanks)

namespace Markdown

/-- The rows of the table, without its head. -/
def rows (lines : List String) : List String :=
  ((lines.dropWhile fun line => line.toList.head? ≠ some '|').drop 2).takeWhile
    fun line => line.toList.head? = some '|'

/-- The position of the step that a row of the table shows as failed. -/
def failedIndex? (row : String) : Option Nat :=
  let cells := Text.splitAt '|' row.toList
  if cells.reverse[2]? = some " FAIL ".toList then
    (cells[1]?.bind fun cell => (Text.numbers cell).head?).map (· - 1)
  else none

/-- The title of the section about failures. -/
def failuresTitle : String := "## Failures"

/-- The items of the list in the section about failures. -/
def bullets (lines : List String) : List String :=
  (lines.dropWhile (· ≠ failuresTitle)).filter fun line => line.toList.head? = some '-'

end Markdown

namespace Summary

/-- Lines in blocks of three. -/
def threes : List String → List (List String)
  | first :: second :: third :: rest => [first, second, third] :: threes rest
  | _ => []

/-- The blocks behind the first line. -/
def blocks (lines : List String) : List (List String) := threes lines.tail

end Summary

/-! ## Unbroken lines -/

open Text

/-- Visible characters do not end a line. -/
theorem ofVisible_unbroken : OfVisible fun c => c ≠ '\n' := by
  rintro c low _ rfl
  exact absurd low (by decide)

/-- A number is written in decimal digits. -/
theorem toList_toString (n : Nat) : (toString n).toList = Nat.toDigits 10 n := by
  rw [Nat.toString_eq_repr, Nat.toList_repr]

@[simp]
theorem unbroken_toString (n : Nat) : Unbroken (toString n) := by
  rw [Unbroken, toList_toString]
  exact ofVisible_unbroken.forall_mem_toDigits n

theorem Tier.unbroken_label (tier : Tier) : Text.Unbroken tier.label :=
  tier.forall_mem_label ofVisible_unbroken

theorem Tool.unbroken_label (tool : Tool) : Text.Unbroken tool.label :=
  tool.forall_mem_label ofVisible_unbroken

theorem FailurePolicy.unbroken_label (policy : FailurePolicy) : Text.Unbroken policy.label :=
  policy.forall_mem_label ofVisible_unbroken

/-- The label of a status stands on one line. -/
theorem StepStatus.unbroken_label (status : StepStatus) : Text.Unbroken status.label := by
  cases status <;> simp only [label] <;> decide

/-- The texts in a record break no line. -/
structure StepRecord.Unbroken (record : StepRecord) : Prop where
  stepId : Text.Unbroken record.stepId
  workspace : Text.Unbroken record.workspace
  features : Text.Unbroken record.features
  command : Text.Unbroken record.command

namespace StepRecord

variable {record : StepRecord}

/-- The row of a record is one line, if the names in the record are. -/
theorem Unbroken.row
    (unbroken : record.Unbroken) :
    Text.Unbroken record.row := by
  have status : Text.Unbroken (if record.passed then "PASS" else "FAIL") := by
    split <;> decide
  unfold StepRecord.row
  simp only [unbroken_append, unbroken_toString, Tier.unbroken_label, Tool.unbroken_label,
    FailurePolicy.unbroken_label, status, unbroken.features, unbroken.workspace, and_true]
  decide

/-- The bullet of a record is one line. -/
theorem Unbroken.bullet
    (unbroken : record.Unbroken) :
    Text.Unbroken record.bullet := by
  unfold StepRecord.bullet
  simp only [unbroken_append, StepStatus.unbroken_label, unbroken.stepId, unbroken.workspace,
    unbroken.command, and_true]
  decide

/-- The lines about the failure of a record are single lines. -/
theorem Unbroken.failureLines
    (unbroken : record.Unbroken) :
    ∀ line ∈ record.failureLines, Text.Unbroken line := by
  unfold StepRecord.failureLines
  simp only [List.forall_mem_cons, unbroken_append, StepStatus.unbroken_label,
    Tier.unbroken_label, Tool.unbroken_label, unbroken.stepId, unbroken.features,
    unbroken.workspace, unbroken.command, and_true]
  decide

end StepRecord

/-- The texts in a result break no line. -/
structure RunResult.Unbroken (result : RunResult) : Prop where
  runId : Text.Unbroken result.runId
  planFingerprint : Text.Unbroken result.planFingerprint
  records : ∀ record ∈ result.records, record.Unbroken
  reason : ∀ line ∈ result.termination.text?, Text.Unbroken line

theorem RunSummary.unbroken_headline (summary : RunSummary) : Text.Unbroken summary.headline := by
  unfold headline
  split <;> simp only [unbroken_append, unbroken_toString, and_true] <;> decide

theorem RunResult.Unbroken.summaryLines
    {result : RunResult}
    (unbroken : result.Unbroken) :
    ∀ line ∈ result.summaryLines, Text.Unbroken line := by
  unfold RunResult.summaryLines
  refine List.forall_mem_cons.mpr ⟨RunSummary.unbroken_headline _, ?_⟩
  cases result.verdict with
  | passed =>
      exact List.forall_mem_nil _
  | failed =>
      refine List.forall_mem_append.mpr ⟨?_, ?_⟩
      · intro line member
        obtain ⟨record, failed, isLine⟩ := List.mem_flatMap.mp member
        exact (unbroken.records record (List.mem_filter.mp failed).1).failureLines line isLine
      · intro line member
        obtain ⟨reason, isReason, rfl⟩ := Option.map_eq_some_iff.mp (Option.mem_toList.mp member)
        exact unbroken_append.mpr ⟨by decide, unbroken.reason reason isReason⟩

/-- The texts in a report break no line. -/
structure RunReport.Unbroken (report : RunReport) : Prop where
  title : Text.Unbroken report.title
  timestamp : Text.Unbroken report.timestamp
  program : Text.Unbroken report.program
  warnings : ∀ warning ∈ report.warnings, Text.Unbroken warning
  result : report.result.Unbroken

namespace RunReport.Unbroken

variable {report : RunReport}

/-- The lines in front of a report are single lines if its texts are. -/
theorem headLines
    (unbroken : report.Unbroken) :
    ∀ line ∈ report.headLines, Text.Unbroken line := by
  have policy : Text.Unbroken report.interruptPolicy.label := by
    cases report.interruptPolicy <;> decide
  have verdict : Text.Unbroken report.summary.verdict.announced := by
    cases report.summary.verdict <;> decide
  unfold RunReport.headLines
  simp only [List.forall_mem_cons, unbroken_append, unbroken_toString, and_true, unbroken.title,
    unbroken.timestamp, unbroken.program, unbroken.result.runId, unbroken.result.planFingerprint,
    policy, verdict]
  decide

/-- The warnings of a report are single lines. -/
theorem warningLines
    (unbroken : report.Unbroken) :
    ∀ line ∈ report.warningLines, Text.Unbroken line := by
  unfold RunReport.warningLines
  cases listed : report.warnings with
  | nil =>
      exact List.forall_mem_nil _
  | cons warning others =>
      simp only [List.forall_mem_append, List.forall_mem_map, and_assoc]
      refine ⟨by decide, fun text member => unbroken_append.mpr ⟨by decide, ?_⟩, by decide⟩
      exact unbroken.warnings text (listed ▸ member)

/-- What a report says about the end of its run consists of single lines. -/
theorem terminationLines
    (unbroken : report.Unbroken) :
    ∀ line ∈ report.terminationLines, Text.Unbroken line := by
  unfold RunReport.terminationLines
  cases stopped : report.result.termination.text? with
  | none =>
      exact List.forall_mem_nil _
  | some line =>
      have reason := unbroken.result.reason line stopped
      exact List.forall_mem_cons.mpr ⟨by decide, List.forall_mem_singleton.mpr reason⟩

/-- What a report says about failures consists of single lines. -/
theorem failureLines
    (unbroken : report.Unbroken) :
    ∀ line ∈ report.failureLines, Text.Unbroken line := by
  unfold RunReport.failureLines
  cases failed : report.result.failures with
  | nil =>
      exact List.forall_mem_nil _
  | cons record others =>
      refine List.forall_mem_append.mpr ⟨by decide, List.forall_mem_map.mpr ?_⟩
      intro record member
      rw [← failed] at member
      exact (unbroken.result.records record (List.mem_filter.mp member).1).bullet

/-- No line of a report is broken if no text in it is. -/
theorem markdownLines
    (unbroken : report.Unbroken) :
    ∀ line ∈ report.markdownLines, Text.Unbroken line := by
  have rows : ∀ line ∈ report.result.records.map StepRecord.row, Text.Unbroken line :=
    List.forall_mem_map.mpr fun record member => (unbroken.result.records record member).row
  simp only [RunReport.markdownLines, List.forall_mem_append, and_assoc]
  exact ⟨unbroken.headLines, unbroken.warningLines, by decide, rows, unbroken.terminationLines,
    unbroken.failureLines⟩

end RunReport.Unbroken

/-! ## Lines about a stop -/

/-- The line about an end that was not reached begins in the same way for every reason. -/
theorem Termination.begins_text?
    {termination : Termination}
    {line : String}
    (stopped : termination.text? = some line) :
    "Run stopped at ".toList <+: line.toList := by
  cases termination with
  | completed =>
      contradiction
  | aborted stepIndex stepId reason =>
      obtain rfl := Option.some.inj stopped
      simp only [String.toList_append, List.append_assoc]
      exact List.prefix_append _ _

/-- There is such a line unless the run was completed. -/
theorem Termination.isSome_text? (termination : Termination) :
    termination.text?.isSome = !termination.isCompleted := by
  cases termination <;> rfl

/-- Where a run has stopped is looked for line by line. -/
theorem stopLines_append
    (blanks : Nat)
    (first second : List String) :
    stopLines blanks (first ++ second) = stopLines blanks first ++ stopLines blanks second :=
  List.filterMap_append

/-- A line about a stop is found behind its blanks. -/
theorem stopLine?_of_begins
    {blanks : Nat}
    {line words : String}
    (indented : line.toList = List.replicate blanks ' ' ++ words.toList)
    (begins : "Run stopped at ".toList <+: words.toList) :
    stopLine? blanks line = some words := by
  have found :
      (List.replicate blanks ' ' ++ "Run stopped at ".toList).isPrefixOf line.toList = true := by
    rw [List.isPrefixOf_iff_prefix, indented, List.prefix_append_right_inj]
    exact begins
  rw [stopLine?, if_pos found, indented, List.drop_left' (List.length_replicate ..),
    String.ofList_toList]

/-- Lines with other characters behind the blanks are not about a stop. -/
theorem stopLines_eq_nil
    {blanks : Nat}
    {lines : List String}
    (other : ∀ line ∈ lines, (line.toList.drop blanks).head? ≠ some 'R') :
    stopLines blanks lines = [] := by
  refine List.filterMap_eq_nil_iff.mpr fun line member => if_neg fun found => ?_
  obtain ⟨rest, shape⟩ := List.isPrefixOf_iff_prefix.mp found
  apply other line member
  rw [← shape, List.append_assoc, List.drop_left' (List.length_replicate ..)]
  rfl

/-! ## Rows -/

/-- The cell of a row that holds a number. -/
def numberCell (n : Nat) : List Char := ' ' :: (Nat.toDigits 10 n ++ [' '])

/-- The cell of a number has no bar in it, so that the bar behind it ends the cell. -/
theorem bar_not_mem_numberCell (n : Nat) : '|' ∉ numberCell n := by
  have digits : '|' ∉ Nat.toDigits 10 n := fun member =>
    absurd (Nat.isDigit_of_mem_toDigits (by decide) (by decide) member) (by decide)
  simp [numberCell, digits]

/-- The number is read back from its cell. -/
theorem numbers_numberCell (n : Nat) : numbers (numberCell n) = [n] := by
  have behind : numbers (Nat.toDigits 10 n ++ ([' '] ++ [])) = n :: numbers [] :=
    numbers_toDigits_append n (by decide) (by decide) []
  have before : ([' '].all fun c => !c.isDigit) = true := by decide
  exact (numbers_append_of_silent before _).trans behind

namespace StepRecord

/-- The cell of the row that says whether the step passed. -/
def statusCell (record : StepRecord) : List Char :=
  (if record.passed then " PASS " else " FAIL ").toList

theorem bar_not_mem_statusCell (record : StepRecord) : '|' ∉ record.statusCell := by
  unfold statusCell
  split <;> decide

/-- Names in the middle of a row may hold separators. -/
theorem toList_row (record : StepRecord) :
    ∃ middle,
      record.row.toList =
        [] ++ '|' :: (numberCell (record.index + 1) ++ '|' :: (middle ++ '|' ::
          (record.statusCell ++ '|' :: (numberCell record.durationMs ++ '|' :: [])))) := by
  refine ⟨" ".toList ++ record.tier.label.toList ++ " | ".toList ++ record.tool.label.toList
    ++ " | ".toList ++ record.features.toList ++ " | ".toList ++ record.workspace.toList
    ++ " | ".toList ++ record.policy.label.toList ++ " ".toList, ?_⟩
  unfold row statusCell numberCell
  simp only [String.toList_append, toList_toString]
  cases record.passed <;> simp

/-- The cells that are read are the second one and the third one from the end. -/
theorem splitAt_row (record : StepRecord) :
    ∃ cells,
      splitAt '|' record.row.toList =
        [] :: numberCell (record.index + 1) :: cells ++
          [record.statusCell, numberCell record.durationMs, []] := by
  obtain ⟨middle, shape⟩ := record.toList_row
  refine ⟨splitAt '|' middle, ?_⟩
  rw [shape]
  simp only [splitAt_append_cons, splitAt_of_not_mem (bar_not_mem_numberCell _),
    splitAt_of_not_mem record.bar_not_mem_statusCell]
  simp [splitAt]

/-- The row of a record that has not passed gives its position. -/
theorem failedIndex?_row (record : StepRecord) :
    Markdown.failedIndex? record.row = if record.passed then none else some record.index := by
  obtain ⟨cells, divided⟩ := record.splitAt_row
  unfold Markdown.failedIndex?
  rw [divided]
  cases passed : record.passed <;> simp [statusCell, passed, numbers_numberCell]

end StepRecord

/-! ## The Markdown text -/

namespace Markdown

/-- The line is none of those that are looked for. -/
structure Aside (line : String) : Prop where
  noRow : line.toList.head? ≠ some '|'
  noStop : line.toList.head? ≠ some 'R'
  noTitle : line ≠ failuresTitle

/-- A line that begins with another mark and a space is neither a row nor about an end. -/
theorem aside_append
    {mark : Char}
    {words : String}
    (begun : words.toList.take 2 = [mark, ' '])
    (other : mark ≠ '|' ∧ mark ≠ 'R')
    (rest : String) :
    Aside (words ++ rest) := by
  obtain ⟨more, begins⟩ : ∃ more, words.toList = mark :: ' ' :: more := by
    refine ⟨words.toList.drop 2, ?_⟩
    calc words.toList
      _ = words.toList.take 2 ++ words.toList.drop 2 := (List.take_append_drop 2 _).symm
      _ = mark :: ' ' :: words.toList.drop 2 := by rw [begun]; rfl
  constructor
  · simp [begins, other.1]
  · simp [begins, other.2]
  · intro same
    have texts := congrArg String.toList same
    rw [String.toList_append, begins] at texts
    simp [failuresTitle] at texts

/-- The lines in front of the table are neither. -/
theorem aside_front (report : RunReport) :
    ∀ line ∈ report.headLines ++ report.warningLines, Aside line := by
  have item {words : String} (begun : words.toList.take 2 = ['-', ' ']) (rest : String) :
      Aside (words ++ rest) :=
    aside_append begun (by decide) rest
  have title : Aside ("# " ++ report.title) :=
    @aside_append '#' "# " (by decide) (by decide) report.title
  have blank : Aside "" := ⟨by decide, by decide, by decide⟩
  refine List.forall_mem_append.mpr ⟨?_, ?_⟩
  · unfold RunReport.headLines
    simp only [List.forall_mem_cons]
    exact ⟨title, blank, item (by decide) _, item (by decide) _, item (by decide) _,
      item (by decide) _, item (by decide) _, item (by decide) _, item (by decide) _,
      item (by decide) _, item (by decide) _, item (by decide) _, blank, List.forall_mem_nil _⟩
  · unfold RunReport.warningLines
    cases report.warnings with
    | nil =>
        exact List.forall_mem_nil _
    | cons warning others =>
        have heading : Aside "## Warnings" := ⟨by decide, by decide, by decide⟩
        simp only [List.forall_mem_append, List.forall_mem_map]
        refine ⟨⟨?_, fun text _ => item (by decide) text⟩, List.forall_mem_singleton.mpr blank⟩
        exact List.forall_mem_cons.mpr ⟨heading, List.forall_mem_singleton.mpr blank⟩

theorem head?_row (record : StepRecord) : record.row.toList.head? = some '|' := by
  obtain ⟨middle, shape⟩ := record.toList_row
  rw [shape]
  rfl

theorem head?_bullet (record : StepRecord) : record.bullet.toList.head? = some '-' := by
  unfold StepRecord.bullet
  simp

/-- The table of a report has a row for every record. -/
theorem rows_markdownLines (report : RunReport) :
    rows report.markdownLines = report.result.records.map StepRecord.row := by
  have tail :
      (report.terminationLines ++ report.failureLines).takeWhile
        (fun line => line.toList.head? = some '|') = [] := by
    unfold RunReport.terminationLines RunReport.failureLines
    cases report.result.termination.text? <;> cases report.result.failures <;> rfl
  have front :
      ∀ line ∈ report.headLines ++ report.warningLines, line.toList.head? ≠ some '|' :=
    fun line member => (aside_front report line member).noRow
  have shown :
      ∀ line ∈ report.result.records.map StepRecord.row, line.toList.head? = some '|' :=
    List.forall_mem_map.mpr fun record _ => head?_row record
  unfold rows
  rw [RunReport.markdownLines, List.append_assoc, List.append_assoc, List.append_assoc,
    List.dropWhile_append_of_pos (by simpa using front)]
  simp only [RunReport.tableHead, List.cons_append, List.nil_append]
  rw [List.dropWhile_cons_of_neg (by decide)]
  simp only [List.drop_succ_cons, List.drop_zero]
  rw [List.takeWhile_append_of_pos (by simpa using shown), tail, List.append_nil]

/-- No line before the section about failures is its title. -/
theorem ne_failuresTitle (report : RunReport) :
    ∀ line ∈ report.headLines ++ report.warningLines ++ RunReport.tableHead
        ++ report.result.records.map StepRecord.row ++ report.terminationLines,
      line ≠ failuresTitle := by
  have notBegun {line : String} (other : line.toList.head? ≠ some '#') : line ≠ failuresTitle :=
    fun same => other (congrArg (fun line => line.toList.head?) same)
  have front : ∀ line ∈ report.headLines ++ report.warningLines, line ≠ failuresTitle :=
    fun line member => (aside_front report line member).noTitle
  rw [List.forall_mem_append, List.forall_mem_append, List.forall_mem_append]
  refine ⟨⟨⟨front, by decide⟩, ?_⟩, ?_⟩
  · refine List.forall_mem_map.mpr fun record _ => notBegun ?_
    simp [head?_row]
  · unfold RunReport.terminationLines
    cases stopped : report.result.termination.text? with
    | none =>
        exact List.forall_mem_nil _
    | some line =>
        obtain ⟨rest, shape⟩ := Termination.begins_text? stopped
        refine List.forall_mem_cons.mpr ⟨by decide, List.forall_mem_singleton.mpr (notBegun ?_)⟩
        rw [← shape]
        simp

/-- The section about failures has an item for every one of them. -/
theorem bullets_markdownLines (report : RunReport) :
    bullets report.markdownLines = report.result.failures.map StepRecord.bullet := by
  have before :
      ∀ line ∈ report.headLines ++ report.warningLines ++ RunReport.tableHead
          ++ report.result.records.map StepRecord.row ++ report.terminationLines,
        (decide (line ≠ failuresTitle)) = true :=
    fun line member => decide_eq_true (ne_failuresTitle report line member)
  unfold bullets
  rw [RunReport.markdownLines, List.dropWhile_append_of_pos before, RunReport.failureLines]
  cases failed : report.result.failures with
  | nil =>
      rfl
  | cons record others =>
      have items :
          ∀ line ∈ (record :: others).map StepRecord.bullet,
            decide (line.toList.head? = some '-') = true :=
        List.forall_mem_map.mpr fun record _ => decide_eq_true (head?_bullet record)
      simp only [List.cons_append, List.nil_append]
      rw [List.dropWhile_cons_of_pos (by decide), List.dropWhile_cons_of_neg (by decide),
        List.filter_cons_of_neg (by decide), List.filter_cons_of_neg (by decide),
        List.filter_eq_self.mpr items]

/-- There is a section about failures exactly if there are any. -/
theorem failuresTitle_mem_markdownLines_iff (report : RunReport) :
    failuresTitle ∈ report.markdownLines ↔ report.result.failures ≠ [] := by
  rw [RunReport.markdownLines, List.mem_append, RunReport.failureLines]
  constructor
  · rintro (before | inside) none
    · exact ne_failuresTitle report _ before rfl
    · rw [none] at inside
      contradiction
  · intro some
    obtain ⟨record, others, failed⟩ := List.exists_cons_of_ne_nil some
    rw [failed]
    exact .inr (List.mem_cons_of_mem _ List.mem_cons_self)

/-- The one line about an end is found among the lines about it. -/
theorem stopLines_terminationLines (report : RunReport) :
    stopLines 0 report.terminationLines = report.result.termination.text?.toList := by
  unfold RunReport.terminationLines
  cases stopped : report.result.termination.text? with
  | none =>
      rfl
  | some line =>
      have blank : stopLine? 0 "" = none := by decide
      have told : stopLine? 0 line = some line :=
        stopLine?_of_begins rfl (Termination.begins_text? stopped)
      simp [stopLines, blank, told]

/-- The lines about failures hold none about an early end. -/
theorem stopLines_failureLines (report : RunReport) : stopLines 0 report.failureLines = [] := by
  unfold RunReport.failureLines
  cases report.result.failures with
  | nil =>
      rfl
  | cons record others =>
      refine stopLines_eq_nil (List.forall_mem_append.mpr ⟨by decide, ?_⟩)
      refine List.forall_mem_map.mpr fun record _ => ?_
      simp [head?_bullet]

/-- Only the line about the end of the run tells of a stop. -/
theorem stopLines_markdownLines (report : RunReport) :
    stopLines 0 report.markdownLines = report.result.termination.text?.toList := by
  have front : stopLines 0 (report.headLines ++ report.warningLines) = [] :=
    stopLines_eq_nil fun line member => (aside_front report line member).noStop
  have head : stopLines 0 RunReport.tableHead = [] := by decide
  have shown : stopLines 0 (report.result.records.map StepRecord.row) = [] := by
    refine stopLines_eq_nil (List.forall_mem_map.mpr fun record _ => ?_)
    simp [head?_row]
  rw [RunReport.markdownLines, stopLines_append, stopLines_append, stopLines_append,
    stopLines_append, front, head, shown, stopLines_terminationLines, stopLines_failureLines]
  simp

end Markdown

/-! ## The summary for a user -/

namespace Summary

/-- The lines about failures are divided into those of each record. -/
theorem threes_flatMap
    (records : List StepRecord)
    (rest : Option String) :
    threes (records.flatMap StepRecord.failureLines ++ rest.toList) =
      records.map StepRecord.failureLines := by
  induction records with
  | nil =>
      cases rest <;> rfl
  | cons record others inductionHypothesis =>
      exact congrArg (record.failureLines :: ·) inductionHypothesis

/-- A run that has passed has neither a failure nor a reason for its end. -/
theorem failures_of_passed
    {result : RunResult}
    (passed : result.verdict = .passed) :
    result.failures = [] ∧ result.termination.text? = none := by
  unfold RunResult.verdict at passed
  split at passed
  · rename_i both
    rw [Bool.and_eq_true] at both
    have completed := result.termination.isSome_text?
    rw [both.1] at completed
    refine ⟨List.filter_eq_nil_iff.mpr fun record member => ?_, by simpa using completed⟩
    simp [List.all_eq_true.mp both.2 record member]
  · contradiction

/-- The summary has a block for every failure. -/
theorem blocks_summaryLines (result : RunResult) :
    blocks result.summaryLines = result.failures.map StepRecord.failureLines := by
  unfold blocks RunResult.summaryLines
  cases verdict : result.verdict with
  | passed =>
      rw [(failures_of_passed verdict).1]
      rfl
  | failed =>
      exact threes_flatMap _ _

theorem stopLines_headline (summary : RunSummary) : stopLines 2 [summary.headline] = [] := by
  refine stopLines_eq_nil (List.forall_mem_singleton.mpr ?_)
  unfold RunSummary.headline
  split <;> simp

theorem stopLines_failureLines
    {record : StepRecord}
    (named : record.stepId.toList.head? ≠ some 'R') :
    stopLines 2 record.failureLines = [] := by
  unfold StepRecord.failureLines
  refine stopLines_eq_nil ?_
  simp only [List.forall_mem_cons]
  refine ⟨?_, by simp, by simp, List.forall_mem_nil _⟩
  cases id : record.stepId.toList with
  | nil =>
      simp [id]
  | cons c others =>
      simpa [id] using named

/-- Only the last line tells of a stop. -/
theorem stopLines_summaryLines
    {result : RunResult}
    (named : ∀ record ∈ result.records, record.stepId.toList.head? ≠ some 'R') :
    stopLines 2 result.summaryLines = result.termination.text?.toList := by
  unfold RunResult.summaryLines
  rw [← List.singleton_append, stopLines_append, stopLines_headline, List.nil_append]
  cases verdict : result.verdict with
  | passed =>
      rw [(failures_of_passed verdict).2]
      rfl
  | failed =>
      have blocks : stopLines 2 (result.failures.flatMap StepRecord.failureLines) = [] := by
        rw [stopLines, List.filterMap_flatMap, List.flatMap_eq_nil_iff]
        intro record failed
        exact stopLines_failureLines (named record (List.mem_filter.mp failed).1)
      simp only [stopLines_append, blocks, List.nil_append]
      cases stopped : result.termination.text? with
      | none =>
          rfl
      | some line =>
          have told : stopLine? 2 ("  " ++ line) = some line :=
            stopLine?_of_begins (by simp) (Termination.begins_text? stopped)
          simp [stopLines, told]

/-- The headline tells how many steps have passed and were planned, and of other runs how many
failed and were skipped. -/
theorem numbers_headline (summary : RunSummary) :
    numbers summary.headline.toList =
      match summary.verdict with
      | .passed => [summary.passed, summary.planned]
      | .failed => [summary.passed, summary.failed, summary.skipped, summary.planned] := by
  unfold RunSummary.headline
  cases summary.verdict with
  | passed =>
      simp only [String.toList_append, toList_toString, List.append_assoc]
      rw [← List.append_nil " steps)".toList, numbers_append_of_silent (by decide),
        numbers_toDigits_append _ (by decide) (by decide),
        numbers_toDigits_append _ (by decide) (by decide)]
      rfl
  | failed =>
      simp only [String.toList_append, toList_toString, List.append_assoc]
      rw [← List.append_nil " planned)".toList, numbers_append_of_silent (by decide),
        numbers_toDigits_append _ (by decide) (by decide),
        numbers_toDigits_append _ (by decide) (by decide),
        numbers_toDigits_append _ (by decide) (by decide),
        numbers_toDigits_append _ (by decide) (by decide)]
      rfl

end Summary

end VerifyPipeline
