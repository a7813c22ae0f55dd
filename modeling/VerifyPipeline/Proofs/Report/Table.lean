import Mathlib.Data.List.Forall2
import VerifyPipeline.Proofs.Report.Reading

namespace VerifyPipeline

/-!
# What the table of a report tells

The rows of the table are found in the Markdown text whatever surrounds them, and the cells of a row
can be told apart as long as no name holds a bar.  So the table tells every record but for its
identity, its command and the details of its status.
-/

open Text

/-! ## Cells -/

namespace Markdown

/-- The cell of a row that holds a text. -/
def cell (text : List Char) : List Char := ' ' :: (text ++ [' '])

/-- Cells differ if their texts do. -/
theorem cell_inj
    {first second : List Char}
    (same : cell first = cell second) :
    first = second :=
  List.append_cancel_right (List.cons.inj same).2

theorem bar_not_mem_cell
    {text : List Char}
    (clean : '|' ∉ text) :
    '|' ∉ cell text := by
  simp [cell, clean]

/-- The cells of different numbers differ. -/
theorem numberCell_inj
    {first second : Nat}
    (same : numberCell first = numberCell second) :
    first = second := by
  have read := congrArg numbers same
  rw [numbers_numberCell, numbers_numberCell] at read
  exact (List.cons.inj read).1

end Markdown

open Markdown

/-- Two records that the table does not tell apart. -/
structure StepRecord.ShownAlike (first second : StepRecord) : Prop where
  index : first.index = second.index
  tier : first.tier = second.tier
  tool : first.tool = second.tool
  features : first.features = second.features
  workspace : first.workspace = second.workspace
  policy : first.policy = second.policy
  passed : first.passed = second.passed
  durationMs : first.durationMs = second.durationMs

/-- No name in the record divides a row. -/
structure StepRecord.Unbarred (record : StepRecord) : Prop where
  features : '|' ∉ record.features.toList
  workspace : '|' ∉ record.workspace.toList

namespace StepRecord

/-- A row consists of its cells. -/
theorem toList_row_eq_cells (record : StepRecord) :
    record.row.toList =
      [] ++ '|' :: (numberCell (record.index + 1) ++ '|' ::
        (cell record.tier.label.toList ++ '|' :: (cell record.tool.label.toList ++ '|' ::
          (cell record.features.toList ++ '|' :: (cell record.workspace.toList ++ '|' ::
            (cell record.policy.label.toList ++ '|' :: (record.statusCell ++ '|' ::
              (numberCell record.durationMs ++ '|' :: [])))))))) := by
  unfold row statusCell numberCell cell
  simp only [String.toList_append, toList_toString]
  cases record.passed <;> simp

/-- The cell of a status tells whether the step has passed. -/
theorem passed_eq_of_statusCell
    {first second : StepRecord}
    (same : first.statusCell = second.statusCell) :
    first.passed = second.passed := by
  unfold statusCell at same
  revert same
  cases first.passed <;> cases second.passed <;> decide

/-- Equal rows show records alike.  The cells are taken off one by one, from left to right. -/
theorem shownAlike_of_row
    {first second : StepRecord}
    (clean : first.Unbarred)
    (alsoClean : second.Unbarred)
    (same : first.row = second.row) :
    first.ShownAlike second := by
  have tierClean (tier : Tier) : '|' ∉ cell tier.label.toList := by
    cases tier <;> decide
  have toolClean (tool : Tool) : '|' ∉ cell tool.label.toList := by
    cases tool <;> decide
  have policyClean (policy : FailurePolicy) : '|' ∉ cell policy.label.toList := by
    cases policy <;> decide
  have texts := congrArg String.toList same
  rw [toList_row_eq_cells, toList_row_eq_cells] at texts
  obtain ⟨-, texts⟩ := append_cons_inj List.not_mem_nil List.not_mem_nil texts
  obtain ⟨indexes, texts⟩ :=
    append_cons_inj (bar_not_mem_numberCell _) (bar_not_mem_numberCell _) texts
  obtain ⟨tiers, texts⟩ := append_cons_inj (tierClean _) (tierClean _) texts
  obtain ⟨tools, texts⟩ := append_cons_inj (toolClean _) (toolClean _) texts
  obtain ⟨features, texts⟩ :=
    append_cons_inj (bar_not_mem_cell clean.features) (bar_not_mem_cell alsoClean.features) texts
  obtain ⟨workspaces, texts⟩ :=
    append_cons_inj (bar_not_mem_cell clean.workspace) (bar_not_mem_cell alsoClean.workspace) texts
  obtain ⟨policies, texts⟩ := append_cons_inj (policyClean _) (policyClean _) texts
  obtain ⟨statuses, texts⟩ :=
    append_cons_inj first.bar_not_mem_statusCell second.bar_not_mem_statusCell texts
  obtain ⟨durations, -⟩ :=
    append_cons_inj (bar_not_mem_numberCell _) (bar_not_mem_numberCell _) texts
  constructor
  case index =>
    exact Nat.succ.inj (numberCell_inj indexes)
  case tier =>
    revert tiers
    cases first.tier <;> cases second.tier <;> decide
  case tool =>
    revert tools
    cases first.tool <;> cases second.tool <;> decide
  case features =>
    exact String.toList_inj.mp (cell_inj features)
  case workspace =>
    exact String.toList_inj.mp (cell_inj workspaces)
  case policy =>
    revert policies
    cases first.policy <;> cases second.policy <;> decide
  case passed =>
    exact passed_eq_of_statusCell statuses
  case durationMs =>
    exact numberCell_inj durations

/-- Rows that are equal one by one show as many records on both sides, and show them alike. -/
theorem shownAlike_of_map_row
    {first second : List StepRecord}
    (clean : ∀ record ∈ first, record.Unbarred)
    (alsoClean : ∀ record ∈ second, record.Unbarred)
    (same : first.map row = second.map row) :
    List.Forall₂ ShownAlike first second := by
  induction first generalizing second with
  | nil =>
      obtain rfl := List.map_eq_nil_iff.mp same.symm
      exact .nil
  | cons record others inductionHypothesis =>
      cases second with
      | nil =>
          contradiction
      | cons other rest =>
          rw [List.forall_mem_cons] at clean alsoClean
          obtain ⟨firstRow, laterRows⟩ := List.cons.inj same
          apply List.Forall₂.cons
          · exact shownAlike_of_row clean.1 alsoClean.1 firstRow
          · exact inductionHypothesis clean.2 alsoClean.2 laterRows

end StepRecord

/-! ## Reports -/

namespace RunReport

/--
Two reports with the same Markdown text have the same number of records, and the
table shows their records alike, if no text in the reports breaks a line and no
name in their records holds a bar.
-/
theorem shownAlike_of_markdown
    {first second : RunReport}
    (unbroken : first.Unbroken)
    (alsoUnbroken : second.Unbroken)
    (clean : ∀ record ∈ first.result.records, record.Unbarred)
    (alsoClean : ∀ record ∈ second.result.records, record.Unbarred)
    (same : first.markdown = second.markdown) :
    List.Forall₂ StepRecord.ShownAlike first.result.records second.result.records := by
  have lines : first.markdownLines = second.markdownLines := by
    have ended := congrArg endedLines same
    rwa [markdown, markdown, endedLines_ofLines unbroken.markdownLines,
      endedLines_ofLines alsoUnbroken.markdownLines] at ended
  have shown := congrArg rows lines
  rw [rows_markdownLines, rows_markdownLines] at shown
  exact StepRecord.shownAlike_of_map_row clean alsoClean shown

/-- A report in which the first record passed and gives a command that is shown nowhere. -/
def rerunBy (command : String) : RunReport where
  title := "| # | Tier |"
  timestamp := ""
  program := "cargo"
  config := {}
  interruptPolicy := .abort
  warnings := ["| 1 | baseline | test |", ""]
  summary := ⟨3, 2, 1, 1, 1, .failed⟩
  result :=
    { runId := "run"
      planFingerprint := ""
      planned := 3
      records := [
        ⟨0, "a", .baseline, .test, "", "default", .recordAndContinue, command, .passed, 7⟩,
        ⟨9, "b", .docsStrict, .docs, " PASS ", "", .abortImmediately, "cargo doc",
          .failed (some 101) none, 0⟩]
      termination := .aborted 1 (some "| b |") .stepFailed }

theorem unbroken_rerunBy
    {command : String}
    (unbroken : Text.Unbroken command) :
    (rerunBy command).Unbroken := by
  have blank : Text.Unbroken "" := by decide
  have warning : Text.Unbroken "| 1 | baseline | test |" := by decide
  have first : Text.Unbroken "a" ∧ Text.Unbroken "default" := by decide
  have second : Text.Unbroken "b" ∧ Text.Unbroken " PASS " ∧ Text.Unbroken "cargo doc" := by decide
  have stop : ∀ line ∈ (rerunBy "").result.termination.text?, Text.Unbroken line := by
    rintro line ⟨rfl⟩
    decide +kernel
  exact {
    title := (by decide : Text.Unbroken "| # | Tier |")
    timestamp := blank
    program := (by decide : Text.Unbroken "cargo")
    warnings := List.forall_mem_cons.mpr ⟨warning, List.forall_mem_singleton.mpr blank⟩
    result :=
      { runId := (by decide : Text.Unbroken "run")
        planFingerprint := blank
        records := by
          simp only [rerunBy, List.forall_mem_cons]
          exact ⟨⟨first.1, blank, first.2, unbroken⟩,
            ⟨second.1, second.2.1, blank, second.2.2⟩, List.forall_mem_nil _⟩
        reason := stop }
  }

theorem unbarred_rerunBy (command : String) :
    ∀ record ∈ (rerunBy command).result.records, record.Unbarred := by
  have clean : '|' ∉ "".toList ∧ '|' ∉ "default".toList ∧ '|' ∉ " PASS ".toList := by decide
  simp only [rerunBy, List.forall_mem_cons]
  exact ⟨⟨clean.2.1, clean.1⟩, ⟨clean.1, clean.2.2⟩, List.forall_mem_nil _⟩

/-- Different reports with the same Markdown text, in which bars are all around the table. -/
theorem shownAlike_of_markdown_rerun :
    let first := rerunBy "cargo test"
    let second := rerunBy "env cargo test"
    first ≠ second ∧
      first.Unbroken ∧ second.Unbroken ∧
      (∀ record ∈ first.result.records, record.Unbarred) ∧
      (∀ record ∈ second.result.records, record.Unbarred) ∧
      first.markdown = second.markdown ∧
      List.Forall₂ StepRecord.ShownAlike first.result.records second.result.records := by
  intro first second
  have unbroken : first.Unbroken := unbroken_rerunBy (by decide)
  have alsoUnbroken : second.Unbroken := unbroken_rerunBy (by decide)
  have clean := unbarred_rerunBy "cargo test"
  have alsoClean := unbarred_rerunBy "env cargo test"
  have same : first.markdown = second.markdown := rfl
  exact ⟨by decide, unbroken, alsoUnbroken, clean, alsoClean, same,
    shownAlike_of_markdown unbroken alsoUnbroken clean alsoClean same⟩

end RunReport

end VerifyPipeline
