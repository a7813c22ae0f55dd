import VerifyPipeline.Plan.Fingerprint

namespace VerifyPipeline

/-!
# What the texts of a plan are made of

The identity of a step and its command lines consist of visible characters and of those of the names
in the step and of the program.  So whatever is true of visible characters and of these is true of
the texts.
-/

/-! ## Visible characters -/

namespace Text

/-- The property is one of every visible character. -/
def OfVisible (p : Char → Prop) : Prop := ∀ c, ' ' ≤ c → c ≤ '~' → p c

variable {p : Char → Prop}

/-- A text whose characters are all visible has every property of the visible ones. -/
theorem OfVisible.forall_mem
    (visible : OfVisible p)
    {text : List Char}
    (shown : (text.all fun c => ' ' ≤ c && c ≤ '~') = true) :
    ∀ c ∈ text, p c := by
  simp only [List.all_eq_true, Bool.and_eq_true, decide_eq_true_eq] at shown
  exact fun c member => visible c (shown c member).1 (shown c member).2

/-- The digits of a number are visible characters. -/
theorem OfVisible.forall_mem_toDigits
    (visible : OfVisible p)
    (n : Nat) :
    ∀ c ∈ Nat.toDigits 10 n, p c := by
  refine visible.forall_mem (List.all_eq_true.mpr fun c member => ?_)
  have digit := Nat.isDigit_of_mem_toDigits (by decide) (by decide) member
  simp only [Char.isDigit, Bool.and_eq_true, decide_eq_true_eq, ge_iff_le] at digit
  simp only [Bool.and_eq_true, decide_eq_true_eq]
  exact ⟨Nat.le_trans (by decide) digit.1, Nat.le_trans digit.2 (by decide)⟩

/-- What is true of every hexadecimal digit is true of a digest. -/
theorem forall_mem_hexDigest
    (digit : ∀ n < 16, p (hexDigit n))
    (message : List UInt8) :
    ∀ c ∈ (Sha256.hexDigest message).toList, p c := by
  intro c member
  simp only [Sha256.hexDigest, Sha256.hexWord, String.toList_ofList, List.mem_flatMap,
    List.mem_map] at member
  obtain ⟨word, _, place, _, rfl⟩ := member
  exact digit (word.toNat / Nat.pow 16 place % 16) (Nat.mod_lt _ (by decide))

/-- The characters of a digest are visible. -/
theorem OfVisible.forall_mem_hexDigest
    (visible : OfVisible p)
    (message : List UInt8) :
    ∀ c ∈ (Sha256.hexDigest message).toList, p c := by
  have shown : ∀ n < 16, ' ' ≤ hexDigit n ∧ hexDigit n ≤ '~' := by decide
  exact Text.forall_mem_hexDigest
    (fun n below => visible _ (shown n below).1 (shown n below).2) message

/-- What holds inside the pieces and between them holds throughout. -/
theorem forall_mem_intercalate
    {p : α → Prop}
    {separator : List α}
    {pieces : List (List α)}
    (between : ∀ a ∈ separator, p a)
    (inside : ∀ piece ∈ pieces, ∀ a ∈ piece, p a) :
    ∀ a ∈ separator.intercalate pieces, p a := by
  induction pieces with
  | nil =>
      exact List.forall_mem_nil _
  | cons piece others inductionHypothesis =>
      obtain ⟨first, later⟩ := List.forall_mem_cons.mp inside
      cases others with
      | nil =>
          simpa using first
      | cons next rest =>
          rw [List.intercalate_cons_cons, List.forall_mem_append, List.forall_mem_append]
          exact ⟨⟨first, between⟩, inductionHypothesis later⟩

end Text

/-! ## Feature arguments -/

/-- The names that a selection adds to the default ones, or to none. -/
def FeatureSelection.names : FeatureSelection → List String
  | .default | .allFeatures => []
  | .features set | .noDefault set => set.names

/-- Arguments as they stand in a command line. -/
def spaced (args : List String) : List Char := args.flatMap fun arg => ' ' :: arg.toList

/-- The arguments that a selection can be told with, and the label that goes with them. -/
inductive Told : List String → String → Prop where
  | nothing : Told [] "default"
  | names (listed : String) : Told ["--features=" ++ listed] listed
  | all : Told ["--all-features"] "all-features"
  | alone : Told ["--no-default-features"] "no-default"
  | namesAlone (listed : String) :
      Told ["--no-default-features", "--features=" ++ listed] ("no-default+" ++ listed)

/-- The label of a selection tells its arguments. -/
theorem FeatureSelection.told (features : FeatureSelection) :
    Told features.args features.label := by
  cases features with
  | default =>
      exact .nothing
  | allFeatures =>
      exact .all
  | features set =>
      cases empty : set.isEmpty with
      | true =>
          simpa [args, label, FeatureSet.args, empty] using .nothing
      | false =>
          simpa [args, label, FeatureSet.args, empty] using .names set.render
  | noDefault set =>
      cases empty : set.isEmpty with
      | true =>
          simpa [args, label, FeatureSet.args, empty] using .alone
      | false =>
          simpa [args, label, FeatureSet.args, empty] using .namesAlone set.render

/-! ## Command lines -/

/-- A command is shown as its program with its arguments behind it, each after a space. -/
theorem ToolCommand.toList_render
    (program : String)
    (command : ToolCommand) :
    (command.render program).toList = program.toList ++ spaced command.args := by
  unfold render
  induction command.args generalizing program with
  | nil =>
      simp [spaced]
  | cons arg rest inductionHypothesis =>
      rw [List.foldl_cons, inductionHypothesis]
      simp [spaced]

namespace Tool

/-- What stands before the feature arguments in the command lines of a tool. -/
def lead (program : String) : Tool → List Char
  | .test => program.toList ++ spaced ["test"]
  | .valgrind => program.toList ++ spaced ["valgrind", "test", "--release"]
  | .miri => program.toList ++ spaced ["+nightly", "miri", "test"]
  | .lint =>
      program.toList ++ spaced ["fmt", "--", "--check"] ++ " && ".toList ++ program.toList
        ++ spaced ["clippy"]
  | .docs => program.toList ++ spaced ["doc", "--no-deps"]

/-- What stands behind the feature arguments in the command lines of a tool. -/
def trail : Tool → List Char
  | .lint => spaced ["--", "--deny", "warnings"]
  | _ => []

end Tool

/-- The commands of a step are shown as the arguments for its features between what its tool puts in
front of them and behind them. -/
theorem Step.toList_renderCommands
    (program : String)
    (step : Step) :
    (step.renderCommands program).toList =
      step.tool.lead program ++ (spaced step.features.args ++ step.tool.trail) := by
  obtain ⟨tier, tool, workspace, features, policy⟩ := step
  cases tool <;>
    simp [renderCommands, commands, Tool.commands, Tool.lead, Tool.trail,
      ToolCommand.toList_render, spaced]

/-! ## The characters of the texts -/

section Characters

variable {p : Char → Prop}

/-- The names of a set and the commas between them are all that its text is made of. -/
theorem FeatureSet.forall_mem_render
    {set : FeatureSet}
    (comma : p ',')
    (inside : ∀ name ∈ set.names, ∀ c ∈ name.toList, p c) :
    ∀ c ∈ set.render.toList, p c := by
  rw [FeatureSet.render, String.toList_intercalate]
  exact Text.forall_mem_intercalate (List.forall_mem_singleton.mpr comma)
    (List.forall_mem_map.mpr inside)

/-- The label of a selection has no other characters than visible ones and those of the names in it.
-/
theorem FeatureSelection.forall_mem_label
    {features : FeatureSelection}
    (visible : Text.OfVisible p)
    (inside : ∀ name ∈ features.names, ∀ c ∈ name.toList, p c) :
    ∀ c ∈ features.label.toList, p c := by
  have comma : p ',' := visible ',' (by decide) (by decide)
  cases features with
  | default | allFeatures =>
      exact visible.forall_mem (by decide)
  | features set =>
      simp only [FeatureSelection.label]
      split
      · exact visible.forall_mem (by decide)
      · exact FeatureSet.forall_mem_render comma inside
  | noDefault set =>
      simp only [FeatureSelection.label]
      split
      · exact visible.forall_mem (by decide)
      · rw [String.toList_append, List.forall_mem_append]
        exact ⟨visible.forall_mem (by decide), FeatureSet.forall_mem_render comma inside⟩

/-- All names among the arguments are in the label, too. -/
theorem Told.forall_mem_spaced
    {args : List String}
    {label : String}
    (told : Told args label)
    (visible : Text.OfVisible p)
    (inside : ∀ c ∈ label.toList, p c) :
    ∀ c ∈ spaced args, p c := by
  cases told with
  | nothing | all | alone =>
      exact visible.forall_mem (by decide)
  | names =>
      have whole : spaced ["--features=" ++ label] = " --features=".toList ++ label.toList := by
        simp [spaced]
      rw [whole, List.forall_mem_append]
      exact ⟨visible.forall_mem (by decide), inside⟩
  | namesAlone listed =>
      rw [String.toList_append, List.forall_mem_append] at inside
      have whole :
          spaced ["--no-default-features", "--features=" ++ listed] =
            " --no-default-features --features=".toList ++ listed.toList := by
        simp [spaced]
      rw [whole, List.forall_mem_append]
      exact ⟨visible.forall_mem (by decide), inside.2⟩

theorem Tier.forall_mem_label
    (visible : Text.OfVisible p)
    (tier : Tier) :
    ∀ c ∈ tier.label.toList, p c := by
  cases tier <;> exact visible.forall_mem (by decide)

theorem Tool.forall_mem_label
    (visible : Text.OfVisible p)
    (tool : Tool) :
    ∀ c ∈ tool.label.toList, p c := by
  cases tool <;> exact visible.forall_mem (by decide)

theorem FailurePolicy.forall_mem_label
    (visible : Text.OfVisible p)
    (policy : FailurePolicy) :
    ∀ c ∈ policy.label.toList, p c := by
  cases policy <;> exact visible.forall_mem (by decide)

/-- What a tool puts in front of its features is the program and visible characters. -/
theorem Tool.forall_mem_lead
    {program : String}
    (visible : Text.OfVisible p)
    (inside : ∀ c ∈ program.toList, p c)
    (tool : Tool) :
    ∀ c ∈ tool.lead program, p c := by
  cases tool with
  | lint =>
      simp only [lead, List.forall_mem_append, and_assoc]
      exact ⟨inside, visible.forall_mem (by decide), visible.forall_mem (by decide), inside,
        visible.forall_mem (by decide)⟩
  | _ =>
      exact List.forall_mem_append.mpr ⟨inside, visible.forall_mem (by decide)⟩

namespace Step

variable {step : Step}

/-- The id of a step has no other characters than visible ones and those of the names in it. -/
theorem forall_mem_id
    (visible : Text.OfVisible p)
    (workspace : ∀ c ∈ step.workspace.name.toList, p c)
    (features : ∀ name ∈ step.features.names, ∀ c ∈ name.toList, p c) :
    ∀ c ∈ step.id.toList, p c := by
  have label := FeatureSelection.forall_mem_label visible features
  simp only [Step.id, String.toList_append, List.forall_mem_append, and_assoc]
  exact ⟨step.tier.forall_mem_label visible, visible.forall_mem (by decide),
    step.tool.forall_mem_label visible, visible.forall_mem (by decide), workspace,
    visible.forall_mem (by decide), label, visible.forall_mem (by decide)⟩

/-- The commands of a step are shown by visible characters, the program and the names of features.
-/
theorem forall_mem_renderCommands
    {program : String}
    (visible : Text.OfVisible p)
    (inside : ∀ c ∈ program.toList, p c)
    (features : ∀ name ∈ step.features.names, ∀ c ∈ name.toList, p c) :
    ∀ c ∈ (step.renderCommands program).toList, p c := by
  have label := FeatureSelection.forall_mem_label visible features
  have trail : ∀ c ∈ step.tool.trail, p c := by
    cases step.tool <;> exact visible.forall_mem (by decide)
  rw [toList_renderCommands, List.forall_mem_append, List.forall_mem_append]
  exact ⟨step.tool.forall_mem_lead visible inside,
    step.features.told.forall_mem_spaced visible label, trail⟩

end Step

end Characters

end VerifyPipeline
