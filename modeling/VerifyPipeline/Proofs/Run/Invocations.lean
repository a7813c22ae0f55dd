import VerifyPipeline.Proofs.Feature.Arguments
import VerifyPipeline.Proofs.Run.Attempts

namespace VerifyPipeline

/-!
# Command lines that can be run again

Command lines are not quoted.  Without spaces in the names of features and in the program they come
apart all the same: names are told behind an equals sign, whatever they are, so no argument is taken
for what stands between two commands.
-/

open Text

/-- What command lines invoke: one invocation is parted from the next by a double ampersand that
stands between spaces. -/
def invocationsIn (line : String) : List (List String) := List.splitOn "&&" (pieces ' ' line)

/-- A command with its program in front. -/
def ToolCommand.invocation (program : String) (command : ToolCommand) : List String :=
  program :: command.args

/-- What an attempt has invoked. -/
def Attempt.invocation (program : String) (attempt : Attempt) : List String :=
  program :: attempt.arguments

/-- The command lines of a record tell what attempts have invoked; there may be more in them only if
the step has not passed. -/
structure StepRecord.Tells
    (record : StepRecord)
    (program : String)
    (attempts : List Attempt) : Prop where
  begun : attempts.map (·.invocation program) <+: invocationsIn record.command
  whole :
    record.status = .passed →
      attempts.map (·.invocation program) = invocationsIn record.command

/-- A text can stand between spaces in an invocation. -/
def IsWord (text : String) : Prop := ' ' ∉ text.toList ∧ text ≠ "&&"

instance (text : String) : Decidable (IsWord text) :=
  inferInstanceAs (Decidable (_ ∧ _))

/-! ## Lines of words -/

/-- A command is shown as the words of its invocation with spaces between. -/
theorem ToolCommand.render_eq_intercalate
    (program : String)
    (command : ToolCommand) :
    command.render program = String.intercalate " " (command.invocation program) := by
  unfold render invocation
  induction command.args generalizing program with
  | nil =>
      simp
  | cons arg rest inductionHypothesis =>
      rw [List.foldl_cons, inductionHypothesis, String.intercalate_cons_append,
        String.intercalate_cons_cons]

theorem intercalate_invocation_ne_nil
    (program : String)
    {commands : List ToolCommand}
    (present : commands ≠ []) :
    ["&&"].intercalate (commands.map (·.invocation program)) ≠ [] := by
  cases commands with
  | nil =>
      exact absurd rfl present
  | cons command rest =>
      cases rest <;> simp [ToolCommand.invocation, List.intercalate_cons_cons]

/-- Two commands are shown with the sign between them. -/
theorem intercalate_parted
    {first second : List String}
    (firstPresent : first ≠ [])
    (secondPresent : second ≠ []) :
    String.intercalate " " (first ++ ["&&"] ++ second) =
      String.intercalate " " first ++ " && " ++ String.intercalate " " second := by
  have wide : " && " = " " ++ "&&" ++ " " := rfl
  rw [String.intercalate_append_of_ne_nil (by simp) secondPresent,
    String.intercalate_append_of_ne_nil firstPresent (by simp), String.intercalate_singleton, wide]
  simp only [String.append_assoc]

/-- Command lines consist of the words of their invocations, with a word between two of these. -/
theorem intercalate_render
    (program : String)
    (commands : List ToolCommand) :
    String.intercalate " && " (commands.map (·.render program)) =
      String.intercalate " " (["&&"].intercalate (commands.map (·.invocation program))) := by
  induction commands with
  | nil =>
      rfl
  | cons command rest inductionHypothesis =>
      cases rest with
      | nil =>
          simp [ToolCommand.render_eq_intercalate]
      | cons next others =>
          have first : command.invocation program ≠ [] := List.cons_ne_nil _ _
          have later := intercalate_invocation_ne_nil program (List.cons_ne_nil next others)
          simp only [List.map_cons] at inductionHypothesis later ⊢
          rw [String.intercalate_cons_cons, inductionHypothesis, List.intercalate_cons_cons,
            intercalate_parted first later, ToolCommand.render_eq_intercalate]

/-- Command lines of words come apart. -/
theorem invocationsIn_intercalate
    {program : String}
    {commands : List ToolCommand}
    (present : commands ≠ [])
    (isWord : IsWord program)
    (areWords : ∀ command ∈ commands, ∀ arg ∈ command.args, IsWord arg) :
    invocationsIn (String.intercalate " && " (commands.map (·.render program))) =
      commands.map (·.invocation program) := by
  have words :
      ∀ invocation ∈ commands.map (·.invocation program), ∀ word ∈ invocation, IsWord word := by
    refine List.forall_mem_map.mpr fun command member => ?_
    exact List.forall_mem_cons.mpr ⟨isWord, areWords command member⟩
  have spaceless :
      ∀ word ∈ ["&&"].intercalate (commands.map (·.invocation program)), ' ' ∉ word.toList := by
    refine forall_mem_intercalate (by decide) ?_
    exact fun invocation member word inside => (words invocation member word inside).1
  rw [invocationsIn, intercalate_render,
    pieces_intercalate rfl (intercalate_invocation_ne_nil program present) spaceless]
  apply List.splitOn_intercalate
  · intro invocation member inside
    exact (words invocation member "&&" inside).2 rfl
  · exact fun none => present (List.map_eq_nil_iff.mp none)

/-! ## The words of a step -/

theorem FeatureSet.isWord_of_mem_args
    {set : FeatureSet}
    (spaceless : ∀ name ∈ set.names, ' ' ∉ name.toList) :
    ∀ arg ∈ set.args, IsWord arg := by
  rcases set.args_cases with ⟨rfl, _⟩ | ⟨_, told⟩
  · exact List.forall_mem_nil _
  · have inside : ∀ c ∈ set.render.toList, ' ' ≠ c := by
      apply FeatureSet.forall_mem_render (p := (' ' ≠ ·)) (by decide)
      rintro name member _ isChar rfl
      exact spaceless name member isChar
    rw [told, List.forall_mem_singleton]
    refine ⟨?_, FeatureSelection.features_ne (by decide) set.render⟩
    rw [String.toList_append, List.mem_append, not_or]
    exact ⟨by decide, fun member => inside ' ' member rfl⟩

/-- The arguments for features are words if no name has a space. -/
theorem FeatureSelection.isWord_of_mem_args
    {features : FeatureSelection}
    (spaceless : ∀ name ∈ features.names, ' ' ∉ name.toList) :
    ∀ arg ∈ features.args, IsWord arg := by
  cases features with
  | default | allFeatures =>
      decide
  | features set =>
      exact FeatureSet.isWord_of_mem_args spaceless
  | noDefault set =>
      exact List.forall_mem_cons.mpr ⟨by decide, FeatureSet.isWord_of_mem_args spaceless⟩

/-- All arguments of a tool are words, if those for its features are. -/
theorem Tool.isWord_of_mem_args
    {features : FeatureSelection}
    (areWords : ∀ arg ∈ features.args, IsWord arg)
    (tool : Tool) :
    ∀ command ∈ tool.commands features, ∀ arg ∈ command.args, IsWord arg := by
  cases tool with
  | test =>
      exact List.forall_mem_singleton.mpr (List.forall_mem_cons.mpr ⟨by decide, areWords⟩)
  | valgrind | miri | docs =>
      exact List.forall_mem_singleton.mpr (List.forall_mem_append.mpr ⟨by decide, areWords⟩)
  | lint =>
      have lints : ∀ arg ∈ "clippy" :: features.args ++ ["--", "--deny", "warnings"], IsWord arg :=
        List.forall_mem_append.mpr ⟨List.forall_mem_cons.mpr ⟨by decide, areWords⟩, by decide⟩
      exact List.forall_mem_cons.mpr ⟨by decide, List.forall_mem_singleton.mpr lints⟩

/-- The command lines of a step tell what it runs. -/
theorem Step.invocationsIn_renderCommands
    {step : Step}
    {program : String}
    (spaceless : ∀ name ∈ step.features.names, ' ' ∉ name.toList)
    (isWord : IsWord program) :
    invocationsIn (step.renderCommands program) = step.commands.map (·.invocation program) :=
  invocationsIn_intercalate step.commands_ne_nil isWord
    (step.tool.isWord_of_mem_args (FeatureSelection.isWord_of_mem_args spaceless))

/-! ## What has been run -/

namespace ProcessRunner

/-- What a step has invoked is what its commands invoke, up to where they were broken off. -/
theorem Accounts.invoked
    {runner : ProcessRunner}
    {step : Step}
    {scene : Scene}
    {waiting? : Option Int32}
    {earlier attempts : List Attempt}
    {status : StepStatus}
    (accounts : runner.Accounts step scene waiting? earlier attempts status)
    (program : String) :
    attempts.map (·.invocation program) <+: step.commands.map (·.invocation program) ∧
      (status = .passed →
        attempts.map (·.invocation program) = step.commands.map (·.invocation program)) := by
  have longer := accounts.arguments.map (program :: ·)
  rw [List.map_map, List.map_map] at longer
  refine ⟨longer, fun passed => longer.eq_of_length ?_⟩
  rw [List.length_map, List.length_map, accounts.whole passed]

/-- What attempts have invoked is told by the record that they belong to. -/
theorem Attributes.tells
    {runner : ProcessRunner}
    {project : Project}
    {plan : Plan}
    {state : ProcessState}
    {host : Host}
    {execution : Execution ProcessState}
    {parts : List (List Attempt)}
    (attributes : runner.Attributes project plan state host execution parts)
    {step : Step}
    (spaceless : ∀ name ∈ step.features.names, ' ' ∉ name.toList)
    (isWord : IsWord runner.program)
    {index : Nat}
    {record : StepRecord}
    {part : List Attempt}
    (isStep : plan.steps[index]? = some step)
    (isRecord : execution.result.records[index]? = some record)
    (isPart : parts[index]? = some part) :
    record.Tells runner.program part := by
  obtain ⟨other, directory, isOther, shape, accounts⟩ :=
    attributes.accounted index record part isRecord isPart
  obtain rfl : step = other := Option.some.inj (isStep.symm.trans isOther)
  have command : record.command = step.renderCommands runner.program := by
    rw [shape]
    rfl
  have invoked := accounts.invoked runner.program
  rw [← Step.invocationsIn_renderCommands spaceless isWord, ← command] at invoked
  exact ⟨invoked.1, invoked.2⟩

end ProcessRunner

/--
Command lines without spaces in the program and in the names of features come
apart into what their step runs.  So do those of the records of a run: what the
runner has invoked for a record begins the invocations in its command lines, and
is all of them if the step has passed.
-/
theorem invocationsIn_renderCommands_executed
    {step : Step}
    {program : String}
    (spaceless : ∀ name ∈ step.features.names, ' ' ∉ name.toList)
    (clean : ' ' ∉ program.toList)
    (apart : program ≠ "&&") :
    invocationsIn (step.renderCommands program) = step.commands.map (·.invocation program) ∧
      ∀ (runner : ProcessRunner) project interruptPolicy plan state host,
        runner.program = program →
          let execution := (runner.pipeline project interruptPolicy).execute plan state host
          ∃ parts,
            runner.Attributes project plan state host execution parts ∧
              ∀ (index : Nat) (record : StepRecord) part,
                plan.steps[index]? = some step →
                  execution.result.records[index]? = some record →
                    parts[index]? = some part → record.Tells program part := by
  have isWord : IsWord program := ⟨clean, apart⟩
  refine ⟨Step.invocationsIn_renderCommands spaceless isWord, ?_⟩
  rintro runner project interruptPolicy plan state host rfl execution
  cases holder : host.held? with
  | some held =>
      have attributes := runner.attributes_of_held project interruptPolicy plan state holder
      exact ⟨[], attributes, fun _ _ _ => attributes.tells spaceless isWord⟩
  | none =>
      obtain ⟨_, parts, unfolds⟩ :=
        runner.exists_unfolds project interruptPolicy plan state holder
      have attributes := unfolds.attributes
      rw [← Pipeline.execute_of_free holder] at attributes
      exact ⟨parts, attributes, fun _ _ _ => attributes.tells spaceless isWord⟩

/-- Features may be named like what stands between arguments or commands.  The lints fail in the
first step and pass in the second. -/
theorem invocationsIn_renderCommands_executed_ampersands :
    let features : FeatureSelection := .features (.ofNames ["--", "&&"])
    let step : Step :=
      ⟨.lintAndFormat, .lint, WorkspaceSet.lexical.primary, features, .recordAndContinue⟩
    let runner : ProcessRunner :=
      { program := "cargo"
        listens := true
        installed := ["cargo"]
        rustflags := none
        rustdocflags := none
        children := fun number => if number = 1 then { ending := 256 } else {} }
    let host : Host := { tree := .empty, here := .root }
    let execution := (runner.pipeline ⟨[]⟩ .abort).execute ⟨[step, step]⟩ {} host
    let line := "cargo fmt -- --check && cargo clippy --features=&&,-- -- --deny warnings"
    step.renderCommands "cargo" = line ∧
      invocationsIn line = [
        ["cargo", "fmt", "--", "--check"],
        ["cargo", "clippy", "--features=&&,--", "--", "--deny", "warnings"]] ∧
      execution.result.records.map (·.command) = [line, line] ∧
      ∃ first second,
        runner.Attributes ⟨[]⟩ ⟨[step, step]⟩ {} host execution [first, second] ∧
          first.map (·.invocation "cargo") <+: invocationsIn line ∧
          second.map (·.invocation "cargo") = invocationsIn line := by
  intro features step runner host execution line
  have spaceless : ∀ name ∈ features.names, ' ' ∉ name.toList := by decide +kernel
  have rendered : step.renderCommands "cargo" = line := by decide +kernel
  obtain ⟨read, executed⟩ :=
    @invocationsIn_renderCommands_executed step "cargo" spaceless (by decide) (by decide)
  obtain ⟨parts, attributes, told⟩ := executed runner ⟨[]⟩ .abort ⟨[step, step]⟩ {} host rfl
  have records :
      execution.result.records = [
        .ofStep 0 step line (.failed (some 1) none) 0,
        .ofStep 1 step line .passed 0] := by
    decide +kernel
  obtain ⟨first, second, rfl⟩ : ∃ first second, parts = [first, second] := by
    apply List.length_eq_two.mp
    rw [attributes.each, records]
    rfl
  have isFirst := told 0 _ first rfl (by rw [records]; rfl) rfl
  have isSecond := told 1 _ second rfl (by rw [records]; rfl) rfl
  refine ⟨rendered, ?_, ?_, first, second, attributes, isFirst.begun, isSecond.whole rfl⟩
  · rw [← rendered, read]
    decide +kernel
  · rw [records]
    rfl

end VerifyPipeline
