import VerifyPipeline.Proofs.Plan.Gating

namespace VerifyPipeline

/-!
# Requests that a plan ignores

Who asks for all combinations of a tool that is skipped gets none of them.  The configuration finds
this in the flags, and the plan is built from other conditions on them, so that the configuration
names exactly the requests that the plan ignores is a fact about both.
-/

/-- A variable is set to a text that is not empty. -/
def IsGiven (lookup : String → Option String) (name : String) : Prop :=
  ∃ text, lookup name = some text ∧ text ≠ ""

/-- The tools that can be run with every combination of a catalog.  The first variable skips the
tool, the second one asks for all combinations. -/
def matrixTools : List (Tool × Inconsistency) := [
  (.valgrind, ⟨"SKIP_VALGRIND", "VALGRIND_EXHAUSTIVE"⟩),
  (.miri, ⟨"SKIP_MIRI", "MIRI_EXHAUSTIVE"⟩)]

/-- The inconsistencies of the configuration that variables give are the requests that a plan
ignores. -/
structure Plan.NamesIgnored (plan : Plan) (lookup : String → Option String) : Prop where
  /-- The variable that asks for all combinations of a tool is named exactly if it is given and the
  plan has none of them. -/
  named :
    ∀ tool issue, (tool, issue) ∈ matrixTools →
      (issue.exhaustiveFlag ∈
          (Config.ofLookup lookup).inconsistencies.map Inconsistency.exhaustiveFlag ↔
        IsGiven lookup issue.exhaustiveFlag ∧ plan.ofKind .memorySafetyMatrix tool = [])
  /-- No other variable is named, none is named twice, and valgrind comes before miri. -/
  ordered : (Config.ofLookup lookup).inconsistencies.Sublist (matrixTools.map Prod.snd)

namespace Config

/-- A variable counts as set if it is given a text that is not empty. -/
theorem isSet_iff
    (lookup : String → Option String)
    (name : String) :
    isSet lookup name = true ↔ IsGiven lookup name := by
  unfold isSet IsGiven
  cases lookup name <;> simp

/-- A configuration is inconsistent about a tool if it asks for its matrix and gets none. -/
theorem mem_inconsistencies_iff
    {config : Config}
    {flag : String}
    {asked enabled : Bool}
    (listed :
      (flag, asked, enabled) ∈ [
        ("VALGRIND_EXHAUSTIVE", config.valgrindExhaustive, config.valgrindMatrix),
        ("MIRI_EXHAUSTIVE", config.miriExhaustive, config.miriMatrix)]) :
    flag ∈ config.inconsistencies.map Inconsistency.exhaustiveFlag ↔
      asked = true ∧ enabled = false := by
  simp only [List.mem_cons, List.not_mem_nil, or_false, Prod.mk.injEq] at listed
  rcases listed with ⟨rfl, rfl, rfl⟩ | ⟨rfl, rfl, rfl⟩
  · unfold inconsistencies valgrindMatrix valgrind
    cases config.skipValgrind <;> cases config.valgrindExhaustive <;> simp
  · unfold inconsistencies miriMatrix miri
    cases config.skipMiri <;> cases config.miriExhaustive <;> simp

theorem sublist_inconsistencies (config : Config) :
    config.inconsistencies.Sublist (matrixTools.map Prod.snd) := by
  have optional (condition : Bool) (issue : Inconsistency) :
      (if condition then [issue] else []).Sublist [issue] := by
    cases condition <;> simp
  exact (optional _ _).append (optional _ _)

end Config

namespace Plan

variable
  {config : Config}
  {catalog : FeatureCatalog}
  {workspaces : WorkspaceSet}

theorem matrixBlock_ne_nil
    (nonempty : catalog.combinations ≠ [])
    (tier : Tier)
    (tool : Tool)
    (workspace : Workspace) :
    matrixBlock tier tool workspace catalog ≠ [] := by
  simpa [matrixBlock] using nonempty

/-- A block with steps is left out exactly if its gate is closed. -/
theorem gated_eq_nil_iff
    {enabled : Bool}
    {block : List Step}
    (nonempty : block ≠ []) :
    gated enabled block = [] ↔ enabled = false := by
  cases enabled <;> simp [gated, nonempty]

/-- The matrix of a tool is missing exactly if the configuration does not enable it. -/
theorem ofKind_matrix_eq_nil_iff
    {tool : Tool}
    {enabled : Bool}
    (listed :
      (tool, enabled) ∈ [
        (Tool.valgrind, config.valgrindMatrix), (.miri, config.miriMatrix)])
    (nonempty : catalog.combinations ≠ []) :
    (build config catalog workspaces).ofKind .memorySafetyMatrix tool = [] ↔
      enabled = false := by
  rw [← gated_eq_nil_iff
    (matrixBlock_ne_nil nonempty .memorySafetyMatrix tool workspaces.primary)]
  simp only [List.mem_cons, List.not_mem_nil, or_false, Prod.mk.injEq] at listed
  rcases listed with ⟨rfl, rfl⟩ | ⟨rfl, rfl⟩ <;> simp [ofKind, select_build]

/-- What a configuration calls inconsistent is what the plan for it ignores. -/
theorem namesIgnored_build
    (lookup : String → Option String)
    (nonempty : catalog.combinations ≠ [])
    (workspaces : WorkspaceSet) :
    (build (.ofLookup lookup) catalog workspaces).NamesIgnored lookup := by
  refine ⟨fun tool issue listed => ?_, Config.sublist_inconsistencies _⟩
  simp only [matrixTools, List.mem_cons, List.not_mem_nil, or_false, Prod.mk.injEq] at listed
  rw [← Config.isSet_iff]
  rcases listed with ⟨rfl, rfl⟩ | ⟨rfl, rfl⟩
  · rw [ofKind_matrix_eq_nil_iff List.mem_cons_self nonempty]
    exact Config.mem_inconsistencies_iff List.mem_cons_self
  · rw [ofKind_matrix_eq_nil_iff (List.mem_cons_of_mem _ List.mem_cons_self) nonempty]
    exact Config.mem_inconsistencies_iff (List.mem_cons_of_mem _ List.mem_cons_self)

end Plan

end VerifyPipeline
