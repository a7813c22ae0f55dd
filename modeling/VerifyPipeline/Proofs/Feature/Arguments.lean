import VerifyPipeline.Plan.Command
import VerifyPipeline.Proofs.Feature.Canonical
import VerifyPipeline.Proofs.Plan.Characters
import VerifyPipeline.Proofs.Text.Splitting

namespace VerifyPipeline

/-!
# Arguments that select features

As long as no name has a comma, a selection can be read off its arguments again.  These leave open
one thing only: whether an empty set was named beside the default features, or no set at all.
-/

open Text

/-- Two selections are the same, except that an empty set may stand beside the default features. -/
def FeatureSelection.AskAlike (first second : FeatureSelection) : Prop :=
  first = second ∨
    (first = .default ∧ second = .features .empty) ∨
    (first = .features .empty ∧ second = .default)

instance (first second : FeatureSelection) : Decidable (first.AskAlike second) :=
  inferInstanceAs (Decidable (_ ∨ _ ∨ _))

/-! ## Sets -/

namespace FeatureSet

variable {set : FeatureSet}

/-- The set that is told by the arguments of a set. -/
def ofArgs : List String → FeatureSet
  | [] => empty
  | arg :: _ => ofNames (pieces ',' (String.ofList (arg.toList.drop "--features=".length)))

/-- One argument names the features of a set, and only if there are some. -/
theorem args_cases (set : FeatureSet) :
    (set = empty ∧ set.args = []) ∨
      (set.names ≠ [] ∧ set.args = ["--features=" ++ set.render]) := by
  rw [args]
  split
  · rename_i absent
    refine .inl ⟨?_, rfl⟩
    apply eq_of_mem_iff
    intro name
    rw [List.isEmpty_iff.mp absent]
    rfl
  · rename_i present
    exact .inr ⟨fun none => present (List.isEmpty_iff.mpr none), rfl⟩

/-- A set is read back from the arguments that it is asked for by, if no name has a comma. -/
theorem ofArgs_args (clean : ∀ name ∈ set.names, ',' ∉ name.toList) : ofArgs set.args = set := by
  rcases set.args_cases with ⟨rfl, _⟩ | ⟨present, told⟩
  · rfl
  · have behind :
        ("--features=" ++ set.render).toList.drop "--features=".length = set.render.toList := by
      rw [String.toList_append]
      exact List.drop_left
    have named : pieces ',' set.render = set.names := pieces_intercalate rfl present clean
    rw [told, ofArgs, behind, String.ofList_toList, named]
    exact ofNames_eq fun _ => Iff.rfl

/-- The names are asked for by one argument, which there is only if there are any. -/
theorem features_mem_args_iff {listed : String} :
    "--features=" ++ listed ∈ set.args ↔ set.names ≠ [] ∧ listed = set.render := by
  rcases set.args_cases with ⟨rfl, _⟩ | ⟨present, told⟩
  · exact iff_of_false List.not_mem_nil fun named => named.1 rfl
  · rw [told, List.mem_singleton, and_iff_right present]
    exact String.append_right_inj _

end FeatureSet

/-! ## Selections -/

namespace FeatureSelection

variable {features first second : FeatureSelection}

/-- The selection that names no empty set beside the default features. -/
def plain : FeatureSelection → FeatureSelection
  | .features set => if set = .empty then .default else .features set
  | features => features

theorem plain_eq_or (features : FeatureSelection) :
    features.plain = features ∨ features = .features .empty ∧ features.plain = .default := by
  cases features with
  | default | allFeatures | noDefault _ =>
      exact .inl rfl
  | features set =>
      by_cases bare : set = .empty
      · exact .inr ⟨congrArg _ bare, if_pos bare⟩
      · exact .inl (if_neg bare)

/-- Selections ask alike exactly if their plain forms are the same. -/
theorem plain_eq_iff : first.plain = second.plain ↔ first.AskAlike second := by
  constructor
  · intro same
    rcases first.plain_eq_or with itself | ⟨bare, default⟩ <;>
      rcases second.plain_eq_or with alsoItself | ⟨alsoBare, alsoDefault⟩
    · exact .inl (itself.symm.trans (same.trans alsoItself))
    · exact .inr (.inl ⟨itself.symm.trans (same.trans alsoDefault), alsoBare⟩)
    · exact .inr (.inr ⟨bare, alsoItself.symm.trans (same.symm.trans default)⟩)
    · exact .inl (bare.trans alsoBare.symm)
  · rintro (rfl | ⟨rfl, rfl⟩ | ⟨rfl, rfl⟩) <;> rfl

/-- The selection that is told by arguments. -/
def ofArgs : List String → FeatureSelection
  | [] => .default
  | first :: rest =>
    if first = "--all-features" then .allFeatures
    else if first = "--no-default-features" then .noDefault (.ofArgs rest)
    else .features (.ofArgs (first :: rest))

/-- The argument that lists names is none of those that begin differently. -/
theorem features_ne
    {other : String}
    (different : other.toList.take 3 ≠ "--f".toList)
    (listed : String) :
    "--features=" ++ listed ≠ other := by
  rintro rfl
  rw [String.toList_append] at different
  exact different rfl

theorem ofArgs_args (clean : ∀ name ∈ features.names, ',' ∉ name.toList) :
    ofArgs features.args = features.plain := by
  cases features with
  | default | allFeatures =>
      rfl
  | features set =>
      have itself := FeatureSet.ofArgs_args clean
      rcases set.args_cases with ⟨rfl, _⟩ | ⟨present, told⟩
      · rfl
      · have named : set ≠ .empty := fun bare => present (congrArg FeatureSet.names bare)
        rw [told] at itself
        rw [args, told, ofArgs, if_neg (features_ne (by decide) _),
          if_neg (features_ne (by decide) _), itself, plain, if_neg named]
  | noDefault set =>
      have itself := FeatureSet.ofArgs_args clean
      rw [args, ofArgs, if_neg (by decide), if_pos rfl, itself]
      rfl

/-- The plain form of a selection has its arguments. -/
theorem args_plain (features : FeatureSelection) : features.plain.args = features.args := by
  rcases features.plain_eq_or with itself | ⟨bare, default⟩
  · rw [itself]
  · rw [default, bare]
    rfl

/-- Selections have the same arguments exactly if they ask alike. -/
theorem args_eq_iff
    (clean : ∀ name ∈ first.names, ',' ∉ name.toList)
    (alsoClean : ∀ name ∈ second.names, ',' ∉ name.toList) :
    first.args = second.args ↔ first.AskAlike second := by
  rw [← plain_eq_iff]
  constructor
  · intro same
    rw [← ofArgs_args clean, same, ofArgs_args alsoClean]
  · intro same
    rw [← first.args_plain, same, second.args_plain]

/-- One argument lists names, and only if there are some: all of them in their order. -/
theorem features_mem_args_iff {listed : String} :
    "--features=" ++ listed ∈ features.args ↔
      features.names ≠ [] ∧ listed = String.intercalate "," features.names := by
  cases features with
  | default =>
      exact iff_of_false List.not_mem_nil fun named => named.1 rfl
  | allFeatures =>
      refine iff_of_false ?_ fun named => named.1 rfl
      intro member
      exact features_ne (by decide) listed (List.mem_singleton.mp member)
  | features set =>
      exact FeatureSet.features_mem_args_iff
  | noDefault set =>
      rw [args, List.mem_cons, or_iff_right (features_ne (by decide) listed)]
      exact FeatureSet.features_mem_args_iff

/-- The names in a selection are in order, each of them once. -/
theorem names_increasing (features : FeatureSelection) : features.names.Pairwise (· < ·) := by
  cases features with
  | default | allFeatures =>
      exact .nil
  | features set | noDefault set =>
      exact set.increasing

end FeatureSelection

/-- Every tool passes on the arguments of its selection. -/
theorem Tool.commands_eq_iff
    (tool : Tool)
    (first second : FeatureSelection) :
    tool.commands first = tool.commands second ↔ first.args = second.args := by
  cases tool <;> simp [Tool.commands]

/--
Selections whose names have no commas are told by the same arguments exactly if
they ask for the same features, and then every tool runs the same commands, and
no tool does otherwise.  The names of a set are told by one argument, between
commas and in increasing order; no argument names any if there are none.
-/
theorem args_eq_iff_askAlike
    {first second : FeatureSelection}
    (clean : ∀ name ∈ first.names, ',' ∉ name.toList)
    (alsoClean : ∀ name ∈ second.names, ',' ∉ name.toList) :
    (first.args = second.args ↔ first.AskAlike second) ∧
      (∀ tool : Tool,
        tool.commands first = tool.commands second ↔ first.AskAlike second) ∧
      ((∃ listed, "--features=" ++ listed ∈ first.args) ↔ first.names ≠ []) ∧
      (∀ listed, "--features=" ++ listed ∈ first.args → pieces ',' listed = first.names) ∧
      first.names.Pairwise (· < ·) := by
  have told := FeatureSelection.args_eq_iff clean alsoClean
  refine ⟨told, ?_, ⟨?_, ?_⟩, ?_, first.names_increasing⟩
  · intro tool
    exact (tool.commands_eq_iff first second).trans told
  · rintro ⟨listed, member⟩
    exact (FeatureSelection.features_mem_args_iff.mp member).1
  · intro present
    exact ⟨_, FeatureSelection.features_mem_args_iff.mpr ⟨present, rfl⟩⟩
  · intro listed member
    obtain ⟨present, rfl⟩ := FeatureSelection.features_mem_args_iff.mp member
    exact pieces_intercalate rfl present clean

/-- The set of the empty name is not the empty set, and the empty name is told among others. -/
theorem args_eq_iff_askAlike_empty_name :
    let lone := FeatureSelection.features (.ofNames [""])
    let more := FeatureSelection.noDefault (.ofNames ["a", ""])
    lone.args ≠ FeatureSelection.default.args ∧
      pieces ',' "" = lone.names ∧
      more.args ≠ lone.args ∧
      pieces ',' ",a" = more.names := by
  intro lone more
  have loneClean : ∀ name ∈ lone.names, ',' ∉ name.toList := by decide +kernel
  have moreClean : ∀ name ∈ more.names, ',' ∉ name.toList := by decide +kernel
  have first := @args_eq_iff_askAlike lone .default loneClean (by decide)
  have second := args_eq_iff_askAlike moreClean loneClean
  have apart : ¬ lone.AskAlike .default := by decide +kernel
  have alsoApart : ¬ more.AskAlike lone := by decide +kernel
  refine ⟨fun same => apart (first.1.mp same), first.2.2.2.1 "" ?_,
    fun same => alsoApart (second.1.mp same), second.2.2.2.1 ",a" ?_⟩
  all_goals decide +kernel

end VerifyPipeline
