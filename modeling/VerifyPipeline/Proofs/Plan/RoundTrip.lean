import VerifyPipeline.Plan.Fingerprint
import VerifyPipeline.Proofs.Feature.Canonical

namespace VerifyPipeline

/-!
# Plans read back

The text of a plan is read back as the plan, and so is a text in which the arrays of feature names
list the same names in another order or some of them repeatedly.
-/

open Json Json.Decoder

/-! ## Listing names anew -/

namespace Json

mutual

/-- A value is another one, except that arrays of strings under some keys may list their strings in
another order, and some of them repeatedly. -/
inductive Relisted (keys : List String) : Json → Json → Prop where
  | same (value : Json) :
      Relisted keys value value
  | array
      {first second : List Json} :
      RelistedItems keys first second →
      Relisted keys (.array first) (.array second)
  | object
      {first second : List (String × Json)} :
      RelistedMembers keys first second →
      Relisted keys (.object first) (.object second)

/-- Items that are others, with such exceptions. -/
inductive RelistedItems (keys : List String) : List Json → List Json → Prop where
  | nil :
      RelistedItems keys [] []
  | cons
      {first second : Json}
      {firsts seconds : List Json} :
      Relisted keys first second →
      RelistedItems keys firsts seconds →
      RelistedItems keys (first :: firsts) (second :: seconds)

/-- Members that are others, with such exceptions. -/
inductive RelistedMembers (keys : List String) :
    List (String × Json) → List (String × Json) → Prop where
  | nil :
      RelistedMembers keys [] []
  | cons
      {key : String}
      {first second : Json}
      {firsts seconds : List (String × Json)} :
      RelistedValue keys key first second →
      RelistedMembers keys firsts seconds →
      RelistedMembers keys ((key, first) :: firsts) ((key, second) :: seconds)

/-- A value under a key that is another one, with such exceptions. -/
inductive RelistedValue (keys : List String) : String → Json → Json → Prop where
  | value
      {key : String}
      {first second : Json} :
      Relisted keys first second →
      RelistedValue keys key first second
  | names
      {key : String}
      {first second : List String} :
      key ∈ keys →
      (∀ name, name ∈ second ↔ name ∈ first) →
      RelistedValue keys key (.strings first) (.strings second)

end

variable {keys : List String}

/-- Items are relisted as themselves. -/
theorem RelistedItems.refl (items : List Json) : RelistedItems keys items items := by
  induction items with
  | nil =>
      exact .nil
  | cons item _ inductionHypothesis =>
      exact .cons (.same item) inductionHypothesis

/-- Members are relisted as themselves. -/
theorem RelistedMembers.refl (members : List (String × Json)) :
    RelistedMembers keys members members := by
  induction members with
  | nil =>
      exact .nil
  | cons member _ inductionHypothesis =>
      exact .cons (.value (.same member.2)) inductionHypothesis

/-- What holds no other values is left as it is. -/
theorem Relisted.eq_of_flat
    {first second : Json}
    (relisted : Relisted keys first second)
    (flat : first.depth = 0) :
    second = first := by
  cases relisted with
  | same =>
      rfl
  | array | object =>
      simp [depth] at flat

/-- An array is relisted as an array. -/
theorem Relisted.exists_items
    {first : List Json}
    {value : Json}
    (relisted : Relisted keys (.array first) value) :
    ∃ second, value = .array second ∧ RelistedItems keys first second := by
  cases relisted with
  | same =>
      exact ⟨first, rfl, .refl first⟩
  | array items =>
      exact ⟨_, rfl, items⟩

/-- An object is relisted as an object. -/
theorem Relisted.exists_members
    {first : List (String × Json)}
    {value : Json}
    (relisted : Relisted keys (.object first) value) :
    ∃ second, value = .object second ∧ RelistedMembers keys first second := by
  cases relisted with
  | same =>
      exact ⟨first, rfl, .refl first⟩
  | object members =>
      exact ⟨_, rfl, members⟩

/-- A value without levels is relisted as itself alone. -/
theorem RelistedValue.eq_of_flat
    {key : String}
    {first second : Json}
    (relisted : RelistedValue keys key first second)
    (flat : first.depth = 0) :
    second = first := by
  cases relisted with
  | value relisted =>
      exact relisted.eq_of_flat flat
  | names =>
      simp [strings, depth] at flat

/-- Members that hold no other values are left as they are. -/
theorem RelistedMembers.eq_of_flat
    {first second : List (String × Json)}
    (relisted : RelistedMembers keys first second)
    (flat : ∀ member ∈ first, member.2.depth = 0) :
    second = first := by
  induction first generalizing second with
  | nil =>
      cases relisted
      rfl
  | cons member others inductionHypothesis =>
      rw [List.forall_mem_cons] at flat
      cases relisted with
      | cons value rest =>
          rw [value.eq_of_flat flat.1, inductionHypothesis rest flat.2]

/-- An object whose values hold no others is relisted as itself alone. -/
theorem Relisted.eq_of_flat_members
    {members : List (String × Json)}
    {value : Json}
    (relisted : Relisted keys (.object members) value)
    (flat : ∀ member ∈ members, member.2.depth = 0) :
    value = .object members := by
  obtain ⟨others, rfl, inside⟩ := relisted.exists_members
  rw [inside.eq_of_flat flat]

/-- Strings that are not under a key of features are relisted in their order. -/
theorem RelistedItems.eq_of_strings
    {names : List String}
    {items : List Json}
    (relisted : RelistedItems keys (names.map .string) items) :
    items = names.map .string := by
  induction names generalizing items with
  | nil =>
      cases relisted
      rfl
  | cons name others inductionHypothesis =>
      cases relisted with
      | cons first rest =>
          rw [first.eq_of_flat rfl, inductionHypothesis rest]
          rfl

namespace RelistedValue

variable {key : String}

/-- Only arrays of strings are listed anew, and only under the keys. -/
theorem relisted
    {first second : Json}
    (relisted : RelistedValue keys key first second)
    (other : key ∉ keys ∨ ∀ names, first ≠ .strings names) :
    Relisted keys first second := by
  cases relisted with
  | value relisted =>
      exact relisted
  | @names _ first second listed same =>
      rcases other with unlisted | different
      · exact absurd listed unlisted
      · exact absurd rfl (different first)

/-- A list of features is relisted as one with the same names. -/
theorem exists_names
    {names : List String}
    {value : Json}
    (relisted : RelistedValue keys key (.strings names) value) :
    ∃ others, value = .strings others ∧ ∀ name, name ∈ others ↔ name ∈ names := by
  generalize written : strings names = listed at relisted
  cases relisted with
  | value relisted =>
      subst written
      obtain ⟨items, rfl, relistedItems⟩ := relisted.exists_items
      exact ⟨names, congrArg array relistedItems.eq_of_strings, fun _ => Iff.rfl⟩
  | @names _ first second _ same =>
      obtain rfl : names = first := by
        have mapped := Json.array.inj written
        exact List.map_injective_iff.mpr (fun _ _ => Json.string.inj) mapped
      exact ⟨second, rfl, same⟩

end RelistedValue

mutual

/-- Listing names anew does not make a value deeper. -/
theorem Relisted.depth_le
    {first second : Json} :
    Relisted keys first second → second.depth ≤ first.depth
  | .same _ => Nat.le_refl _
  | .array items => by
    have shallow := items.depthItems_le
    simpa [depth] using shallow
  | .object members => by
    have shallow := members.depthMembers_le
    simpa [depth] using shallow

/-- Relisting adds no level, by induction on how the items are relisted. -/
theorem RelistedItems.depthItems_le
    {first second : List Json} :
    RelistedItems keys first second → depthItems second ≤ depthItems first
  | .nil => Nat.le_refl _
  | .cons item others => by
    have shallow := item.depth_le
    have rest := others.depthItems_le
    simp only [depthItems]
    omega

theorem RelistedMembers.depthMembers_le
    {first second : List (String × Json)} :
    RelistedMembers keys first second → depthMembers second ≤ depthMembers first
  | .nil => Nat.le_refl _
  | .cons value others => by
    have shallow := value.depth_le
    have rest := others.depthMembers_le
    simp only [depthMembers]
    omega

theorem RelistedValue.depth_le
    {key : String}
    {first second : Json} :
    RelistedValue keys key first second → second.depth ≤ first.depth
  | .value relisted => relisted.depth_le
  | .names _ _ => Nat.le_of_eq (by rw [depth_strings, depth_strings])

end

end Json

/-! ## Choices -/

theorem Tier.reads (tier : Tier) : Tier.decoder.Reads tier.toJson tier := by
  cases tier <;> exact reads_choice rfl

theorem Tool.reads (tool : Tool) : Tool.decoder.Reads tool.toJson tool := by
  cases tool <;> exact reads_choice rfl

theorem FailurePolicy.reads (policy : FailurePolicy) :
    FailurePolicy.decoder.Reads policy.toJson policy := by
  cases policy <;> exact reads_choice rfl

/-- A tool is written without levels. -/
theorem Tool.depth_toJson (tool : Tool) : tool.toJson.depth = 0 := by
  cases tool <;> rfl

/-! ## Feature selections and workspaces -/

/-- The keys of the arrays of feature names. -/
def Plan.featureKeys : List String := ["features", "lint_features"]

open Plan (featureKeys)

/-- A selection with a set is written with a listing of the set. -/
theorem FeatureSelection.exists_listing
    {kind : String}
    {set : FeatureSet}
    {value : Json}
    (relisted :
      Relisted featureKeys (.object [("kind", .string kind), ("features", set.toJson)]) value) :
    ∃ names,
      value = .object [("kind", .string kind), ("features", .strings names)] ∧
        ∀ name, name ∈ names ↔ name ∈ set.names := by
  obtain ⟨members, rfl, inside⟩ := relisted.exists_members
  obtain _ | ⟨named, _ | ⟨listed, _ | _⟩⟩ := inside
  obtain rfl := named.eq_of_flat rfl
  obtain ⟨names, rfl, same⟩ := listed.exists_names
  exact ⟨names, rfl, same⟩

/-- A selection is read from every relisting of what it is written as. -/
theorem FeatureSelection.reads_relisted
    {features : FeatureSelection}
    {value : Json}
    (relisted : Relisted featureKeys features.toJson value) :
    FeatureSelection.decoder.Reads value features := by
  cases features with
  | default =>
      obtain rfl := relisted.eq_of_flat_members (List.forall_mem_singleton.mpr rfl)
      exact reads_adjacent_nothing rfl
  | features set =>
      obtain ⟨names, rfl, same⟩ := exists_listing relisted
      exact reads_adjacent_content rfl (by decide)
        ((FeatureSet.reads_strings same).map FeatureSelection.features)
  | allFeatures =>
      obtain rfl := relisted.eq_of_flat_members (List.forall_mem_singleton.mpr rfl)
      exact reads_adjacent_nothing rfl
  | noDefault set =>
      obtain ⟨names, rfl, same⟩ := exists_listing relisted
      exact reads_adjacent_content rfl (by decide)
        ((FeatureSet.reads_strings same).map FeatureSelection.noDefault)

/-- A workspace is read from every relisting of what it is written as. -/
theorem Workspace.reads_relisted
    {workspace : Workspace}
    {value : Json}
    (relisted : Relisted featureKeys workspace.toJson value) :
    Workspace.decoder.Reads value workspace := by
  obtain ⟨members, rfl, inside⟩ := relisted.exists_members
  obtain _ | ⟨name, _ | ⟨path, _ | ⟨listed, _ | _⟩⟩⟩ := inside
  obtain rfl := name.eq_of_flat rfl
  obtain rfl := path.eq_of_flat rfl
  obtain ⟨names, rfl, same⟩ := listed.exists_names
  exact reads_record (by decide)
    (.field (reads_string _) <| .field (reads_simple (.string _) rfl rfl) <|
      .field (FeatureSet.reads_strings same) .done)
    rfl

/-! ## Steps and plans -/

/-- A selection is not written as a list of strings, so its own key does not make it one of
features. -/
theorem FeatureSelection.toJson_ne_strings
    (features : FeatureSelection)
    (names : List String) :
    features.toJson ≠ .strings names := by
  cases features <;> exact nofun

/-- A step is read from every relisting of what it is written as. -/
theorem Step.reads_relisted
    {step : Step}
    {value : Json}
    (relisted : Relisted featureKeys step.toJson value) :
    Step.decoder.Reads value step := by
  obtain ⟨members, rfl, inside⟩ := relisted.exists_members
  obtain _ | ⟨tier, _ | ⟨tool, _ | ⟨workspace, _ | ⟨features, _ | ⟨policy, _ | _⟩⟩⟩⟩⟩ := inside
  obtain rfl := tier.eq_of_flat rfl
  obtain rfl := tool.eq_of_flat step.tool.depth_toJson
  obtain rfl := policy.eq_of_flat rfl
  have inWorkspace := workspace.relisted (.inr fun _ => nofun)
  have selected := features.relisted (.inr step.features.toJson_ne_strings)
  exact reads_record (by decide)
    (.field step.tier.reads <| .field step.tool.reads <|
      .field (Workspace.reads_relisted inWorkspace) <|
      .field (FeatureSelection.reads_relisted selected) <| .field step.policy.reads .done)
    rfl

/-- Steps are read from every relisting of what they are written as, one by one. -/
theorem Step.reads_relistedItems
    {steps : List Step}
    {items : List Json}
    (relisted : RelistedItems featureKeys (steps.map Step.toJson) items) :
    List.Forall₂ Step.decoder.Reads items steps := by
  induction steps generalizing items with
  | nil =>
      cases relisted
      exact .nil
  | cons step others inductionHypothesis =>
      cases relisted with
      | cons first rest =>
          exact .cons (reads_relisted first) (inductionHypothesis rest)

/-- A plan is read from every relisting of what it is written as. -/
theorem Plan.reads_relisted
    {plan : Plan}
    {value : Json}
    (relisted : Relisted featureKeys plan.toJson value) :
    Plan.decoder.Reads value plan := by
  obtain ⟨members, rfl, inside⟩ := relisted.exists_members
  obtain _ | ⟨listed, _ | _⟩ := inside
  obtain ⟨items, rfl, relistedItems⟩ := (listed.relisted (.inl (by decide))).exists_items
  exact reads_record (by decide)
    (.field (reads_array (Step.reads_relistedItems relistedItems)) .done) rfl


/-! ## Nesting -/

/-- A selection has two levels at most. -/
theorem FeatureSelection.depth_toJson_le (features : FeatureSelection) :
    features.toJson.depth ≤ 2 := by
  cases features <;> simp [toJson, FeatureSet.toJson, depth, depthMembers, depth_strings]

theorem Step.depth_toJson_le (step : Step) : step.toJson.depth ≤ 3 := by
  have features := step.features.depth_toJson_le
  have workspace : step.workspace.toJson.depth = 2 := by
    simp [Workspace.toJson, FeatureSet.toJson, depth, depthMembers, depth_strings]
  simp only [toJson, Tier.toJson, FailurePolicy.toJson, depth, depthMembers,
    step.tool.depth_toJson, workspace]
  omega

/-- A plan has five levels at most, which is far below what the parser admits. -/
theorem Plan.depth_toJson_le (plan : Plan) : plan.toJson.depth ≤ 5 := by
  have steps : (array (plan.steps.map Step.toJson)).depth ≤ 4 :=
    depth_array_le (List.forall_mem_map.mpr fun step _ => step.depth_toJson_le)
  simp only [toJson, depth, depthMembers] at steps ⊢
  omega

namespace Plan

/-- A plan that was read back runs what the plan runs, under the same names. -/
structure Replays (decoded plan : Plan) : Prop where
  same : decoded = plan
  fingerprint : decoded.fingerprint = plan.fingerprint
  runId : decoded.runId = plan.runId
  ids : decoded.steps.map Step.id = plan.steps.map Step.id
  commands :
    ∀ program,
      decoded.steps.map (Step.renderCommands program) =
        plan.steps.map (Step.renderCommands program)

theorem Replays.refl (plan : Plan) : plan.Replays plan := ⟨rfl, rfl, rfl, rfl, fun _ => rfl⟩

/-- A plan is read from the text of every relisting. -/
theorem ofText_relisted
    {plan : Plan}
    {value : Json}
    (relisted : Relisted featureKeys plan.toJson value) :
    decoder.ofText value.compact.toList = .ok plan := by
  have shallow : value.depth ≤ 5 := Nat.le_trans relisted.depth_le plan.depth_toJson_le
  rw [compact, String.toList_ofList]
  exact (reads_relisted relisted).ofText_write (Nat.lt_of_le_of_lt shallow (by decide)) .compact

/--
The text of a plan is read back as the plan, and so is every text that lists
the features of its steps and workspaces in another order or repeatedly.
-/
theorem ofText_compact (plan : Plan) :
    decoder.ofText plan.toJson.compact.toList = .ok plan ∧
      ∀ value,
        Relisted featureKeys plan.toJson value →
          ∃ decoded,
            decoder.ofText value.compact.toList = .ok decoded ∧ decoded.Replays plan :=
  ⟨ofText_relisted (.same _), fun _ relisted => ⟨plan, ofText_relisted relisted, .refl plan⟩⟩

/-- A plan whose text lists the features of its workspace in another order, and the feature of its
step twice. -/
theorem ofText_compact_relisted :
    let workspace : Workspace := ⟨"core\n\"1\"", "a/b", ⟨["lint", "radix"], by decide⟩⟩
    let features : FeatureSelection := .noDefault ⟨["f16"], by decide⟩
    let plan : Plan := ⟨[⟨.featureMatrix, .lint, workspace, features, .recordAndContinue⟩]⟩
    let value : Json :=
      .object [("steps", .array [.object [
        ("tier", .string "feature_matrix"),
        ("tool", .string "lint_and_format"),
        ("workspace", .object [
          ("name", .string "core\n\"1\""),
          ("path", .string "a/b"),
          ("lint_features", .strings ["radix", "lint"])]),
        ("features", .object [
          ("kind", .string "no_default"),
          ("features", .strings ["f16", "f16"])]),
        ("policy", .string "record_and_continue")]])]
    Relisted featureKeys plan.toJson value ∧
      ∃ decoded, decoder.ofText value.compact.toList = .ok decoded ∧ decoded.Replays plan := by
  intro workspace features plan value
  have lints :
      RelistedValue featureKeys "lint_features" workspace.lintFeatures.toJson
        (.strings ["radix", "lint"]) :=
    .names (by decide) (by simp [workspace, or_comm])
  have selected :
      RelistedValue featureKeys "features" (.strings ["f16"]) (.strings ["f16", "f16"]) :=
    .names (by decide) (by simp)
  have inWorkspace : Relisted featureKeys workspace.toJson _ :=
    .object (.cons (.value (.same _)) (.cons (.value (.same _)) (.cons lints .nil)))
  have ofStep : Relisted featureKeys features.toJson _ :=
    .object (.cons (.value (.same _)) (.cons selected .nil))
  have relisted : Relisted featureKeys plan.toJson value :=
    .object (.cons (.value (.array (.cons
      (.object (.cons (.value (.same _)) (.cons (.value (.same _)) (.cons (.value inWorkspace)
        (.cons (.value ofStep) (.cons (.value (.same _)) .nil)))))) .nil))) .nil)
  exact ⟨relisted, (ofText_compact plan).2 value relisted⟩

end Plan

end VerifyPipeline
