import Mathlib.Data.List.Forall2
import VerifyPipeline.Proofs.Plan.Characters
import VerifyPipeline.Proofs.Text.Bytes
import VerifyPipeline.Proofs.Text.Splitting

namespace VerifyPipeline

/-!
# What a fingerprint tells of a plan

The text under a fingerprint can be taken apart again: it has a line for every step, and each line
has four fields between marks that occur in no field.  The identity of a step is ambiguous on its
own, since names may hold the signs that divide it.  But the tool's name comes first, the feature
arguments can be read off the tool's command lines, the arguments determine the label, and then only
the workspace's name is left.
-/

/-! ## Texts without marks -/

/-- A text that can stand between the marks of a fingerprint's text. -/
def Unmarked (text : List Char) : Prop := ∀ c ∈ text, c ≠ '\x00' ∧ c ≠ '\n'

instance (text : List Char) : Decidable (Unmarked text) :=
  List.decidableBAll (fun c => c ≠ '\x00' ∧ c ≠ '\n') text

theorem Unmarked.noNul
    {text : List Char}
    (unmarked : Unmarked text) :
    '\x00' ∉ text :=
  fun member => (unmarked _ member).1 rfl

theorem Unmarked.noLineEnd
    {text : List Char}
    (unmarked : Unmarked text) :
    '\n' ∉ text :=
  fun member => (unmarked _ member).2 rfl

/-- No mark is a visible character. -/
theorem ofVisible_unmarked : Text.OfVisible fun c => c ≠ '\x00' ∧ c ≠ '\n' := by
  rintro c low _
  constructor <;> rintro rfl <;> exact absurd low (by decide)

/-! ## Steps -/

/-- The arguments can be read off a command line, and they determine the label. -/
theorem Told.inj
    {args others : List String}
    {label name : String}
    (told : Told args label)
    (alsoTold : Told others name)
    (same : spaced args = spaced others) :
    args = others ∧ label = name := by
  cases told <;> cases alsoTold <;> simp_all [spaced, String.toList_inj]

namespace Step

/-- Two steps that a fingerprint does not tell apart: they make the same invocations, and are shown
in the same way. -/
structure Agrees (first second : Step) : Prop where
  tier : first.tier = second.tier
  tool : first.tool = second.tool
  workspace : first.workspace.name = second.workspace.name
  path : first.workspace.path = second.workspace.path
  policy : first.policy = second.policy
  label : first.features.label = second.features.label
  commands : first.commands = second.commands

/-- A step whose names and path hold no marks. -/
structure Clean (step : Step) : Prop where
  workspace : Unmarked step.workspace.name.toList
  path : Unmarked step.workspace.path.toList
  features : ∀ name ∈ step.features.names, Unmarked name.toList

variable
  {step first second : Step}

/-- The id of a clean step has no mark in it. -/
theorem Clean.id
    (clean : step.Clean) :
    Unmarked step.id.toList :=
  step.forall_mem_id ofVisible_unmarked clean.workspace clean.features

/-- The commands of a clean step have no mark in them. -/
theorem Clean.renderCommands
    (clean : step.Clean) :
    Unmarked (step.renderCommands defaultProgram).toList :=
  step.forall_mem_renderCommands ofVisible_unmarked
    (ofVisible_unmarked.forall_mem (by decide)) clean.features

/-! ## Taking the text apart -/

/-- The identity of a step begins with its tier and its tool. -/
theorem id_inj
    (same : first.id = second.id) :
    first.tier = second.tier ∧
      first.tool = second.tool ∧
      first.workspace.name.toList ++ '[' :: (first.features.label.toList ++ [']']) =
        second.workspace.name.toList ++ '[' :: (second.features.label.toList ++ [']']) := by
  have texts := congrArg String.toList same
  simp only [Step.id, String.toList_append, List.append_assoc] at texts
  have noSlash (tier : Tier) : '/' ∉ tier.label.toList := by
    cases tier <;> decide
  have noAt (tool : Tool) : '@' ∉ tool.label.toList := by
    cases tool <;> decide
  obtain ⟨tiers, texts⟩ := Text.append_cons_inj (noSlash _) (noSlash _) texts
  obtain ⟨tools, texts⟩ := Text.append_cons_inj (noAt _) (noAt _) texts
  refine ⟨?_, ?_, texts⟩
  · revert tiers
    cases first.tier <;> cases second.tier <;> decide
  · revert tools
    cases first.tool <;> cases second.tool <;> decide

/-- The text under a fingerprint gives the four parts of each step, with a mark behind each of them.
-/
theorem toList_fingerprintText
    (step : Step) :
    step.fingerprintText.toList =
      step.id.toList ++ '\x00' :: (step.policy.label.toList ++ '\x00' ::
        (step.workspace.path.toList ++ '\x00' ::
          ((step.renderCommands defaultProgram).toList ++ ['\n']))) := by
  simp [fingerprintText]

/-- Steps that agree add the same to the text under a fingerprint. -/
theorem Agrees.fingerprintText_eq
    (agrees : first.Agrees second) :
    first.fingerprintText = second.fingerprintText := by
  simp only [fingerprintText, id, renderCommands, agrees.tier, agrees.tool, agrees.workspace,
    agrees.path, agrees.policy, agrees.label, agrees.commands]

/-- What a step adds to the text under a fingerprint can be told from what comes behind it.  Where
the tool is known, command lines differ in the feature arguments at most. -/
theorem agrees_of_fingerprintText
    (clean : first.Clean)
    (alsoClean : second.Clean)
    {rest others : List Char}
    (same : first.fingerprintText.toList ++ rest = second.fingerprintText.toList ++ others) :
    first.Agrees second ∧ rest = others := by
  simp only [toList_fingerprintText, List.append_assoc, List.cons_append, List.nil_append] at same
  have noNul (policy : FailurePolicy) : '\x00' ∉ policy.label.toList := by
    cases policy <;> decide
  obtain ⟨ids, same⟩ := Text.append_cons_inj clean.id.noNul alsoClean.id.noNul same
  obtain ⟨policies, same⟩ := Text.append_cons_inj (noNul _) (noNul _) same
  obtain ⟨paths, same⟩ := Text.append_cons_inj clean.path.noNul alsoClean.path.noNul same
  obtain ⟨rendered, same⟩ :=
    Text.append_cons_inj clean.renderCommands.noLineEnd alsoClean.renderCommands.noLineEnd same
  obtain ⟨tier, tool, named⟩ := id_inj (String.toList_inj.mp ids)
  rw [toList_renderCommands, toList_renderCommands, tool] at rendered
  have told := List.append_cancel_right (List.append_cancel_left rendered)
  obtain ⟨args, label⟩ := first.features.told.inj second.features.told told
  rw [label] at named
  have workspace := List.append_cancel_right named
  have policy : first.policy = second.policy := by
    revert policies
    cases first.policy <;> cases second.policy <;> decide
  have commands : first.commands = second.commands := by
    rw [Step.commands, Step.commands, tool]
    cases second.tool <;> simp only [Tool.commands, args]
  exact ⟨{
    tier := tier
    tool := tool
    workspace := String.toList_inj.mp workspace
    path := String.toList_inj.mp paths
    policy := policy
    label := label
    commands := commands
  }, same⟩

end Step

/-! ## Plans -/

namespace Plan

/-- The bytes that a fingerprint is the digest of. -/
def digested (plan : Plan) : List UInt8 := plan.fingerprintText.toUTF8.toList

/-- Two plans with the same number of steps, which agree one by one. -/
def SameInvocations (first second : Plan) : Prop :=
  List.Forall₂ Step.Agrees first.steps second.steps

theorem toList_fingerprintText
    (plan : Plan) :
    plan.fingerprintText.toList =
      plan.steps.flatMap fun step => step.fingerprintText.toList := by
  rw [fingerprintText, String.toList_join, List.flatMap_map]

/-- Clean plans with the same text under their fingerprints agree step by step. -/
theorem sameInvocations_of_flatMap
    {first second : List Step}
    (clean : ∀ step ∈ first, step.Clean)
    (alsoClean : ∀ step ∈ second, step.Clean)
    (same :
      (first.flatMap fun step => step.fingerprintText.toList) =
        second.flatMap fun step => step.fingerprintText.toList) :
    List.Forall₂ Step.Agrees first second := by
  induction first generalizing second with
  | nil =>
      cases second with
      | nil =>
          exact .nil
      | cons step rest =>
          simp [Step.toList_fingerprintText] at same
  | cons step rest inductionHypothesis =>
      cases second with
      | nil =>
          simp [Step.toList_fingerprintText] at same
      | cons other others =>
          rw [List.forall_mem_cons] at clean alsoClean
          rw [List.flatMap_cons, List.flatMap_cons] at same
          obtain ⟨agrees, later⟩ := Step.agrees_of_fingerprintText clean.1 alsoClean.1 same
          exact .cons agrees (inductionHypothesis clean.2 alsoClean.2 later)

/-- Steps that agree add the same to the text. -/
theorem fingerprintText_eq_of_sameInvocations
    {first second : List Step}
    (agree : List.Forall₂ Step.Agrees first second) :
    first.map Step.fingerprintText = second.map Step.fingerprintText := by
  induction agree with
  | nil =>
      rfl
  | cons agrees _ inductionHypothesis =>
      rw [List.map_cons, List.map_cons, agrees.fingerprintText_eq, inductionHypothesis]

/--
The bytes under the fingerprints of two plans are the same exactly if the plans
make the same invocations in the same order.  So are the fingerprints, unless
the two texts are a collision of the digest.
-/
theorem digested_eq_iff
    {first second : Plan}
    (clean : ∀ step ∈ first.steps, step.Clean)
    (alsoClean : ∀ step ∈ second.steps, step.Clean) :
    (first.digested = second.digested ↔ first.SameInvocations second) ∧
      ((Sha256.hexDigest first.digested = Sha256.hexDigest second.digested →
          first.digested = second.digested) →
        (first.fingerprint = second.fingerprint ↔ first.SameInvocations second)) := by
  have faithful : first.digested = second.digested ↔ first.SameInvocations second := by
    rw [digested, digested, toList_toUTF8_inj]
    constructor
    · intro same
      have texts := congrArg String.toList same
      rw [toList_fingerprintText, toList_fingerprintText] at texts
      exact sameInvocations_of_flatMap clean alsoClean texts
    · intro agree
      rw [fingerprintText, fingerprintText, fingerprintText_eq_of_sameInvocations agree]
  refine ⟨faithful, fun apart => ?_⟩
  rw [← faithful]
  exact ⟨apart, congrArg Sha256.hexDigest⟩

/-- The theorem at two plans whose only steps have the same identity. -/
theorem digested_eq_iff_brackets :
    let plan (name feature : String) : Plan :=
      ⟨[⟨.featureMatrix, .test, ⟨name, ".", .empty⟩, .features (.ofNames [feature]),
        .recordAndContinue⟩]⟩
    let first := plan "a[b" "c"
    let second := plan "a" "b[c"
    (∀ step ∈ first.steps, step.Clean) ∧
      (∀ step ∈ second.steps, step.Clean) ∧
      first.steps.map Step.id = second.steps.map Step.id ∧
      first.digested ≠ second.digested := by
  intro plan first second
  have clean : ∀ step ∈ first.steps, step.Clean := by
    rintro step (_ | ⟨_, ⟨⟩⟩)
    exact ⟨by decide, by decide, by decide +kernel⟩
  have alsoClean : ∀ step ∈ second.steps, step.Clean := by
    rintro step (_ | ⟨_, ⟨⟩⟩)
    exact ⟨by decide, by decide, by decide +kernel⟩
  refine ⟨clean, alsoClean, by decide +kernel, fun same => ?_⟩
  cases (digested_eq_iff clean alsoClean).1.mp same with
  | cons agrees _ =>
      exact absurd agrees.workspace (by decide)

end Plan

end VerifyPipeline
