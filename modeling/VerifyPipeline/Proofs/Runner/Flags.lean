import Mathlib.Data.List.Infix
import VerifyPipeline.Proofs.Text.Splitting
import VerifyPipeline.Proofs.Text.Words
import VerifyPipeline.Runner.Process

namespace VerifyPipeline

/-!
# Flags for tools

A tool sees the words of its flags.  The words that are set stay, and the ones that deny warnings
come behind them, unless the text of the flag that denies warnings is found in the flags: it may
occur there within longer words, which deny nothing.  Flags that have gone through this once stay as
they are.
-/

open Text

/-- The words of the flag that denies warnings. -/
def denialWords : List (List Char) := ["-D".toList, "warnings".toList]

/-- Two words that follow each other deny warnings. -/
def DeniesWarnings (flags : String) : Prop := denialWords <:+: words flags.toList

instance (flags : String) : Decidable (DeniesWarnings flags) :=
  inferInstanceAs (Decidable (denialWords <:+: words flags.toList))

/-- The flag that denies warnings is found within two words that follow each other, each of which
may have more characters on its other side. -/
def MentionsDenial (flags : String) : Prop :=
  ∃ before first second after,
    words flags.toList =
      before ++ [first ++ "-D".toList, "warnings".toList ++ second] ++ after

theorem words_denyWarnings : words denyWarnings.toList = denialWords := rfl

/-- The words that are set stay, and the denial comes behind them if its text is not found. -/
theorem words_mergedFlags (flags : String) :
    words (mergedFlags (some flags)).toList =
      words flags.toList ++
        if occursIn denyWarnings.toList flags.toList then [] else denialWords := by
  have trimmed : words (trim flags).toList = words flags.toList := by
    rw [trim, String.toList_ofList, words_trimChars]
  simp only [mergedFlags]
  by_cases found : occursIn denyWarnings.toList flags.toList = true
  · rw [if_pos found, if_pos found, List.append_nil]
  · rw [if_neg found, if_neg found]
    split
    · rename_i blank
      rw [String.isEmpty_iff.mp blank] at trimmed
      rw [← trimmed, words_denyWarnings]
      rfl
    · have joined :
          (trim flags ++ " " ++ denyWarnings).toList =
            (trim flags).toList ++ ' ' :: denyWarnings.toList := by
        simp only [String.toList_append, List.append_assoc]
        rfl
      rw [joined, words_append_cons (by decide), trimmed, words_denyWarnings]

/-- Where the text of the flag is found, its two words end and begin words of the flags. -/
theorem mentionsDenial_of_occursIn
    {flags : String}
    (found : occursIn denyWarnings.toList flags.toList = true) :
    MentionsDenial flags := by
  obtain ⟨before, after, shape⟩ := occursIn_iff_infix.mp found
  have parted :
      flags.toList = (before ++ "-D".toList) ++ ' ' :: ("warnings".toList ++ after) := by
    rw [← shape, List.append_assoc, List.append_assoc]
    rfl
  have letters {word : List Char} (unblank : word.any isBlank = false) :
      ∀ c ∈ word, isBlank c = false :=
    fun c member => Bool.eq_false_iff.mpr (List.any_eq_false.mp unblank c member)
  obtain ⟨others, start, isFirst⟩ :=
    @exists_words_append_letters "-D".toList (by decide) (letters (by decide)) before
  obtain ⟨rest, more, isSecond⟩ :=
    @exists_words_append_of_letters "warnings".toList (by decide) (letters (by decide)) after
  refine ⟨others, start, rest, more, ?_⟩
  rw [parted, words_append_cons (by decide), isFirst, isSecond]
  simp only [List.append_assoc, List.cons_append, List.nil_append]

/-- Flags that deny warnings mention that. -/
theorem DeniesWarnings.mentionsDenial
    {flags : String}
    (denies : DeniesWarnings flags) :
    MentionsDenial flags := by
  obtain ⟨before, after, shape⟩ := denies
  exact ⟨before, [], [], after, shape.symm⟩

/--
The words of the flags for a tool deny warnings exactly if the flags that are
set do so wherever the text of the flag that denies warnings is found in them.
In any case that text is found: one word ends as the flag begins, and the next
one begins as it ends.
-/
theorem deniesWarnings_mergedFlags_iff (inherited : Option String) :
    (DeniesWarnings (mergedFlags inherited) ↔
        ∀ flags ∈ inherited,
          occursIn denyWarnings.toList flags.toList = true → DeniesWarnings flags) ∧
      MentionsDenial (mergedFlags inherited) := by
  cases inherited with
  | none =>
      have denies : DeniesWarnings denyWarnings := List.infix_refl denialWords
      exact ⟨iff_of_true denies nofun, denies.mentionsDenial⟩
  | some flags =>
      have merged := words_mergedFlags flags
      by_cases found : occursIn denyWarnings.toList flags.toList = true
      · have same : mergedFlags (some flags) = flags := by
          simp only [mergedFlags, if_pos found]
        rw [same]
        refine ⟨⟨?_, fun denies => denies flags rfl found⟩, mentionsDenial_of_occursIn found⟩
        rintro denies _ ⟨rfl⟩ _
        exact denies
      · rw [if_neg found] at merged
        have denies : DeniesWarnings (mergedFlags (some flags)) := by
          unfold DeniesWarnings
          rw [merged]
          exact (List.suffix_append _ _).isInfix
        refine ⟨iff_of_true denies ?_, denies.mentionsDenial⟩
        rintro _ ⟨rfl⟩ isFound
        exact absurd isFound found

example : ¬ DeniesWarnings (mergedFlags (some "--cfg=strict-D warnings")) := by
  decide +kernel

/-! ## Flags that are merged again -/

/-- A runner in a program that was started by an attempt finds the flags of the attempt set. -/
def ProcessRunner.within (runner : ProcessRunner) (attempt : Attempt) : ProcessRunner :=
  { runner with
    rustflags := some attempt.rustflags
    rustdocflags := some attempt.rustdocflags }

/-- The flags of two attempts are the same. -/
structure Attempt.SameFlags (first second : Attempt) : Prop where
  rustflags : first.rustflags = second.rustflags
  rustdocflags : first.rustdocflags = second.rustdocflags

/-- Flags that are not set are as good as empty ones. -/
theorem mergedFlags_getD (inherited : Option String) :
    mergedFlags (some (inherited.getD "")) = mergedFlags inherited := by
  cases inherited with
  | none =>
      decide
  | some flags =>
      rfl

/-- Flags that hold the denial are left as they are. -/
theorem mergedFlags_of_infix
    {flags : String}
    (found : denyWarnings.toList <:+: flags.toList) :
    mergedFlags (some flags) = flags := by
  have occurs := occursIn_iff_infix.mpr found
  simp only [mergedFlags, if_pos occurs]

/-- The text of the flag that denies warnings is found in the flags for a tool. -/
theorem infix_mergedFlags (inherited : Option String) :
    denyWarnings.toList <:+: (mergedFlags inherited).toList := by
  cases inherited with
  | none =>
      exact List.infix_refl _
  | some flags =>
      simp only [mergedFlags]
      split
      · rename_i found
        exact occursIn_iff_infix.mp found
      · split
        · exact List.infix_refl _
        · rw [String.toList_append]
          exact (List.suffix_append _ _).isInfix

/-- The denial of warnings is added only once. -/
theorem mergedFlags_mergedFlags (inherited : Option String) :
    mergedFlags (some (mergedFlags inherited)) = mergedFlags inherited :=
  mergedFlags_of_infix (infix_mergedFlags inherited)

/--
The words of the flags that are set are kept in their order, and the two words
that deny warnings follow unless their text is found in the flags already.  It
is found afterwards, so nothing is added to flags that have been merged before:
what a tool sees is the same however many runners stand above it.
-/
theorem words_mergedFlags_once (inherited : Option String) :
    words (mergedFlags inherited).toList =
        words (inherited.getD "").toList ++
          (if denyWarnings.toList <:+: (inherited.getD "").toList then [] else denialWords) ∧
      denyWarnings.toList <:+: (mergedFlags inherited).toList ∧
      mergedFlags (some (mergedFlags inherited)) = mergedFlags inherited ∧
      ∀ (outer inner : ProcessRunner) host place above below started,
        ((inner.within (outer.attempt host above true)).attempt place below started).SameFlags
          (outer.attempt host above true) := by
  refine ⟨?_, infix_mergedFlags inherited, mergedFlags_mergedFlags inherited, ?_⟩
  · have merged := words_mergedFlags (inherited.getD "")
    rw [mergedFlags_getD] at merged
    by_cases found : denyWarnings.toList <:+: (inherited.getD "").toList
    · have occurs := occursIn_iff_infix.mpr found
      rw [if_pos occurs] at merged
      rw [if_pos found]
      exact merged
    · have absent := mt occursIn_iff_infix.mp found
      rw [if_neg absent] at merged
      rw [if_neg found]
      exact merged
  · intro outer inner host place above below started
    exact ⟨mergedFlags_mergedFlags outer.rustflags, mergedFlags_mergedFlags outer.rustdocflags⟩

end VerifyPipeline
