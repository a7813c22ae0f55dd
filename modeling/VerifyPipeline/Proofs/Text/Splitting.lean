import VerifyPipeline.Text.Search

namespace VerifyPipeline.Text

/-!
# Pieces between separators

No piece of a divided text holds the separator, and pieces without it that are joined with it come
apart again.  Between double colons, the number of pieces tells how often they are found from left
to right.  A text that occurs in another one is found there.
-/

theorem splitAt_ne_nil
    (separator : Char)
    (text : List Char) :
    splitAt separator text ≠ [] := by
  cases text with
  | nil =>
      simp [splitAt]
  | cons c rest =>
      unfold splitAt
      split
      · simp
      · cases splitAt separator rest <;> simp [consHead]

/-- No piece has the separator in it. -/
theorem not_mem_of_mem_splitAt
    {separator : Char}
    {text piece : List Char}
    (member : piece ∈ splitAt separator text) :
    separator ∉ piece := by
  induction text generalizing piece with
  | nil =>
      simp only [splitAt, List.mem_singleton] at member
      simp [member]
  | cons c rest inductionHypothesis =>
      unfold splitAt at member
      split at member
      · rcases List.mem_cons.mp member with rfl | later
        · simp
        · exact inductionHypothesis later
      · rename_i different
        cases pieces : splitAt separator rest with
        | nil =>
            exact absurd pieces (splitAt_ne_nil separator rest)
        | cons first others =>
            rw [pieces] at member inductionHypothesis
            rcases List.mem_cons.mp member with rfl | later
            · have absent := inductionHypothesis List.mem_cons_self
              simp [Ne.symm different, absent]
            · exact inductionHypothesis (List.mem_cons_of_mem first later)

/-- A text without the separator is a single piece. -/
theorem splitAt_of_not_mem
    {separator : Char}
    {piece : List Char}
    (absent : separator ∉ piece) :
    splitAt separator piece = [piece] := by
  induction piece with
  | nil =>
      rfl
  | cons c rest inductionHypothesis =>
      simp only [List.mem_cons, not_or] at absent
      simp only [splitAt, Ne.symm absent.1, ↓reduceIte, inductionHypothesis absent.2, consHead]

/-- The first separator ends the first piece. -/
theorem splitAt_append
    {separator : Char}
    {piece : List Char}
    (absent : separator ∉ piece)
    (rest : List Char) :
    splitAt separator (piece ++ separator :: rest) = piece :: splitAt separator rest := by
  induction piece with
  | nil =>
      simp [splitAt]
  | cons c more inductionHypothesis =>
      simp only [List.mem_cons, not_or] at absent
      simp only [List.cons_append, splitAt, Ne.symm absent.1, ↓reduceIte,
        inductionHypothesis absent.2, consHead]

/-- Two texts that are the same are the same before and behind their first separators. -/
theorem append_cons_inj
    {separator : Char}
    {first second rest others : List Char}
    (absent : separator ∉ first)
    (alsoAbsent : separator ∉ second)
    (same : first ++ separator :: rest = second ++ separator :: others) :
    first = second ∧ rest = others := by
  have pieces := congrArg (splitAt separator) same
  rw [splitAt_append absent, splitAt_append alsoAbsent] at pieces
  obtain rfl := (List.cons.inj pieces).1
  exact ⟨rfl, (List.cons.inj (List.append_cancel_left same)).2⟩

/-- Pieces without the separator that are joined with it come apart again. -/
theorem splitAt_intercalate
    {separator : Char}
    {pieces : List (List Char)}
    (present : pieces ≠ [])
    (clean : ∀ piece ∈ pieces, separator ∉ piece) :
    splitAt separator ([separator].intercalate pieces) = pieces := by
  induction pieces with
  | nil =>
      exact absurd rfl present
  | cons piece others inductionHypothesis =>
      have absent := clean piece List.mem_cons_self
      cases others with
      | nil =>
          simpa using splitAt_of_not_mem absent
      | cons next rest =>
          rw [List.intercalate_cons_cons, List.append_assoc, List.singleton_append,
            splitAt_append absent]
          rw [inductionHypothesis (by simp) fun other member =>
            clean other (List.mem_cons_of_mem piece member)]

/-- The pieces of a text between separators, as texts. -/
def pieces (separator : Char) (text : String) : List String :=
  (splitAt separator text.toList).map String.ofList

/-- Texts without the separator that are joined with it come apart again, empty ones among them. -/
theorem pieces_intercalate
    {joint : String}
    {separator : Char}
    {texts : List String}
    (single : joint.toList = [separator])
    (present : texts ≠ [])
    (clean : ∀ text ∈ texts, separator ∉ text.toList) :
    pieces separator (joint.intercalate texts) = texts := by
  have some : texts.map String.toList ≠ [] := fun none => present (List.map_eq_nil_iff.mp none)
  have apart : splitAt separator (joint.intercalate texts).toList = texts.map String.toList := by
    rw [String.toList_intercalate, single]
    exact splitAt_intercalate some (List.forall_mem_map.mpr clean)
  rw [pieces, apart, List.map_map]
  simp [Function.comp_def]

/-! ## Double colons -/

theorem splitAtDoubleColon_ne_nil (text : List Char) : splitAtDoubleColon text ≠ [] := by
  unfold splitAtDoubleColon
  split
  · simp
  · simp
  · rename_i c rest _
    cases splitAtDoubleColon rest <;> simp [consHead]

/-- A character that begins no double colon belongs to the first piece. -/
theorem length_splitAtDoubleColon_cons
    {c : Char}
    {rest : List Char}
    (apart : ∀ more, c = ':' → rest = ':' :: more → False) :
    (splitAtDoubleColon (c :: rest)).length = (splitAtDoubleColon rest).length := by
  rw [splitAtDoubleColon]
  · obtain ⟨piece, others, pieces⟩ :=
      List.exists_cons_of_ne_nil (splitAtDoubleColon_ne_nil rest)
    rw [pieces]
    rfl
  · exact apart

/-- There is one piece exactly if there is no double colon. -/
theorem length_splitAtDoubleColon_eq_one_iff
    {text : List Char} :
    (splitAtDoubleColon text).length = 1 ↔ ¬ [':', ':'] <:+: text := by
  induction text using splitAtDoubleColon.induct with
  | case1 =>
      simp [splitAtDoubleColon]
  | case2 rest _ =>
      have found : [':', ':'] <:+: ':' :: ':' :: rest := ⟨[], rest, rfl⟩
      have some := List.length_pos_iff.mpr (splitAtDoubleColon_ne_nil rest)
      rw [splitAtDoubleColon, List.length_cons]
      exact ⟨fun one => by omega, fun absent => absurd found absent⟩
  | case3 c rest apart inductionHypothesis =>
      have noPrefix : ¬ [':', ':'] <+: c :: rest := by
        rintro ⟨more, same⟩
        obtain ⟨rfl, rfl⟩ := List.cons.inj same
        exact apart more rfl rfl
      rw [length_splitAtDoubleColon_cons apart, inductionHypothesis, List.infix_cons_iff]
      simp [noPrefix]

/-- A double colon in front of a text without colons divides once more.  Of three colons the first
two make the separator. -/
theorem length_splitAtDoubleColon_append
    (text : List Char)
    {last : List Char}
    (clean : ':' ∉ last) :
    (splitAtDoubleColon (text ++ ':' :: ':' :: last)).length =
      (splitAtDoubleColon text).length + 1 := by
  have whole : (splitAtDoubleColon last).length = 1 :=
    length_splitAtDoubleColon_eq_one_iff.mpr fun found =>
      clean (found.subset List.mem_cons_self)
  induction text using splitAtDoubleColon.induct with
  | case1 =>
      simp [splitAtDoubleColon, whole]
  | case2 rest inductionHypothesis =>
      simp only [List.cons_append, splitAtDoubleColon, List.length_cons, inductionHypothesis]
  | case3 c rest apart inductionHypothesis =>
      rw [length_splitAtDoubleColon_cons apart]
      cases rest with
      | nil =>
          by_cases colon : c = ':'
          · subst colon
            have apart : ∀ more, ':' = ':' → last = ':' :: more → False := by
              rintro more _ rfl
              exact clean List.mem_cons_self
            have left := length_splitAtDoubleColon_cons apart
            have divided :
                splitAtDoubleColon (':' :: ':' :: ':' :: last) =
                  [] :: splitAtDoubleColon (':' :: last) := by
              rw [splitAtDoubleColon]
            rw [List.singleton_append, divided, List.length_cons, left, whole]
            rfl
          · rw [List.cons_append, length_splitAtDoubleColon_cons (fun _ same _ => colon same)]
            exact inductionHypothesis
      | cons d others =>
          rw [List.cons_append, length_splitAtDoubleColon_cons]
          · exact inductionHypothesis
          · intro more isColon same
            rw [List.cons_append] at same
            obtain ⟨rfl, _⟩ := List.cons.inj same
            exact apart others isColon rfl

/-- A text without colons in front of a double colon is a piece of its own. -/
theorem length_splitAtDoubleColon_of_not_mem
    {first : List Char}
    (clean : ':' ∉ first)
    (text : List Char) :
    (splitAtDoubleColon (first ++ ':' :: ':' :: text)).length =
      (splitAtDoubleColon text).length + 1 := by
  induction first with
  | nil =>
      rw [List.nil_append, splitAtDoubleColon, List.length_cons]
  | cons c others inductionHypothesis =>
      rw [List.mem_cons, not_or] at clean
      rw [List.cons_append, length_splitAtDoubleColon_cons (fun _ same _ => clean.1 same.symm)]
      exact inductionHypothesis clean.2

/-! ## Occurrences -/

/-- A pattern occurs in a text if it is an infix of it. -/
theorem occursIn_iff_infix
    {pattern text : List Char} :
    occursIn pattern text = true ↔ pattern <:+: text := by
  induction text with
  | nil =>
      rw [occursIn, List.isEmpty_iff, List.infix_nil]
  | cons c rest inductionHypothesis =>
      rw [occursIn, Bool.or_eq_true, List.isPrefixOf_iff_prefix, inductionHypothesis,
        List.infix_cons_iff]

end VerifyPipeline.Text
