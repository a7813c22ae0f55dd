import Mathlib.Data.List.TakeWhile
import VerifyPipeline.Text.Blank

namespace VerifyPipeline.Text

/-!
# Words between blanks

A blank parts the words before it from those behind it, and all else about words follows: blanks at
the ends of a text do not matter, and what is written right behind a word, or right before it,
becomes a part of that word.
-/

/-- A text without other characters than blanks is trimmed to nothing. -/
theorem trimChars_eq_nil_of_blank
    {text : List Char}
    (blank : ∀ c ∈ text, isBlank c = true) :
    trimChars text = [] := by
  have dropped : text.dropWhile isBlank = [] := List.dropWhile_eq_nil_iff.mpr blank
  rw [trimChars, dropped]
  rfl

/-! ## The first word -/

/-- A blank in front does not change the words. -/
theorem words_cons_of_blank
    {c : Char}
    (blank : isBlank c = true)
    (rest : List Char) :
    words (c :: rest) = words rest := by
  cases rest <;> simp [words, blank]

/-- A character that no other one follows right away is a word. -/
theorem words_cons_of_gap
    {c : Char}
    {rest : List Char}
    (letter : isBlank c = false)
    (gap : ∀ d ∈ rest.head?, isBlank d = true) :
    words (c :: rest) = [c] :: words rest := by
  cases rest with
  | nil =>
      simp [words, letter]
  | cons d more =>
      simp [words, letter, gap d rfl]

/-- A character right before a word is a part of it. -/
theorem exists_words_cons_cons
    {c d : Char}
    (letter : isBlank c = false)
    (next : isBlank d = false)
    (rest : List Char) :
    ∃ word others,
      words (d :: rest) = word :: others ∧ words (c :: d :: rest) = (c :: word) :: others := by
  have present : words (d :: rest) ≠ [] := by
    unfold words
    rw [if_neg (by simp [next])]
    split
    · exact List.cons_ne_nil _ _
    · split
      · exact List.cons_ne_nil _ _
      · split <;> exact List.cons_ne_nil _ _
  obtain ⟨word, others, begun⟩ := List.exists_cons_of_ne_nil present
  refine ⟨word, others, begun, ?_⟩
  rw [words, if_neg (by simp [letter])]
  simp only [next, Bool.false_eq_true, ↓reduceIte, begun]

/-! ## Words of joined texts -/

/-- A blank parts the words before it from the words behind it. -/
theorem words_append_cons
    {c : Char}
    (blank : isBlank c = true)
    (first second : List Char) :
    words (first ++ c :: second) = words first ++ words second := by
  induction first with
  | nil =>
      exact words_cons_of_blank blank second
  | cons a rest inductionHypothesis =>
      rw [List.cons_append]
      cases letter : isBlank a with
      | true =>
          rw [words_cons_of_blank letter, words_cons_of_blank letter, inductionHypothesis]
      | false =>
          cases rest with
          | nil =>
              have alone : words [a] = [[a]] := words_cons_of_gap letter nofun
              have gap : ∀ d ∈ (c :: second).head?, isBlank d = true := by
                rintro d ⟨rfl⟩
                exact blank
              rw [List.nil_append, words_cons_of_gap letter gap, words_cons_of_blank blank, alone]
              rfl
          | cons d more =>
              rw [List.cons_append] at inductionHypothesis ⊢
              cases next : isBlank d with
              | true =>
                  have gap (text : List Char) : ∀ e ∈ (d :: text).head?, isBlank e = true := by
                    rintro e ⟨rfl⟩
                    exact next
                  rw [words_cons_of_gap letter (gap _), words_cons_of_gap letter (gap _),
                    inductionHypothesis]
                  rfl
              | false =>
                  obtain ⟨word, others, begun, joined⟩ :=
                    exists_words_cons_cons letter next (more ++ c :: second)
                  obtain ⟨wordHere, othersHere, begunHere, joinedHere⟩ :=
                    exists_words_cons_cons letter next more
                  rw [begun, begunHere, List.cons_append] at inductionHypothesis
                  obtain ⟨rfl, rfl⟩ := List.cons.inj inductionHypothesis
                  rw [joined, joinedHere]
                  rfl

/-- Blanks have no words. -/
theorem words_of_blank
    {text : List Char}
    (blank : ∀ c ∈ text, isBlank c = true) :
    words text = [] := by
  induction text with
  | nil =>
      rfl
  | cons c rest inductionHypothesis =>
      obtain ⟨first, later⟩ := List.forall_mem_cons.mp blank
      rw [words_cons_of_blank first, inductionHypothesis later]

/-- Blanks behind do not change the words. -/
theorem words_append_of_blank
    {blanks : List Char}
    (blank : ∀ c ∈ blanks, isBlank c = true)
    (text : List Char) :
    words (text ++ blanks) = words text := by
  cases blanks with
  | nil =>
      rw [List.append_nil]
  | cons c rest =>
      obtain ⟨first, later⟩ := List.forall_mem_cons.mp blank
      rw [words_append_cons first, words_of_blank later, List.append_nil]

theorem words_dropWhile (text : List Char) : words (text.dropWhile isBlank) = words text := by
  induction text with
  | nil =>
      rfl
  | cons c rest inductionHypothesis =>
      by_cases blank : isBlank c = true
      · rw [List.dropWhile_cons_of_pos blank, words_cons_of_blank blank, inductionHypothesis]
      · rw [List.dropWhile_cons_of_neg blank]

/-- Trimming the end of a text does not change its words. -/
theorem words_trimEnd (text : List Char) : words (trimEnd text) = words text := by
  have parts : trimEnd text ++ (text.reverse.takeWhile isBlank).reverse = text := by
    rw [trimEnd, ← List.reverse_append, List.takeWhile_append_dropWhile, List.reverse_reverse]
  have blank : ∀ c ∈ (text.reverse.takeWhile isBlank).reverse, isBlank c = true := by
    intro c member
    exact List.mem_takeWhile_imp (List.mem_reverse.mp member)
  calc words (trimEnd text)
    _ = words (trimEnd text ++ (text.reverse.takeWhile isBlank).reverse) :=
        (words_append_of_blank blank _).symm
    _ = words text := by rw [parts]

/-- Blanks at the ends of a text do not matter to its words. -/
theorem words_trimChars (text : List Char) : words (trimChars text) = words text := by
  rw [trimChars, words_trimEnd, words_dropWhile]

/-! ## Parts of words -/

/-- Letters without a blank are a word. -/
theorem words_of_letters
    {letters : List Char}
    (present : letters ≠ [])
    (areLetters : ∀ c ∈ letters, isBlank c = false) :
    words letters = [letters] := by
  induction letters with
  | nil =>
      contradiction
  | cons c more inductionHypothesis =>
      obtain ⟨first, later⟩ := List.forall_mem_cons.mp areLetters
      cases more with
      | nil =>
          exact words_cons_of_gap first nofun
      | cons d more =>
          have behind := inductionHypothesis (List.cons_ne_nil d more) later
          obtain ⟨word, others, begun, joined⟩ :=
            exists_words_cons_cons first (later d List.mem_cons_self) more
          rw [begun] at behind
          obtain ⟨rfl, rfl⟩ := List.cons.inj behind
          exact joined

/-- What is written without blanks at the beginning of a text begins its first word. -/
theorem exists_words_append_of_letters
    {letters : List Char}
    (present : letters ≠ [])
    (areLetters : ∀ c ∈ letters, isBlank c = false)
    (text : List Char) :
    ∃ rest others, words (letters ++ text) = (letters ++ rest) :: others := by
  induction letters with
  | nil =>
      contradiction
  | cons c more inductionHypothesis =>
      obtain ⟨first, later⟩ := List.forall_mem_cons.mp areLetters
      cases more with
      | nil =>
          by_cases gap : ∀ d ∈ text.head?, isBlank d = true
          · exact ⟨[], words text, words_cons_of_gap first gap⟩
          · cases text with
            | nil =>
                exact absurd nofun gap
            | cons d rest =>
                have next : isBlank d = false := by simpa using gap
                obtain ⟨word, others, _, joined⟩ := exists_words_cons_cons first next rest
                exact ⟨word, others, joined⟩
      | cons d more =>
          obtain ⟨rest, others, shape⟩ := inductionHypothesis (List.cons_ne_nil d more) later
          obtain ⟨word, behind, begun, joined⟩ :=
            exists_words_cons_cons first (later d List.mem_cons_self) (more ++ text)
          rw [List.cons_append, begun] at shape
          obtain ⟨rfl, rfl⟩ := List.cons.inj shape
          exact ⟨rest, behind, joined⟩

/-- What is written without blanks at the end of a text ends its last word. -/
theorem exists_words_append_letters
    {letters : List Char}
    (present : letters ≠ [])
    (areLetters : ∀ c ∈ letters, isBlank c = false)
    (text : List Char) :
    ∃ others start, words (text ++ letters) = others ++ [start ++ letters] := by
  induction text with
  | nil =>
      exact ⟨[], [], words_of_letters present areLetters⟩
  | cons c rest inductionHypothesis =>
      obtain ⟨others, start, shape⟩ := inductionHypothesis
      rw [List.cons_append]
      by_cases blank : isBlank c = true
      · exact ⟨others, start, (words_cons_of_blank blank _).trans shape⟩
      · have letter : isBlank c = false := by simpa using blank
        by_cases gap : ∀ d ∈ (rest ++ letters).head?, isBlank d = true
        · refine ⟨[c] :: others, start, ?_⟩
          rw [words_cons_of_gap letter gap, shape]
          rfl
        · cases text : rest ++ letters with
          | nil =>
              rw [text] at gap
              exact absurd nofun gap
          | cons d more =>
              rw [text] at gap shape
              have next : isBlank d = false := by simpa using gap
              obtain ⟨word, behind, begun, joined⟩ := exists_words_cons_cons letter next more
              rw [begun] at shape
              cases others with
              | nil =>
                  obtain ⟨rfl, rfl⟩ := List.cons.inj shape
                  exact ⟨[], c :: start, joined⟩
              | cons other others =>
                  obtain ⟨rfl, rfl⟩ := List.cons.inj shape
                  exact ⟨(c :: word) :: others, start, joined⟩

end VerifyPipeline.Text
