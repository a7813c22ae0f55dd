import VerifyPipeline.Proofs.Text.Splitting
import VerifyPipeline.Text.Lines

namespace VerifyPipeline.Text

/-!
# Reading a text

Lines without line feeds can be told apart again when they stand in a text, and so can numerals
between words without digits.
-/

/-! ## Lines -/

/-- No line ends inside the text. -/
def Unbroken (text : String) : Prop := ∀ c ∈ text.toList, c ≠ '\n'

instance (text : String) : Decidable (Unbroken text) :=
  List.decidableBAll (fun c => c ≠ '\n') text.toList

/-- Texts stand on one line together if each of them does. -/
@[simp]
theorem unbroken_append
    {first second : String} :
    Unbroken (first ++ second) ↔ Unbroken first ∧ Unbroken second := by
  simp only [Unbroken, String.toList_append, List.forall_mem_append]

/-- The lines of a text, each of which ends with a line feed. -/
def endedLines (text : String) : List String :=
  (splitAt '\n' text.toList).dropLast.map String.ofList

/-- Lines are read back from the text that is made of them. -/
theorem endedLines_ofLines
    {lines : List String}
    (unbroken : ∀ line ∈ lines, Unbroken line) :
    endedLines (ofLines lines) = lines := by
  induction lines with
  | nil =>
      rfl
  | cons line others inductionHypothesis =>
      obtain ⟨first, later⟩ := List.forall_mem_cons.mp unbroken
      have text :
          (ofLines (line :: others)).toList = line.toList ++ '\n' :: (ofLines others).toList := by
        simp [ofLines]
      have more := splitAt_ne_nil '\n' (ofLines others).toList
      have absent : '\n' ∉ line.toList := fun member => first _ member rfl
      rw [endedLines, text, splitAt_append absent, List.dropLast_cons_of_ne_nil more, List.map_cons,
        String.ofList_toList]
      exact congrArg (line :: ·) (inductionHypothesis later)

/-! ## Pieces -/

/-- A separator divides a text wherever it stands. -/
theorem splitAt_append_cons
    (separator : Char)
    (first second : List Char) :
    splitAt separator (first ++ separator :: second) =
      splitAt separator first ++ splitAt separator second := by
  induction first with
  | nil =>
      simp [splitAt]
  | cons c rest inductionHypothesis =>
      rw [List.cons_append, splitAt, splitAt, inductionHypothesis]
      split
      · rfl
      · obtain ⟨piece, others, pieces⟩ :=
          List.exists_cons_of_ne_nil (splitAt_ne_nil separator rest)
        rw [pieces]
        rfl

/-! ## Numbers -/

/-- The numbers whose numerals stand in a text, when those of one of them have been read. -/
def numbersFrom : Option Nat → List Char → List Nat
  | read?, [] => read?.toList
  | read?, c :: rest =>
    if c.isDigit then numbersFrom (some (10 * read?.getD 0 + (c.toNat - '0'.toNat))) rest
    else read?.toList ++ numbersFrom none rest

/-- The numbers whose numerals stand in a text. -/
def numbers (text : List Char) : List Nat := numbersFrom none text

/-- Words without digits have no numbers in them. -/
theorem numbers_append_of_silent
    {words : List Char}
    (silent : (words.all fun c => !c.isDigit) = true)
    (rest : List Char) :
    numbers (words ++ rest) = numbers rest := by
  induction words with
  | nil =>
      rfl
  | cons c others inductionHypothesis =>
      simp only [List.all_cons, Bool.and_eq_true, Bool.not_eq_true'] at silent
      simp only [numbers, List.cons_append, numbersFrom, silent.1, Bool.false_eq_true, ↓reduceIte,
        Option.toList_none, List.nil_append]
      exact inductionHypothesis silent.2

/-- Digits are read on to the number that has been read so far. -/
theorem numbersFrom_digits
    {digits : List Char}
    (areDigits : ∀ c ∈ digits, c.isDigit = true)
    (read : Nat)
    (rest : List Char) :
    numbersFrom (some read) (digits ++ rest) =
      numbersFrom (some (Nat.ofDigitChars 10 digits read)) rest := by
  induction digits generalizing read with
  | nil =>
      rfl
  | cons c others inductionHypothesis =>
      rw [List.forall_mem_cons] at areDigits
      simp only [List.cons_append, numbersFrom, areDigits.1, ↓reduceIte, Option.getD_some,
        inductionHypothesis areDigits.2]
      rfl

/-- A number is read up to the words behind it.  To have read no digit yet is the same as to have
read a zero. -/
theorem numbers_toDigits_append
    (n : Nat)
    {words : List Char}
    (silent : (words.all fun c => !c.isDigit) = true)
    (present : words ≠ [])
    (rest : List Char) :
    numbers (Nat.toDigits 10 n ++ (words ++ rest)) = n :: numbers rest := by
  have areDigits : ∀ c ∈ Nat.toDigits 10 n, c.isDigit = true :=
    fun _ member => Nat.isDigit_of_mem_toDigits (by decide) (by decide) member
  obtain ⟨first, others, digits⟩ :=
    List.exists_cons_of_ne_nil (List.ne_nil_of_length_pos (@Nat.length_toDigits_pos 10 n))
  have begun :
      numbers (Nat.toDigits 10 n ++ (words ++ rest)) =
        numbersFrom (some 0) (Nat.toDigits 10 n ++ (words ++ rest)) := by
    rw [digits] at areDigits ⊢
    simp [numbers, numbersFrom, areDigits first List.mem_cons_self]
  have behind : numbersFrom (some n) (words ++ rest) = n :: numbers (words ++ rest) := by
    obtain ⟨c, more, rfl⟩ := List.exists_cons_of_ne_nil present
    have stop : c.isDigit = false := by
      simpa using List.all_eq_true.mp silent c List.mem_cons_self
    simp [numbers, numbersFrom, stop]
  rw [begun, numbersFrom_digits areDigits, Nat.ofDigitChars_ten_toDigits, behind,
    numbers_append_of_silent silent]

end VerifyPipeline.Text
