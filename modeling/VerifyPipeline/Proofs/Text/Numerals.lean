import Mathlib.Algebra.Group.Nat.Defs
import Mathlib.Data.List.Forall2
import VerifyPipeline.Text.Numeral

namespace VerifyPipeline.Text

/-!
# Numerals in columns

A padded numeral is read back as its number, and numerals of one width are ordered as texts in the
order of their numbers.  So are rows of them: what is laid out in columns of fixed widths can be cut
apart again, and the row with the smaller fields is the smaller text.
-/

/-! ## Padded numerals -/

/-- The number that digits spell. -/
def numeral (digits : List Char) : Nat := Nat.ofDigitChars 10 digits 0

/-- A number is padded with zeros in front of its digits. -/
theorem toList_padded (width n : Nat) :
    (padded width n).toList =
      List.replicate (width - (Nat.toDigits 10 n).length) '0' ++ Nat.toDigits 10 n := by
  rw [padded, String.toList_ofList]

theorem isDigit_of_mem_padded
    {width n : Nat}
    {c : Char}
    (member : c ∈ (padded width n).toList) :
    c.isDigit = true := by
  rw [toList_padded, List.mem_append] at member
  rcases member with zero | digit
  · rw [List.eq_of_mem_replicate zero]
    rfl
  · exact Nat.isDigit_of_mem_toDigits (by decide) (by decide) digit

/-- A padded number is as wide as its column, if it fits. -/
theorem length_padded
    {width n : Nat}
    (wide : 0 < width)
    (fits : n < 10 ^ width) :
    (padded width n).toList.length = width := by
  have short := (Nat.length_toDigits_le_iff (by decide) wide).mpr fits
  rw [toList_padded, List.length_append, List.length_replicate]
  exact Nat.sub_add_cancel short

/-- The zeros in front do not change the number. -/
theorem numeral_padded (width n : Nat) : numeral (padded width n).toList = n := by
  rw [toList_padded, numeral, Nat.ofDigitChars_append, Nat.ofDigitChars_replicate_zero]
  exact Nat.ofDigitChars_ten_toDigits

/-! ## The order of numerals -/

/-- Behind beginnings of one length, the beginnings come first. -/
theorem append_lt_append_iff
    [LT α]
    {first second : List α}
    (sameLength : first.length = second.length)
    (rest others : List α) :
    first ++ rest < second ++ others ↔ first < second ∨ first = second ∧ rest < others := by
  induction first generalizing second with
  | nil =>
      obtain rfl := List.eq_nil_of_length_eq_zero sameLength.symm
      simp
  | cons a first inductionHypothesis =>
      obtain ⟨b, second, rfl⟩ := List.exists_cons_of_length_eq_add_one sameLength.symm
      have shorter := inductionHypothesis (Nat.succ.inj sameLength)
      simp only [List.cons_append, List.cons_lt_cons_iff, shorter, List.cons.injEq]
      grind

/-- The first digit counts as often as there are numerals of the length behind it. -/
theorem numeral_cons
    (c : Char)
    (digits : List Char) :
    numeral (c :: digits) = 10 ^ digits.length * (c.toNat - '0'.toNat) + numeral digits := by
  rw [numeral, Nat.ofDigitChars_cons, Nat.ofDigitChars_eq_ofDigitChars_zero, Nat.mul_zero,
    Nat.zero_add]
  rfl

theorem toNat_bounds_of_isDigit
    {c : Char}
    (digit : c.isDigit = true) :
    '0'.toNat ≤ c.toNat ∧ c.toNat ≤ '9'.toNat := by
  simp only [Char.isDigit, Bool.and_eq_true, decide_eq_true_eq] at digit
  exact ⟨UInt32.le_iff_toNat_le.mp digit.1, UInt32.le_iff_toNat_le.mp digit.2⟩

/-- A numeral is below the power of ten that its length gives. -/
theorem numeral_lt
    {digits : List Char}
    (areDigits : ∀ c ∈ digits, c.isDigit = true) :
    numeral digits < 10 ^ digits.length := by
  induction digits with
  | nil =>
      exact Nat.one_pos
  | cons c others inductionHypothesis =>
      rw [List.forall_mem_cons] at areDigits
      have small := (toNat_bounds_of_isDigit areDigits.1).2
      have rest := inductionHypothesis areDigits.2
      have front : c.toNat - '0'.toNat ≤ 9 := Nat.sub_le_sub_right small _
      have scaled := Nat.mul_le_mul_left (10 ^ others.length) front
      rw [numeral_cons, List.length_cons, Nat.pow_succ]
      omega

/-- As texts, numerals of one length are ordered by their numbers: the first digits decide, unless
they are the same. -/
theorem lt_iff_numeral_lt
    {first second : List Char}
    (sameLength : first.length = second.length)
    (areDigits : ∀ c ∈ first, c.isDigit = true)
    (alsoDigits : ∀ c ∈ second, c.isDigit = true) :
    first < second ↔ numeral first < numeral second := by
  induction first generalizing second with
  | nil =>
      obtain rfl := List.eq_nil_of_length_eq_zero sameLength.symm
      simp
  | cons c first inductionHypothesis =>
      obtain ⟨d, second, rfl⟩ := List.exists_cons_of_length_eq_add_one sameLength.symm
      rw [List.forall_mem_cons] at areDigits alsoDigits
      have same : first.length = second.length := Nat.succ.inj sameLength
      have later := inductionHypothesis same areDigits.2 alsoDigits.2
      have below := numeral_lt areDigits.2
      have alsoBelow := numeral_lt alsoDigits.2
      have least := (toNat_bounds_of_isDigit areDigits.1).1
      have alsoLeast := (toNat_bounds_of_isDigit alsoDigits.1).1
      rw [List.cons_lt_cons_iff, later, numeral_cons, numeral_cons, ← same]
      rw [← same] at alsoBelow
      generalize 10 ^ first.length = weight at *
      rcases Nat.lt_trichotomy c.toNat d.toNat with smaller | equal | greater
      · have apart : c.toNat - '0'.toNat + 1 ≤ d.toNat - '0'.toNat := by omega
        have scaled := Nat.mul_le_mul_left weight apart
        rw [Nat.mul_add, Nat.mul_one] at scaled
        exact iff_of_true (.inl (Char.lt_def.mpr (UInt32.lt_iff_toNat_lt.mpr smaller))) (by omega)
      · obtain rfl : c = d := Char.toNat_inj.mp equal
        simp
      · have apart : d.toNat - '0'.toNat + 1 ≤ c.toNat - '0'.toNat := by omega
        have scaled := Nat.mul_le_mul_left weight apart
        rw [Nat.mul_add, Nat.mul_one] at scaled
        refine iff_of_false ?_ (by omega)
        rintro (less | ⟨rfl, -⟩)
        · exact absurd (UInt32.lt_iff_toNat_lt.mp (Char.lt_def.mp less)) (Nat.lt_asymm greater)
        · exact Nat.lt_irrefl _ greater

/-- Padded numbers are ordered as texts like as numbers. -/
theorem padded_lt_iff
    {width n m : Nat}
    (wide : 0 < width)
    (fits : n < 10 ^ width)
    (alsoFits : m < 10 ^ width) :
    (padded width n).toList < (padded width m).toList ↔ n < m := by
  have sameLength := (length_padded wide fits).trans (length_padded wide alsoFits).symm
  rw [lt_iff_numeral_lt sameLength (fun _ => isDigit_of_mem_padded)
    fun _ => isDigit_of_mem_padded, numeral_padded, numeral_padded]

/-! ## Rows -/

/-- Numbers below the powers of ten that the widths of columns leave room for. -/
abbrev FitIn (columns : List (Nat × Char)) (fields : List Nat) : Prop :=
  List.Forall₂ (fun column field => 0 < column.1 ∧ field < 10 ^ column.1) columns fields

/-- Fields in columns of fixed widths, each with the mark of its column behind it. -/
def row : List (Nat × Char) → List Nat → List Char
  | (width, mark) :: columns, field :: fields =>
    (padded width field).toList ++ mark :: row columns fields
  | _, _ => []

/-- The numbers in the columns of a text. -/
def fieldsOf : List (Nat × Char) → List Char → List Nat
  | [], _ => []
  | (width, _) :: columns, text =>
    numeral (text.take width) :: fieldsOf columns (text.drop (width + 1))

/-- A text consists of columns: as many digits as each is wide, and its mark. -/
def InColumns : List (Nat × Char) → List Char → Prop
  | [], text => text = []
  | (width, mark) :: columns, text =>
    ∃ digits rest,
      text = digits ++ mark :: rest ∧
        digits.length = width ∧ (∀ c ∈ digits, c.isDigit = true) ∧ InColumns columns rest

variable
  {columns : List (Nat × Char)}
  {fields others : List Nat}

/-- A row is laid out in its columns if its numbers fit. -/
theorem inColumns_row (fit : FitIn columns fields) : InColumns columns (row columns fields) := by
  induction fit with
  | nil =>
      rfl
  | cons fits _ inductionHypothesis =>
      exact ⟨_, _, rfl, length_padded fits.1 fits.2, fun _ => isDigit_of_mem_padded,
        inductionHypothesis⟩

/-- The length of a text in columns. -/
def breadth : List (Nat × Char) → Nat
  | [] => 0
  | (width, _) :: columns => breadth columns + 1 + width

/-- All rows have one length. -/
theorem InColumns.length_eq
    {text : List Char}
    (inColumns : InColumns columns text) :
    text.length = breadth columns := by
  induction columns generalizing text with
  | nil =>
      obtain rfl : text = [] := inColumns
      rfl
  | cons column columns inductionHypothesis =>
      obtain ⟨digits, rest, rfl, wide, _, later⟩ := inColumns
      rw [List.length_append, List.length_cons, inductionHypothesis later, wide, breadth,
        Nat.add_comm]

/-- What is laid out can be cut apart again. -/
theorem fieldsOf_row (fit : FitIn columns fields) :
    fieldsOf columns (row columns fields) = fields := by
  induction fit with
  | nil =>
      rfl
  | cons fits _ inductionHypothesis =>
      have wide := length_padded fits.1 fits.2
      rw [row, fieldsOf, List.take_left' wide, numeral_padded, ← List.drop_drop,
        List.drop_left' wide, List.drop_one, List.tail_cons, inductionHypothesis]

/-- Rows are ordered as texts by their fields. -/
theorem row_lt_row_iff
    (fit : FitIn columns fields)
    (alsoFit : FitIn columns others) :
    row columns fields < row columns others ↔ fields < others := by
  induction fit generalizing others with
  | nil =>
      cases alsoFit
      simp [row]
  | @cons column field _ _ fits _ inductionHypothesis =>
      cases alsoFit with
      | @cons _ other _ _ alsoFits alsoFit =>
          have sameLength :=
            (length_padded fits.1 fits.2).trans (length_padded alsoFits.1 alsoFits.2).symm
          have sameField :
              (padded column.1 field).toList = (padded column.1 other).toList ↔ field = other := by
            constructor
            · intro same
              rw [← numeral_padded column.1 field, same, numeral_padded]
            · rintro rfl
              rfl
          have sameMark : ¬ column.2 < column.2 := Char.lt_irrefl _
          rw [row, row, append_lt_append_iff sameLength, padded_lt_iff fits.1 fits.2 alsoFits.2,
            sameField, List.cons_lt_cons_iff, inductionHypothesis alsoFit, List.cons_lt_cons_iff]
          simp only [sameMark, false_or, true_and]

/-! ## Bytes -/

/-- The bytes that a text is encoded as. -/
def bytes (text : String) : List UInt8 := text.toUTF8.data.toList

/-- Characters that are encoded as single bytes. -/
def SingleBytes (text : List Char) : Prop := ∀ c ∈ text, c.toNat < 128

/-- Characters of single bytes are their bytes. -/
theorem bytes_eq_of_singleBytes
    {text : List Char}
    (single : SingleBytes text) :
    bytes (String.ofList text) = text.map fun c => UInt8.ofNat c.toNat := by
  have encoded : bytes (String.ofList text) = text.flatMap String.utf8EncodeChar := by
    rw [bytes, String.toUTF8, String.toByteArray_ofList, List.utf8Encode,
      List.toList_data_toByteArray]
  rw [encoded]
  clear encoded
  induction text with
  | nil =>
      rfl
  | cons c others inductionHypothesis =>
      rw [SingleBytes, List.forall_mem_cons] at single
      have least : c.val.toNat ≤ 127 := Nat.le_of_lt_succ single.1
      have one : String.utf8EncodeChar c = [UInt8.ofNat c.toNat] := by
        rw [String.utf8EncodeChar]
        exact if_pos least
      rw [List.flatMap_cons, one, inductionHypothesis single.2]
      rfl

/-- Texts of single bytes are ordered by their bytes as they are by their characters. -/
theorem bytes_lt_bytes_iff
    {first second : List Char}
    (single : SingleBytes first)
    (alsoSingle : SingleBytes second) :
    bytes (String.ofList first) < bytes (String.ofList second) ↔ first < second := by
  rw [bytes_eq_of_singleBytes single, bytes_eq_of_singleBytes alsoSingle]
  induction first generalizing second with
  | nil =>
      cases second <;> simp
  | cons c first inductionHypothesis =>
      cases second with
      | nil =>
          simp
      | cons d second =>
          rw [SingleBytes, List.forall_mem_cons] at single alsoSingle
          have later := inductionHypothesis single.2 alsoSingle.2
          have byte {x : Char} (small : x.toNat < 128) : (UInt8.ofNat x.toNat).toNat = x.toNat :=
            UInt8.toNat_ofNat_of_lt' (Nat.lt_trans small (by decide))
          have less : UInt8.ofNat c.toNat < UInt8.ofNat d.toNat ↔ c < d := by
            rw [UInt8.lt_iff_toNat_lt, byte single.1, byte alsoSingle.1, Char.lt_def,
              UInt32.lt_iff_toNat_lt]
            rfl
          have same : UInt8.ofNat c.toNat = UInt8.ofNat d.toNat ↔ c = d := by
            rw [← UInt8.toNat_inj, byte single.1, byte alsoSingle.1, Char.toNat_inj]
          rw [List.map_cons, List.map_cons, List.cons_lt_cons_iff, List.cons_lt_cons_iff, less,
            same, later]

theorem singleBytes_row
    (plain : ∀ column ∈ columns, column.2.toNat < 128)
    (fields : List Nat) :
    SingleBytes (row columns fields) := by
  induction columns generalizing fields with
  | nil =>
      exact List.forall_mem_nil _
  | cons column columns inductionHypothesis =>
      rw [List.forall_mem_cons] at plain
      cases fields with
      | nil =>
          exact List.forall_mem_nil _
      | cons field fields =>
          refine List.forall_mem_append.mpr ⟨fun c member => ?_, ?_⟩
          · have greatest := (toNat_bounds_of_isDigit (isDigit_of_mem_padded member)).2
            exact Nat.lt_of_le_of_lt greatest (by decide)
          · exact List.forall_mem_cons.mpr ⟨plain.1, inductionHypothesis plain.2 fields⟩

end VerifyPipeline.Text
