import VerifyPipeline.Proofs.Calendar.Counting
import VerifyPipeline.Proofs.Text.Numerals

namespace VerifyPipeline

/-!
# Moments as texts

Up to the year 9999 the written form of a moment is a row of columns, from the year down to the
milliseconds.  The fields of an earlier moment come first, whatever is carried over between them, so
the texts are sorted when the moments are, and a moment can be read off its text.
-/

namespace Date

/-! ## Dates and days -/

/-- No date lies before itself. -/
theorem Before.irrefl (date : Date) : ¬ date.Before date := by
  unfold Before
  omega

theorem Before.asymm
    {first second : Date}
    (before : first.Before second) :
    ¬ second.Before first :=
  fun after => Before.irrefl first (before.trans after)

/-- The number of days from the beginning of 1970 to a date. -/
def toDays (date : Date) : Nat :=
  let year := if date.month ≤ 2 then date.year - 1 else date.year
  let block := if date.month ≤ 2 then date.month + 9 else date.month - 3
  daysBeforeYear year + beginOfBlock block + (date.day - 1) - daysBefore1970

/-- A number of days is found again from its date: the month tells the block of the year, and
whether the year has changed since March. -/
theorem toDays_ofDays (days : Nat) : (ofDays days).toDays = days := by
  obtain ⟨year, day, falls, date⟩ := exists_falls days
  obtain ⟨block, inBlock⟩ := exists_inBlock falls.within
  have begun := inBlock.begun
  have isBlock := inBlock.isBlock
  have counted := falls.counted
  rw [date, inBlock.ofDayOfYear_eq]
  by_cases early : block < 10
  · have month : monthOfBlock block = block + 3 := if_pos early
    have late : ¬ block + 3 ≤ 2 := by omega
    simp only [toDays, yearOfBlock, month, if_neg late, Nat.add_sub_cancel, Nat.add_zero]
    omega
  · have month : monthOfBlock block = block - 9 := if_neg early
    have january : block - 9 ≤ 2 := by omega
    have whole : block - 9 + 9 = block := Nat.sub_add_cancel (by omega)
    simp only [toDays, yearOfBlock, month, if_pos january, Nat.add_sub_cancel, whole]
    omega

/-- Years do not decrease with the days. -/
theorem year_le_of_le
    {days later : Nat}
    (isLater : days ≤ later) :
    (ofDays days).year ≤ (ofDays later).year := by
  rcases Nat.eq_or_lt_of_le isLater with rfl | less
  · exact Nat.le_refl _
  · rcases before_ofDays less with earlier | ⟨same, _⟩
    · exact Nat.le_of_lt earlier
    · exact Nat.le_of_eq same

end Date

/-- A moment from the beginning of 1970 on, to the millisecond. -/
structure Moment where
  seconds : Nat
  milliseconds : Nat
  short : milliseconds < 1000
  deriving DecidableEq

namespace Moment

def text (moment : Moment) : String :=
  Instant.textOfParts moment.seconds moment.milliseconds

def date (moment : Moment) : Date := .ofDays (moment.seconds / 86400)

/-- One moment lies before another. -/
def Before (first second : Moment) : Prop :=
  first.seconds < second.seconds ∨
    first.seconds = second.seconds ∧ first.milliseconds < second.milliseconds

/-- The moment of a clock reading; a reading from before 1970 is taken for its beginning. -/
def ofInstant (instant : Instant) : Moment where
  seconds := Int.toNat instant / 1000000000
  milliseconds := Int.toNat instant % 1000000000 / 1000000
  short := Nat.div_lt_of_lt_mul (Nat.mod_lt _ (by decide))

/-- The columns of a written moment. -/
def columns : List (Nat × Char) :=
  [(4, '-'), (2, '-'), (2, 'T'), (2, ':'), (2, ':'), (2, '.'), (3, 'Z')]

/-- What stands in the columns of a moment. -/
def fields (moment : Moment) : List Nat :=
  let rest := moment.seconds % 86400
  [moment.date.year, moment.date.month, moment.date.day,
    rest / 3600, rest % 3600 / 60, rest % 60, moment.milliseconds]

/-- The moment with such fields. -/
def ofFields? : List Nat → Option Moment
  | [year, month, day, hour, minute, second, milliseconds] =>
    if short : milliseconds < 1000 then
      some ⟨86400 * Date.toDays ⟨year, month, day⟩ + 3600 * hour + 60 * minute + second,
        milliseconds, short⟩
    else none
  | _ => none

/-- The moment that a text spells. -/
def ofText? (text : String) : Option Moment := ofFields? (Text.fieldsOf columns text.toList)

/-! ## Earlier and later -/

theorem year_le_of_le
    {first second : Moment}
    (ordered : first.seconds ≤ second.seconds) :
    first.date.year ≤ second.date.year :=
  Date.year_le_of_le (Nat.div_le_div_right ordered)

/-- Whole seconds do not decrease with the instants. -/
theorem seconds_le_of_le
    {first second : Instant}
    (ordered : first ≤ second) :
    (ofInstant first).seconds ≤ (ofInstant second).seconds :=
  Nat.div_le_div_right (Int.toNat_le_toNat ordered)

/-- A later instant is not written as an earlier moment. -/
theorem not_before_of_le
    {first second : Instant}
    (ordered : first ≤ second) :
    ¬ (ofInstant second).Before (ofInstant first) := by
  have below : Int.toNat first ≤ Int.toNat second := Int.toNat_le_toNat ordered
  unfold Before ofInstant
  simp only
  generalize Int.toNat first = earlier at *
  generalize Int.toNat second = later at *
  omega

/-- The fields of an earlier moment come first. -/
theorem fields_lt_iff (first second : Moment) :
    first.fields < second.fields ↔ first.Before second := by
  have compared : first.fields < second.fields ↔
      first.date.Before second.date ∨
        first.date = second.date ∧
          (first.seconds % 86400 < second.seconds % 86400 ∨
            first.seconds % 86400 = second.seconds % 86400 ∧
              first.milliseconds < second.milliseconds) := by
    have sameDate :
        first.date = second.date ↔
          first.date.year = second.date.year ∧ first.date.month = second.date.month ∧
            first.date.day = second.date.day := by
      rw [Date.mk.injEq]
    simp only [fields, List.cons_lt_cons_iff, Date.Before, sameDate, List.not_lt_nil, and_false,
      or_false]
    omega
  rw [compared]
  unfold Before
  rcases Nat.lt_trichotomy (first.seconds / 86400) (second.seconds / 86400) with less | same | more
  · have before : first.date.Before second.date := Date.before_ofDays less
    exact iff_of_true (.inl before) (by omega)
  · have sameDate : first.date = second.date := congrArg Date.ofDays same
    rw [sameDate]
    simp only [Date.Before.irrefl, false_or, true_and]
    omega
  · have after : second.date.Before first.date := Date.before_ofDays more
    have apart : first.date ≠ second.date := by
      intro same
      rw [same] at after
      exact Date.Before.irrefl _ after
    exact iff_of_false (by simp [after.asymm, apart]) (by omega)

/-! ## The written form -/

/-- A moment is written as a row of seven numbers.  The row is laid out for any date, so that no
date has to be computed. -/
theorem text_eq (moment : Moment) :
    moment.text = String.ofList (Text.row columns moment.fields) := by
  have laidOut (date : Date) (rest milliseconds : Nat) :
      Text.padded 4 date.year ++ "-" ++ Text.padded 2 date.month ++ "-" ++ Text.padded 2 date.day
          ++ "T" ++ Text.padded 2 (rest / 3600) ++ ":" ++ Text.padded 2 (rest % 3600 / 60) ++ ":"
          ++ Text.padded 2 (rest % 60) ++ "." ++ Text.padded 3 milliseconds ++ "Z" =
        String.ofList (Text.row columns
          [date.year, date.month, date.day, rest / 3600, rest % 3600 / 60, rest % 60,
            milliseconds]) := by
    rw [← String.toList_inj, String.toList_ofList]
    simp [columns, Text.row]
  exact laidOut moment.date _ _

variable {moment : Moment}

theorem valid_date (moment : Moment) : moment.date.Valid := Date.valid_ofDays _

/-- The numbers of a moment fit into their columns as long as the year has four digits. -/
theorem fitIn
    (shortYear : moment.date.year ≤ 9999) :
    Text.FitIn columns moment.fields := by
  have month := moment.valid_date.month
  have day := moment.valid_date.day
  have long : Date.daysOfMonth moment.date.year moment.date.month ≤ 31 := by
    unfold Date.daysOfMonth
    split <;> (try split) <;> decide
  have milliseconds := moment.short
  refine .cons ?_ (.cons ?_ (.cons ?_ (.cons ?_ (.cons ?_ (.cons ?_ (.cons ?_ .nil))))))
  all_goals
    refine ⟨by decide, ?_⟩
    simp only [Nat.reducePow]
    omega

/-- What a text says of a moment: its columns hold a date of the calendar and a time of the day. -/
structure Written (moment : Moment) (text : String) : Prop where
  length : text.toList.length = 24
  inColumns : Text.InColumns columns text.toList
  holds :
    ∃ (date : Date) (hour minute second : Nat),
      Text.fieldsOf columns text.toList =
          [date.year, date.month, date.day, hour, minute, second, moment.milliseconds] ∧
        date.Valid ∧ hour < 24 ∧ minute < 60 ∧ second < 60
  recovered : ofText? text = some moment

/-- A moment is made again from its numbers. -/
theorem ofFields?_fields (moment : Moment) : ofFields? moment.fields = some moment := by
  have counted :
      86400 * (moment.seconds / 86400) + 3600 * (moment.seconds % 86400 / 3600) +
          60 * (moment.seconds % 86400 % 3600 / 60) + moment.seconds % 86400 % 60 =
        moment.seconds := by
    omega
  have whole :
      (⟨moment.date.year, moment.date.month, moment.date.day⟩ : Date) = moment.date := rfl
  have days : moment.date.toDays = moment.seconds / 86400 := Date.toDays_ofDays _
  simp only [fields, ofFields?, whole, days, counted, moment.short, ↓reduceDIte]

/-- The text of a moment in a year of four digits has the shape that every such text has. -/
theorem written_text
    (shortYear : moment.date.year ≤ 9999) :
    moment.Written moment.text := by
  have fit := fitIn shortYear
  rw [text_eq]
  constructor
  · rw [String.toList_ofList, (Text.inColumns_row fit).length_eq]
    rfl
  · rw [String.toList_ofList]
    exact Text.inColumns_row fit
  · rw [String.toList_ofList, Text.fieldsOf_row fit]
    refine ⟨moment.date, _, _, _, rfl, moment.valid_date, ?_, ?_, ?_⟩ <;> omega
  · rw [ofText?, String.toList_ofList, Text.fieldsOf_row fit, ofFields?_fields]

/-- Earlier moments have smaller texts. -/
theorem bytes_text_lt_iff
    {first second : Moment}
    (shortYear : first.date.year ≤ 9999)
    (alsoShort : second.date.year ≤ 9999) :
    Text.bytes first.text < Text.bytes second.text ↔ first.Before second := by
  have plain : ∀ column ∈ columns, column.2.toNat < 128 := by decide
  rw [text_eq, text_eq, Text.bytes_lt_bytes_iff (Text.singleBytes_row plain _)
    (Text.singleBytes_row plain _), Text.row_lt_row_iff (fitIn shortYear) (fitIn alsoShort),
    fields_lt_iff]

end Moment

end VerifyPipeline
