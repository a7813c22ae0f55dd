import Mathlib.Logic.Function.Iterate
import Mathlib.Tactic.IntervalCases
import VerifyPipeline.Calendar

namespace VerifyPipeline.Date

/-!
# Counting days

The dates of the Gregorian calendar follow each other day by day, and the date of a number of days
is the one that is reached by counting them.  The computation counts years from March on, which are
a day longer if the next calendar year is a leap year, and months by blocks within such a year.  So
a day is first found in its year, then in its block, and the next day is found from there.
-/

/-! ## The calendar -/

/-- Every fourth year is a leap year, but of the full centuries only every fourth one. -/
def IsLeapYear (year : Nat) : Prop := (4 ∣ year ∧ ¬ 100 ∣ year) ∨ 400 ∣ year

instance (year : Nat) : Decidable (IsLeapYear year) :=
  inferInstanceAs (Decidable ((4 ∣ year ∧ ¬ 100 ∣ year) ∨ 400 ∣ year))

/-- The number of days of a month. -/
def daysOfMonth (year : Nat) : Nat → Nat
  | 2 => if IsLeapYear year then 29 else 28
  | 4 | 6 | 9 | 11 => 30
  | _ => 31

/-- There is such a month, and it has such a day. -/
structure Valid (date : Date) : Prop where
  month : 1 ≤ date.month ∧ date.month ≤ 12
  day : 1 ≤ date.day ∧ date.day ≤ daysOfMonth date.year date.month

/-- The date of the next day. -/
def next (date : Date) : Date :=
  if date.day < daysOfMonth date.year date.month then { date with day := date.day + 1 }
  else if date.month < 12 then ⟨date.year, date.month + 1, 1⟩
  else ⟨date.year + 1, 1, 1⟩

/-- One date lies before another. -/
def Before (first second : Date) : Prop :=
  first.year < second.year ∨
    first.year = second.year ∧
      (first.month < second.month ∨ first.month = second.month ∧ first.day < second.day)

/-- The first day of 1970. -/
def epoch : Date := ⟨1970, 1, 1⟩

theorem Before.trans
    {first second third : Date}
    (before : first.Before second)
    (after : second.Before third) :
    first.Before third := by
  unfold Before at *
  omega

/-- The next day of the calendar comes later. -/
theorem Valid.before_next
    {date : Date}
    (valid : date.Valid) :
    date.Before date.next := by
  have december := valid.month.2
  unfold next Before
  split
  · exact .inr ⟨rfl, .inr ⟨rfl, Nat.lt_succ_self _⟩⟩
  · split
    · exact .inr ⟨rfl, .inl (Nat.lt_succ_self _)⟩
    · exact .inl (Nat.lt_succ_self _)

/-! ## Years from March on -/

/-- The number of days of the year from March on. -/
def lengthOfYear (year : Nat) : Nat := if IsLeapYear (year + 1) then 366 else 365

/-- The number of days before the first of March of a year, from that of the year zero on. -/
def daysBeforeYear (year : Nat) : Nat := 365 * year + year / 4 - year / 100 + year / 400

/-- A year has 365 or 366 days. -/
theorem lengthOfYear_bounds (year : Nat) : 365 ≤ lengthOfYear year ∧ lengthOfYear year ≤ 366 := by
  unfold lengthOfYear
  split <;> decide

/-- The days before the next year are those before this one and its own. -/
theorem daysBeforeYear_succ (year : Nat) :
    daysBeforeYear (year + 1) = daysBeforeYear year + lengthOfYear year := by
  have fewer : year / 100 ≤ year / 4 := Nat.div_le_div_left (by decide) (by decide)
  unfold daysBeforeYear lengthOfYear
  rw [Nat.succ_div, Nat.succ_div, Nat.succ_div]
  by_cases isFourth : 4 ∣ year + 1
  · by_cases isCentury : 100 ∣ year + 1
    · by_cases isEra : 400 ∣ year + 1
      · rw [if_pos isFourth, if_pos isCentury, if_pos isEra, if_pos (.inr isEra)]
        omega
      · have common : ¬ IsLeapYear (year + 1) := by simp [IsLeapYear, isCentury, isEra]
        rw [if_pos isFourth, if_pos isCentury, if_neg isEra, if_neg common]
        omega
    · have noEra : ¬ 400 ∣ year + 1 := fun isEra => isCentury (Nat.dvd_trans (by decide) isEra)
      rw [if_pos isFourth, if_neg isCentury, if_neg noEra, if_pos (.inl ⟨isFourth, isCentury⟩)]
      omega
  · have noCentury : ¬ 100 ∣ year + 1 := fun isCentury =>
      isFourth (Nat.dvd_trans (by decide) isCentury)
    have noEra : ¬ 400 ∣ year + 1 := fun isEra => isFourth (Nat.dvd_trans (by decide) isEra)
    have common : ¬ IsLeapYear (year + 1) := by simp [IsLeapYear, isFourth, noEra]
    rw [if_neg isFourth, if_neg noCentury, if_neg noEra, if_neg common]
    omega

/-- A year is over when a later one begins. -/
theorem daysBeforeYear_lt
    {year later : Nat}
    (isLater : year < later) :
    daysBeforeYear year + lengthOfYear year ≤ daysBeforeYear later := by
  induction isLater with
  | refl =>
      exact (daysBeforeYear_succ year).ge
  | step _ inductionHypothesis =>
      rw [daysBeforeYear_succ]
      omega

/-- A day, counted from the first of March of the year zero, lies in a year that begins in March. -/
structure Falls (count year day : Nat) : Prop where
  counted : count = daysBeforeYear year + day
  within : day < lengthOfYear year

namespace Falls

variable {count year day : Nat}

/-- Within a year the day after falls on the next day of the year. -/
theorem succ
    (falls : Falls count year day)
    (within : day + 1 < lengthOfYear year) :
    Falls (count + 1) year (day + 1) where
  counted := by
    rw [falls.counted, Nat.add_assoc]
  within := within

/-- After the last day of a year the next one begins. -/
theorem succ_of_last
    (falls : Falls count year day)
    (last : day + 1 = lengthOfYear year) :
    Falls (count + 1) (year + 1) 0 where
  counted := by
    have counted := falls.counted
    rw [daysBeforeYear_succ]
    omega
  within := Nat.lt_of_lt_of_le (by decide) (lengthOfYear_bounds _).1

/-- A day lies in one year only. -/
theorem unique
    {otherYear otherDay : Nat}
    (falls : Falls count year day)
    (otherwise : Falls count otherYear otherDay) :
    otherYear = year ∧ otherDay = day := by
  obtain ⟨counted, within⟩ := falls
  obtain ⟨otherCounted, otherWithin⟩ := otherwise
  rcases Nat.lt_trichotomy year otherYear with earlier | rfl | later
  · have apart := daysBeforeYear_lt earlier
    omega
  · exact ⟨rfl, by omega⟩
  · have apart := daysBeforeYear_lt later
    omega

end Falls

/-! ## Blocks of days -/

/-- The first day of a month, whose number is counted from March on. -/
def beginOfBlock (block : Nat) : Nat := (153 * block + 2) / 5

/-- The month of a block. -/
def monthOfBlock (block : Nat) : Nat := if block < 10 then block + 3 else block - 9

/-- The calendar year of a block. -/
def yearOfBlock (year block : Nat) : Nat := year + if monthOfBlock block ≤ 2 then 1 else 0

/-- The end of a block; the last one ends with its year. -/
def endOfBlock (year block : Nat) : Nat :=
  if block = 11 then lengthOfYear year else beginOfBlock (block + 1)

/-- The date of a day of a year that begins in March. -/
def ofDayOfYear (year day : Nat) : Date :=
  let block := (5 * day + 2) / 153
  ⟨yearOfBlock year block, monthOfBlock block, day - beginOfBlock block + 1⟩

/-- A day lies in a block of a year that begins in March. -/
structure InBlock (year block day : Nat) : Prop where
  isBlock : block < 12
  begun : beginOfBlock block ≤ day
  within : day < endOfBlock year block

theorem beginOfBlock_lt_succ (block : Nat) : beginOfBlock block < beginOfBlock (block + 1) := by
  unfold beginOfBlock
  omega

/-- The block of a day is the one that it falls into. -/
theorem div_eq_block_iff
    {day block : Nat} :
    (5 * day + 2) / 153 = block ↔ beginOfBlock block ≤ day ∧ day < beginOfBlock (block + 1) := by
  unfold beginOfBlock
  omega

/-- A block is as long as its month. -/
theorem daysOfMonth_block
    {block : Nat}
    (isBlock : block < 12)
    (year : Nat) :
    daysOfMonth (yearOfBlock year block) (monthOfBlock block) =
      endOfBlock year block - beginOfBlock block := by
  by_cases last : block = 11
  · subst last
    have isMonth : monthOfBlock 11 = 2 := rfl
    have isYear : yearOfBlock year 11 = year + 1 := rfl
    have begun : beginOfBlock 11 = 337 := rfl
    rw [isMonth, isYear, begun, endOfBlock, if_pos rfl, lengthOfYear, daysOfMonth]
    split <;> rfl
  · have early : block < 11 := by omega
    rw [endOfBlock, if_neg last]
    interval_cases block <;> rfl

/-- The first day of the next month. -/
theorem first_of_next
    {block : Nat}
    (early : block < 11)
    (year : Nat) :
    (if monthOfBlock block < 12 then ⟨yearOfBlock year block, monthOfBlock block + 1, 1⟩
      else ⟨yearOfBlock year block + 1, 1, 1⟩ : Date) =
        ⟨yearOfBlock year (block + 1), monthOfBlock (block + 1), 1⟩ := by
  interval_cases block <;> rfl

/-- Every day of a year falls into a block. -/
theorem exists_inBlock
    {year day : Nat}
    (within : day < lengthOfYear year) :
    ∃ block, InBlock year block day := by
  obtain ⟨begun, ends⟩ := div_eq_block_iff.mp (rfl : (5 * day + 2) / 153 = (5 * day + 2) / 153)
  have short := (lengthOfYear_bounds year).2
  refine ⟨(5 * day + 2) / 153, by omega, begun, ?_⟩
  unfold endOfBlock
  split
  · exact within
  · exact ends

namespace InBlock

variable {year block day : Nat}

/-- The date of a day of the year tells its block and its place in that. -/
theorem ofDayOfYear_eq
    (inBlock : InBlock year block day) :
    ofDayOfYear year day =
      ⟨yearOfBlock year block, monthOfBlock block, day - beginOfBlock block + 1⟩ := by
  obtain ⟨isBlock, begun, within⟩ := inBlock
  have ends : day < beginOfBlock (block + 1) := by
    unfold endOfBlock at within
    split at within
    · rename_i last
      have short := (lengthOfYear_bounds year).2
      have final : beginOfBlock (11 + 1) = 367 := rfl
      rw [last, final]
      omega
    · exact within
  rw [ofDayOfYear, div_eq_block_iff.mpr ⟨begun, ends⟩]

/-- A day of a year is a date of the calendar. -/
theorem valid
    (inBlock : InBlock year block day) :
    (ofDayOfYear year day).Valid := by
  rw [inBlock.ofDayOfYear_eq]
  obtain ⟨isBlock, begun, within⟩ := inBlock
  constructor
  · simp only [monthOfBlock]
    split <;> omega
  · simp only [daysOfMonth_block isBlock]
    omega

/-- The next day of a year has the next date. -/
theorem next_eq
    (inBlock : InBlock year block day)
    (within : day + 1 < lengthOfYear year) :
    (ofDayOfYear year day).next = ofDayOfYear year (day + 1) := by
  have length := daysOfMonth_block inBlock.isBlock year
  have begun := inBlock.begun
  have ends := inBlock.within
  rw [inBlock.ofDayOfYear_eq, next]
  simp only [length]
  by_cases same : day + 1 < endOfBlock year block
  · have inside : InBlock year block (day + 1) := ⟨inBlock.isBlock, by omega, same⟩
    rw [if_pos (by omega), inside.ofDayOfYear_eq]
    congr 1
    omega
  · have early : block < 11 := by
      have isBlock := inBlock.isBlock
      have ended : block ≠ 11 := by
        rintro rfl
        exact same within
      omega
    have ended : endOfBlock year block = beginOfBlock (block + 1) := if_neg (Nat.ne_of_lt early)
    have after : InBlock year (block + 1) (day + 1) := {
      isBlock := by omega
      begun := by omega
      within := by
        have later := beginOfBlock_lt_succ (block + 1)
        unfold endOfBlock
        split <;> omega
    }
    rw [if_neg (by omega), first_of_next early, after.ofDayOfYear_eq]
    congr 1
    omega

end InBlock

/-- After the last day of a year comes the first of March. -/
theorem next_of_last
    {year day : Nat}
    (last : day + 1 = lengthOfYear year) :
    (ofDayOfYear year day).next = ofDayOfYear (year + 1) 0 := by
  have long := (lengthOfYear_bounds year).1
  have begun : beginOfBlock 11 = 337 := rfl
  have ends : endOfBlock year 11 = lengthOfYear year := rfl
  have inBlock : InBlock year 11 day := ⟨by decide, by omega, by omega⟩
  have length := daysOfMonth_block inBlock.isBlock year
  rw [inBlock.ofDayOfYear_eq, next]
  simp only [length]
  rw [if_neg (by omega), if_pos (by decide)]
  rfl

/-! ## The computation -/

/-- The year of a day within four hundred years. -/
def yearOfEra (day : Nat) : Nat := (day - day / 1460 + day / 36524 - day / 146096) / 365

/-- A day of four hundred years, counted by centuries, groups of four years, years and days.  The
last day is a leap day, if there is one. -/
structure Parted (count centuries fours years days : Nat) : Prop where
  fewCenturies : centuries ≤ 3
  fewFours : fours ≤ 24
  fewYears : years ≤ 3
  fewDays : days ≤ 365
  leap : days = 365 → years = 3 ∧ (fours = 24 → centuries = 3)
  counted : count = 36524 * centuries + 1461 * fours + 365 * years + days

/-- A day of an era falls into a century, a period of four years and a year. -/
theorem exists_parted
    {count : Nat}
    (within : count < daysOfEra) :
    ∃ centuries fours years days, Parted count centuries fours years days := by
  unfold daysOfEra at within
  obtain ⟨centuries, isCenturies⟩ : ∃ centuries, centuries = min (count / 36524) 3 := ⟨_, rfl⟩
  obtain ⟨fours, isFours⟩ : ∃ fours, fours = (count - 36524 * centuries) / 1461 := ⟨_, rfl⟩
  obtain ⟨years, isYears⟩ :
      ∃ years, years = min ((count - 36524 * centuries - 1461 * fours) / 365) 3 :=
    ⟨_, rfl⟩
  refine ⟨centuries, fours, years, count - 36524 * centuries - 1461 * fours - 365 * years, ?_⟩
  constructor <;> omega

namespace Parted

variable {count centuries fours years days : Nat}

/-- Only the last day of all makes up a century too many. -/
theorem div_century
    (parted : Parted count centuries fours years days) :
    count / 36524 = centuries + count / 146096 := by
  obtain ⟨few, fewFours, fewYears, fewDays, leap, counted⟩ := parted
  have within : 1461 * fours + 365 * years + days ≤ 36524 := by omega
  by_cases last : 1461 * fours + 365 * years + days = 36524
  · have third : centuries = 3 := by omega
    have isLast : count = 146096 := by omega
    rw [isLast, third]
  · have century : count / 36524 = centuries := by omega
    have early : count / 146096 = 0 := Nat.div_eq_of_lt (by omega)
    rw [century, early, Nat.add_zero]

/-- The groups of 1460 days gather the days that they are too short. -/
theorem exists_div_group
    (parted : Parted count centuries fours years days) :
    ∃ surplus,
      count / 1460 = 25 * centuries + fours + surplus ∧
        surplus ≤ days ∧
        days ≤ surplus + 364 := by
  obtain ⟨few, fewFours, fewYears, fewDays, leap, counted⟩ := parted
  obtain ⟨rest, gathered⟩ : ∃ rest, rest = 24 * centuries + fours + 365 * years + days := ⟨_, rfl⟩
  have grouped : count = 1460 * (25 * centuries + fours) + rest := by omega
  refine ⟨rest / 1460, ?_, ?_⟩
  · rw [grouped, Nat.mul_add_div (by decide)]
  · by_cases full : 1460 ≤ rest
    · have one : rest / 1460 = 1 := by omega
      omega
    · have none : rest / 1460 = 0 := Nat.div_eq_of_lt (by omega)
      omega

/-- The year of the era is the one that the day falls into. -/
theorem yearOfEra_eq
    (parted : Parted count centuries fours years days) :
    yearOfEra count = 100 * centuries + 4 * fours + years := by
  obtain ⟨surplus, groups, corrected⟩ := parted.exists_div_group
  unfold yearOfEra
  rw [groups, parted.div_century]
  generalize count / 146096 = last
  have counted := parted.counted
  have shifted :
      count - (25 * centuries + fours + surplus) + (centuries + last) - last =
        365 * (100 * centuries + 4 * fours + years) + (days - surplus) := by
    omega
  rw [shifted, Nat.mul_add_div (by decide), Nat.div_eq_of_lt (by omega), Nat.add_zero]

theorem yearOfEra_lt
    (parted : Parted count centuries fours years days) :
    yearOfEra count < 400 := by
  have fewCenturies := parted.fewCenturies
  have fewFours := parted.fewFours
  have fewYears := parted.fewYears
  rw [parted.yearOfEra_eq]
  omega

/-- The leap days before a year of the era are counted by its centuries and periods. -/
theorem daysBefore_eq
    (parted : Parted count centuries fours years days) :
    365 * yearOfEra count + yearOfEra count / 4 - yearOfEra count / 100 =
      36524 * centuries + 1461 * fours + 365 * years := by
  have fewFours := parted.fewFours
  have fewYears := parted.fewYears
  have fourth : (100 * centuries + 4 * fours + years) / 4 = 25 * centuries + fours := by omega
  have century : (100 * centuries + 4 * fours + years) / 100 = centuries := by omega
  rw [parted.yearOfEra_eq, fourth, century]
  omega

/-- A year with 366 days comes before a leap year. -/
theorem lt_lengthOfYear
    (parted : Parted count centuries fours years days)
    (era : Nat) :
    days < lengthOfYear (100 * centuries + 4 * fours + years + era * 400) := by
  obtain ⟨few, fewFours, fewYears, fewDays, leap, _⟩ := parted
  by_cases last : days = 365
  · obtain ⟨rfl, full⟩ := leap last
    have isLeap : IsLeapYear (100 * centuries + 4 * fours + 3 + era * 400 + 1) := by
      by_cases century : fours = 24
      · obtain rfl := full century
        exact .inr (by omega)
      · exact .inl ⟨by omega, by omega⟩
    rw [lengthOfYear, if_pos isLeap]
    omega
  · have long := (lengthOfYear_bounds (100 * centuries + 4 * fours + years + era * 400)).1
    omega

/-- A day of an era falls on a day of its year. -/
theorem falls
    (parted : Parted count centuries fours years days)
    (era : Nat) :
    Falls (count + era * daysOfEra) (yearOfEra count + era * 400) days where
  counted := by
    have before := parted.daysBefore_eq
    have counted := parted.counted
    have short := parted.yearOfEra_lt
    generalize yearOfEra count = year at *
    have fourth : (year + era * 400) / 4 = year / 4 + era * 100 := by omega
    have century : (year + era * 400) / 100 = year / 100 + era * 4 := by omega
    have fourCenturies : (year + era * 400) / 400 = era := by omega
    rw [daysBeforeYear, fourth, century, fourCenturies, daysOfEra]
    omega
  within := by
    rw [parted.yearOfEra_eq]
    exact parted.lt_lengthOfYear era

end Parted

/-- The four hundred years that a day lies in have begun, and have not ended. -/
theorem era_bounds (shifted : Nat) :
    shifted / daysOfEra * daysOfEra ≤ shifted ∧
      shifted - shifted / daysOfEra * daysOfEra < daysOfEra := by
  unfold daysOfEra
  omega

/-- What the computation comes to. -/
theorem ofDays_of_parted
    {days era count centuries fours years day : Nat}
    (isEra : era = (days + daysBefore1970) / daysOfEra)
    (isCount : count = days + daysBefore1970 - era * daysOfEra)
    (parted : Parted count centuries fours years day) :
    ofDays days = ofDayOfYear (yearOfEra count + era * 400) day := by
  have isDay :
      count - (365 * yearOfEra count + yearOfEra count / 4 - yearOfEra count / 100) = day := by
    have counted := parted.counted
    rw [parted.daysBefore_eq]
    omega
  rw [← isDay, isCount, isEra]
  rfl

/-- The date of a number of days is that of a day of a year from March on. -/
theorem exists_falls (days : Nat) :
    ∃ year day, Falls (days + daysBefore1970) year day ∧ ofDays days = ofDayOfYear year day := by
  obtain ⟨begun, within⟩ := era_bounds (days + daysBefore1970)
  obtain ⟨_, _, _, day, parted⟩ := exists_parted within
  have falls := parted.falls ((days + daysBefore1970) / daysOfEra)
  rw [Nat.sub_add_cancel begun] at falls
  exact ⟨_, day, falls, ofDays_of_parted rfl rfl parted⟩

/-- The date of a number of days depends on the year and the day that it falls on. -/
theorem ofDays_of_falls
    {days year day : Nat}
    (falls : Falls (days + daysBefore1970) year day) :
    ofDays days = ofDayOfYear year day := by
  obtain ⟨otherYear, otherDay, otherwise, date⟩ := exists_falls days
  obtain ⟨rfl, rfl⟩ := falls.unique otherwise
  exact date

/-! ## Day by day -/

/-- The step: one day more gives the next date. -/
theorem ofDays_succ (days : Nat) : ofDays (days + 1) = (ofDays days).next := by
  obtain ⟨year, day, falls, date⟩ := exists_falls days
  have onward : days + 1 + daysBefore1970 = days + daysBefore1970 + 1 := Nat.succ_add _ _
  rw [date]
  rcases Nat.lt_or_ge (day + 1) (lengthOfYear year) with within | ended
  · have later := falls.succ within
    rw [← onward] at later
    obtain ⟨block, inBlock⟩ := exists_inBlock falls.within
    rw [ofDays_of_falls later, inBlock.next_eq within]
  · have last : day + 1 = lengthOfYear year := Nat.le_antisymm falls.within ended
    have later := falls.succ_of_last last
    rw [← onward] at later
    rw [ofDays_of_falls later, next_of_last last]

/-- Every number of days has a date of the calendar. -/
theorem valid_ofDays (days : Nat) : (ofDays days).Valid := by
  obtain ⟨year, day, falls, date⟩ := exists_falls days
  obtain ⟨block, inBlock⟩ := exists_inBlock falls.within
  rw [date]
  exact inBlock.valid

/-- The run: so many days after the first of 1970 there is the date. -/
theorem ofDays_eq_iterate (days : Nat) : ofDays days = next^[days] epoch := by
  induction days with
  | zero =>
      rfl
  | succ days inductionHypothesis =>
      rw [ofDays_succ, inductionHypothesis, Function.iterate_succ_apply']

/-- A larger number of days has a later date. -/
theorem before_ofDays
    {days later : Nat}
    (isLater : days < later) :
    (ofDays days).Before (ofDays later) := by
  induction isLater with
  | refl =>
      rw [ofDays_succ]
      exact (valid_ofDays days).before_next
  | @step between _ inductionHypothesis =>
      rw [ofDays_succ]
      exact inductionHypothesis.trans (valid_ofDays between).before_next

end VerifyPipeline.Date
