import VerifyPipeline.Proofs.Calendar.Counting

namespace VerifyPipeline.Date

/-!
# Dates from words

The computation of a date with words of 64 bits fails where a sum or a product is no word and where
a difference goes below zero.  That never happens if the days since the first of March of the year
zero are a word, so the dates are those that are reached by counting.
-/

/-- A number, if it is a word. -/
def word? (number : Nat) : Option Nat := if number < UInt64.size then some number else none

/-- A difference, if it does not go below zero. -/
def difference? (larger smaller : Nat) : Option Nat :=
  if smaller ≤ larger then some (larger - smaller) else none

def yearOfEra? (day : Nat) : Option Nat := do
  let short ← difference? day (day / 1460)
  let corrected ← word? (short + day / 36524)
  let whole ← difference? corrected (day / 146096)
  return whole / 365

/-- The day of its year, for a day of an era and its year. -/
def dayOfYear? (day year : Nat) : Option Nat := do
  let regular ← word? (365 * year)
  let julian ← word? (regular + year / 4)
  let before ← difference? julian (year / 100)
  difference? day before

def beginOfBlock? (block : Nat) : Option Nat := do
  let days ← word? (153 * block)
  let rounded ← word? (days + 2)
  return rounded / 5

def monthOfBlock? (block : Nat) : Option Nat :=
  if block < 10 then word? (block + 3) else difference? block 9

def ofDayOfYear? (year day : Nat) : Option Date := do
  let scaled ← word? (5 * day)
  let rounded ← word? (scaled + 2)
  let block := rounded / 153
  let before ← difference? day (← beginOfBlock? block)
  let dayOfMonth ← word? (before + 1)
  let month ← monthOfBlock? block
  let calendarYear ← word? (year + if month ≤ 2 then 1 else 0)
  return ⟨calendarYear, month, dayOfMonth⟩

/-- The date of a day of an era. -/
def ofDayOfEra? (era day : Nat) : Option Date := do
  let yearOfEra ← yearOfEra? day
  let dayOfYear ← dayOfYear? day yearOfEra
  let years ← word? (era * 400)
  let year ← word? (yearOfEra + years)
  ofDayOfYear? year dayOfYear

def ofDays? (days : Nat) : Option Date := do
  let shifted ← word? (days + daysBefore1970)
  let begun ← word? (shifted / daysOfEra * daysOfEra)
  let day ← difference? shifted begun
  ofDayOfEra? (shifted / daysOfEra) day

/-- The number of words. -/
theorem size_eq : UInt64.size = 18446744073709551616 := rfl

/-- A number that is a word is kept. -/
theorem word?_of_lt
    {number : Nat}
    (isWord : number < UInt64.size) :
    word? number = some number :=
  if_pos isWord

/-- The difference to a number that is not larger is taken. -/
theorem difference?_of_le
    {larger smaller : Nat}
    (ordered : smaller ≤ larger) :
    difference? larger smaller = some (larger - smaller) :=
  if_pos ordered

/-- No step on the way to the year of an era leaves the words. -/
theorem yearOfEra?_eq
    {day : Nat}
    (within : day < daysOfEra) :
    yearOfEra? day = some (yearOfEra day) := by
  have limit := size_eq
  unfold daysOfEra at within
  have short : day / 1460 ≤ day := Nat.div_le_self _ _
  have corrected : day - day / 1460 + day / 36524 < UInt64.size := by omega
  have whole : day / 146096 ≤ day - day / 1460 + day / 36524 := by omega
  simp only [yearOfEra?, difference?_of_le short, word?_of_lt corrected, difference?_of_le whole,
    Option.bind_eq_bind, Option.bind_some]
  rfl

/-- No difference on the way to the day of the year goes below zero. -/
theorem Parted.dayOfYear?_eq
    {count centuries fours years days : Nat}
    (parted : Parted count centuries fours years days) :
    dayOfYear? count (yearOfEra count) = some days := by
  have limit := size_eq
  have before := parted.daysBefore_eq
  have small : yearOfEra count < 400 := parted.yearOfEra_lt
  have counted := parted.counted
  generalize yearOfEra count = year at *
  have regular : 365 * year < UInt64.size := by omega
  have julian : 365 * year + year / 4 < UInt64.size := by omega
  have gregorian : year / 100 ≤ 365 * year + year / 4 := by omega
  have begun : 365 * year + year / 4 - year / 100 ≤ count := by omega
  simp only [dayOfYear?, word?_of_lt regular, word?_of_lt julian, difference?_of_le gregorian,
    difference?_of_le begun, Option.bind_eq_bind, Option.bind_some]
  congr 1
  omega

/-- The first day of a block within the year fits a word. -/
theorem beginOfBlock?_eq
    {block : Nat}
    (isBlock : block < 12) :
    beginOfBlock? block = some (beginOfBlock block) := by
  have limit := size_eq
  have days : 153 * block < UInt64.size := by omega
  have rounded : 153 * block + 2 < UInt64.size := by omega
  simp only [beginOfBlock?, word?_of_lt days, word?_of_lt rounded, Option.bind_eq_bind,
    Option.bind_some]
  rfl

theorem monthOfBlock?_eq
    {block : Nat}
    (isBlock : block < 12) :
    monthOfBlock? block = some (monthOfBlock block) := by
  have limit := size_eq
  unfold monthOfBlock? monthOfBlock
  split
  · exact word?_of_lt (by omega)
  · exact difference?_of_le (by omega)

/-- A date is found with words if there is room for the year after it. -/
theorem ofDayOfYear?_eq
    {year day : Nat}
    (isDay : day < 366)
    (room : year + 1 < UInt64.size) :
    ofDayOfYear? year day = some (ofDayOfYear year day) := by
  have limit := size_eq
  obtain ⟨begun, _⟩ := div_eq_block_iff.mp (rfl : (5 * day + 2) / 153 = (5 * day + 2) / 153)
  have isBlock : (5 * day + 2) / 153 < 12 := by omega
  have scaled : 5 * day < UInt64.size := by omega
  have rounded : 5 * day + 2 < UInt64.size := by omega
  simp only [ofDayOfYear?, ofDayOfYear, word?_of_lt scaled, word?_of_lt rounded,
    Option.bind_eq_bind, Option.bind_some]
  generalize (5 * day + 2) / 153 = block at *
  have dayOfMonth : day - beginOfBlock block + 1 < UInt64.size := by omega
  have calendarYear : yearOfBlock year block < UInt64.size := by
    unfold yearOfBlock
    split <;> omega
  have isYear := word?_of_lt calendarYear
  unfold yearOfBlock at isYear
  simp only [beginOfBlock?_eq isBlock, difference?_of_le begun, word?_of_lt dayOfMonth,
    monthOfBlock?_eq isBlock, isYear, Option.bind_some]
  rfl

/-- With words the date of a day of an era is the same, if there is room for the end of the era. -/
theorem Parted.ofDayOfEra?_eq
    {era count centuries fours years day : Nat}
    (parted : Parted count centuries fours years day)
    (within : count < daysOfEra)
    (room : (era + 1) * 400 < UInt64.size) :
    ofDayOfEra? era count = some (ofDayOfYear (yearOfEra count + era * 400) day) := by
  have isDay := parted.fewDays
  have isYear := parted.yearOfEra_lt
  have follows : yearOfEra count + era * 400 + 1 ≤ (era + 1) * 400 := by omega
  have calendarYear : yearOfEra count + era * 400 + 1 < UInt64.size :=
    Nat.lt_of_le_of_lt follows room
  have year := Nat.lt_of_succ_lt calendarYear
  have years := Nat.lt_of_le_of_lt (Nat.le_add_left _ (yearOfEra count)) year
  simp only [ofDayOfEra?, yearOfEra?_eq within, parted.dayOfYear?_eq, word?_of_lt years,
    word?_of_lt year, Option.bind_eq_bind, Option.bind_some]
  exact ofDayOfYear?_eq (Nat.lt_succ_of_le isDay) calendarYear

/-- With words the date of a number of days is the same, if there is room for it.  The days before
1970 are kept as a number that is not computed. -/
theorem ofDays?_eq (days : Nat) :
    ofDays? days =
      if days + daysBefore1970 < UInt64.size then some (ofDays days) else none := by
  obtain ⟨begun, within⟩ := era_bounds (days + daysBefore1970)
  obtain ⟨_, _, _, day, parted⟩ := exists_parted within
  have date := ofDays_of_parted rfl rfl parted
  unfold ofDays?
  generalize days + daysBefore1970 = shifted at *
  by_cases room : shifted < UInt64.size
  · have eras : (shifted / daysOfEra + 1) * 400 < UInt64.size := by
      have limit := size_eq
      unfold daysOfEra
      omega
    rw [if_pos room, date, word?_of_lt room, Option.bind_eq_bind, Option.bind_some,
      word?_of_lt (Nat.lt_of_le_of_lt begun room), Option.bind_some, difference?_of_le begun,
      Option.bind_some]
    exact parted.ofDayOfEra?_eq within eras
  · rw [if_neg room, word?, if_neg room, Option.bind_eq_bind, Option.bind_none]

/-- What the date of a number of days comes to. -/
structure FollowsCalendar (days : Nat) : Prop where
  start : ofDays 0 = epoch
  step : ofDays (days + 1) = (ofDays days).next
  counted : ofDays days = next^[days] epoch
  valid : (ofDays days).Valid
  increasing : ∀ later, days < later → (ofDays days).Before (ofDays later)
  /-- With words, nothing overflows and no difference goes below zero. -/
  words :
    ofDays? days = if days + daysBefore1970 < UInt64.size then some (ofDays days) else none

/--
The date of a number of days is the one that is reached by counting them from
the first of 1970 on, by the rules of the Gregorian calendar.  It is a date of
that calendar, and a later one for more days.  Computed with words of 64 bits
it is the same, as long as the shifted number of days is a word.
-/
theorem ofDays_follows_calendar (days : Nat) : FollowsCalendar days where
  start := rfl
  step := ofDays_succ days
  counted := ofDays_eq_iterate days
  valid := valid_ofDays days
  increasing _ isLater := before_ofDays isLater
  words := ofDays?_eq days

/-- A day after a leap day. -/
example : (ofDays 11016).next = ⟨2000, 3, 1⟩ := by decide +kernel

end VerifyPipeline.Date
