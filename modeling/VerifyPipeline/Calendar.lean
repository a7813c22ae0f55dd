import VerifyPipeline.Text.Numeral

/-!
# Times of day and dates

A clock reading is a number of nanoseconds since the beginning of 1970, which may be negative.  It
is written as a date of the Gregorian calendar and a time of day with milliseconds; readings before
1970 are written as its beginning.
-/

namespace VerifyPipeline

/-- A day of the Gregorian calendar. -/
structure Date where
  year : Nat
  month : Nat
  day : Nat
  deriving Repr, DecidableEq

namespace Date

/-- The days from the first of March of the year zero to the beginning of 1970. -/
def daysBefore1970 : Nat := 719468

/-- The days of four hundred years. -/
def daysOfEra : Nat := 146097

/-- The date that lies a number of days after the beginning of 1970.

Years are counted from March on, so that a leap day is the last day of its year, and months by
blocks of 153 days for five of them. -/
def ofDays (days : Nat) : Date :=
  let shifted := days + daysBefore1970
  let era := shifted / daysOfEra
  let dayOfEra := shifted - era * daysOfEra
  let yearOfEra := (dayOfEra - dayOfEra / 1460 + dayOfEra / 36524 - dayOfEra / 146096) / 365
  let dayOfYear := dayOfEra - (365 * yearOfEra + yearOfEra / 4 - yearOfEra / 100)
  let fromMarch := (5 * dayOfYear + 2) / 153
  let month := if fromMarch < 10 then fromMarch + 3 else fromMarch - 9
  { year := yearOfEra + era * 400 + (if month ≤ 2 then 1 else 0)
    month := month
    day := dayOfYear - (153 * fromMarch + 2) / 5 + 1 }

end Date

/-- A clock reading, in nanoseconds since the beginning of 1970. -/
abbrev Instant := Int

namespace Instant

/-- The written form of a number of seconds since the beginning of 1970 and of milliseconds. -/
def textOfParts (seconds milliseconds : Nat) : String :=
  let date := Date.ofDays (seconds / 86400)
  let rest := seconds % 86400
  Text.padded 4 date.year ++ "-" ++ Text.padded 2 date.month ++ "-" ++ Text.padded 2 date.day
    ++ "T" ++ Text.padded 2 (rest / 3600) ++ ":" ++ Text.padded 2 (rest % 3600 / 60) ++ ":"
    ++ Text.padded 2 (rest % 60) ++ "." ++ Text.padded 3 milliseconds ++ "Z"

/-- The written form of a clock reading. -/
def text (instant : Instant) : String :=
  let nanoseconds := Int.toNat instant
  textOfParts (nanoseconds / 1000000000) (nanoseconds % 1000000000 / 1000000)

end Instant

end VerifyPipeline
