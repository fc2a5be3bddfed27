import MessageStore.Instant.Basic
import MessageStore.Text.Digits

/-!
# Instants written as dates

The civil date of an instant in the Gregorian calendar, extended backwards and
forwards without end, and the text `2023-11-14 22:13:20 UTC`.  A fraction of a
second is written with three, six or nine digits, the fewest that are exact.
Years outside 0 to 9999 carry a sign.
-/

namespace MessageStore.Instant

open Text (padded)

/-- A day of the calendar. -/
structure Date where
  year : Int
  month : Nat
  day : Nat
  deriving DecidableEq, Repr

/-- The date that lies the given number of days after 1970-01-01.

Years are counted from the first of March, so that the leap day ends a year and
the months have the lengths of the pattern `(153 * m + 2) / 5`. -/
def Date.ofDays (days : Int) : Date :=
  let shifted := days + 719468
  let era := shifted.fdiv 146097
  let dayOfEra := (shifted.fmod 146097).toNat
  let yearOfEra :=
    (dayOfEra - dayOfEra / 1460 + dayOfEra / 36524 - dayOfEra / 146096) / 365
  let dayOfYear := dayOfEra - (365 * yearOfEra + yearOfEra / 4 - yearOfEra / 100)
  let monthFromMarch := (5 * dayOfYear + 2) / 153
  let day := dayOfYear - (153 * monthFromMarch + 2) / 5 + 1
  let month := if monthFromMarch < 10 then monthFromMarch + 3 else monthFromMarch - 9
  let year := (yearOfEra : Int) + era * 400
  ⟨if month ≤ 2 then year + 1 else year, month, day⟩

/-- A year has four digits; outside 0 to 9999 it has a sign as well. -/
def yearText (year : Int) : String :=
  if 0 ≤ year ∧ year ≤ 9999 then padded 4 year.toNat
  else if 0 ≤ year then "+" ++ padded 4 year.toNat
  else "-" ++ padded 4 year.natAbs

/-- A fraction of a second in three, six or nine digits, and nothing for a whole second. -/
def fractionText (nanos : Nat) : String :=
  if nanos = 0 then ""
  else if nanos % 1000000 = 0 then "." ++ padded 3 (nanos / 1000000)
  else if nanos % 1000 = 0 then "." ++ padded 6 (nanos / 1000)
  else "." ++ padded 9 nanos

/-- The date, the time of day, and the zone. -/
def toText (instant : Instant) : String :=
  let date := Date.ofDays (instant.seconds.fdiv 86400)
  let second := (instant.seconds.fmod 86400).toNat
  yearText date.year ++ "-" ++ padded 2 date.month ++ "-" ++ padded 2 date.day ++ " " ++
    padded 2 (second / 3600) ++ ":" ++ padded 2 (second / 60 % 60) ++ ":" ++
    padded 2 (second % 60) ++ fractionText instant.nanos ++ " UTC"

end MessageStore.Instant
