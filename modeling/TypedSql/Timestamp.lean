/-!
# Moments of time

A moment is counted from the first second of 1970, without leap seconds, and written by the
Gregorian calendar in Universal Time. A year is taken to begin in March, so that the day that
leap years add is its last one.
-/

namespace TypedSql

/-- A moment of time. -/
structure Timestamp where
  seconds : Nat
  /-- What is beyond the last whole second. -/
  nanoseconds : Nat
  deriving DecidableEq

/-- A day of the calendar. -/
structure CalendarDay where
  year : Nat
  month : Nat
  day : Nat
  deriving DecidableEq

namespace CalendarDay

/-- The day that is `days` days after the first of January 1970. -/
def ofDays (days : Nat) : CalendarDay :=
  let shifted := days + 719468
  let inCycle := shifted % 146097
  let year := (inCycle - inCycle / 1460 + inCycle / 36524 - inCycle / 146096) / 365
  let inYear := inCycle - (365 * year + year / 4 - year / 100)
  let month := (5 * inYear + 2) / 153
  let day := inYear - (153 * month + 2) / 5 + 1
  let year := year + 400 * (shifted / 146097)
  if month < 10 then ⟨year, month + 3, day⟩ else ⟨year + 1, month - 9, day⟩

example : ofDays 0 = ⟨1970, 1, 1⟩ := by decide
example : ofDays 11016 = ⟨2000, 2, 29⟩ := by decide
example : ofDays 19723 = ⟨2024, 1, 1⟩ := by decide

end CalendarDay

namespace Timestamp

/-- A number with zeros in front up to a width. -/
def padded (width n : Nat) : String :=
  let digits := Nat.toDigits 10 n
  String.ofList (List.replicate (width - digits.length) '0' ++ digits)

/-- The fraction of a second in groups of three digits, as many as it needs. -/
def fraction (nanoseconds : Nat) : String :=
  if nanoseconds = 0 then ""
  else if nanoseconds % 1000000 = 0 then "." ++ padded 3 (nanoseconds / 1000000)
  else if nanoseconds % 1000 = 0 then "." ++ padded 6 (nanoseconds / 1000)
  else "." ++ padded 9 nanoseconds

/-- The form of RFC 3339. -/
def text (t : Timestamp) : String :=
  let date := CalendarDay.ofDays (t.seconds / 86400)
  let year := padded 4 date.year
  let month := padded 2 date.month
  let day := padded 2 date.day
  let hour := padded 2 (t.seconds / 3600 % 24)
  let minute := padded 2 (t.seconds / 60 % 60)
  let second := padded 2 (t.seconds % 60)
  s!"{year}-{month}-{day}T{hour}:{minute}:{second}{fraction t.nanoseconds}+00:00"

end Timestamp

end TypedSql
