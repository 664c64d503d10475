/-
# The clock

A moment as log lines spell it: date and time to the second, and the time alone on a twelve-hour
clock.  Moments are counted in seconds from the first of January 1970, without a time zone.
-/
import CrateBump.Decimal

namespace CrateBump.Log

/-- The moment of an event, in both spellings. -/
structure Clock where
  /-- Date and time to the second. -/
  stamp : Text
  /-- The time on a twelve-hour clock. -/
  kitchen : Text
  deriving DecidableEq, Repr

/-- A day of the calendar. -/
structure Day where
  year : Nat
  month : Nat
  day : Nat
  deriving DecidableEq, Repr

/-- The calendar day a number of days after the first of January 1970.  Years are counted from the
first of March, so that the leap day comes last, in cycles of four hundred years. -/
def Day.ofDays (days : Nat) : Day :=
  let shifted := days + 719468
  let cycle := shifted / 146097
  let inCycle := shifted % 146097
  let yearOfCycle := (inCycle - inCycle / 1460 + inCycle / 36524 - inCycle / 146096) / 365
  let inYear := inCycle - (365 * yearOfCycle + yearOfCycle / 4 - yearOfCycle / 100)
  let monthFromMarch := (5 * inYear + 2) / 153
  let day := inYear - (153 * monthFromMarch + 2) / 5 + 1
  let month := if monthFromMarch < 10 then monthFromMarch + 3 else monthFromMarch - 9
  let year := yearOfCycle + 400 * cycle + if month ≤ 2 then 1 else 0
  ⟨year, month, day⟩

/-- A number with at least `width` digits. -/
def padded (width n : Nat) : Text :=
  let digits := Decimal.ofNat n
  List.replicate (width - digits.length) 48 ++ digits

/-- The clock a number of seconds after the start of 1970. -/
def Clock.ofSeconds (seconds : Nat) : Clock :=
  let day := Day.ofDays (seconds / 86400)
  let hour := seconds % 86400 / 3600
  let minute := seconds % 3600 / 60
  let second := seconds % 60
  { stamp := padded 4 day.year ++ ascii "-" ++ padded 2 day.month ++ ascii "-" ++ padded 2 day.day
      ++ ascii "T" ++ padded 2 hour ++ ascii ":" ++ padded 2 minute ++ ascii ":" ++ padded 2 second
      ++ ascii "Z"
    kitchen := Decimal.ofNat (if hour % 12 = 0 then 12 else hour % 12) ++ ascii ":"
      ++ padded 2 minute ++ if hour < 12 then ascii "AM" else ascii "PM" }

end CrateBump.Log
