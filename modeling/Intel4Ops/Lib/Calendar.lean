import Intel4Ops.Lib.Json

/-!
# Dates in texts

A date is the number of its day, with the first day of the year one as day one. The texts that
`date.fromisoformat` reads are a year with a month and a day, or with a week and perhaps a day of
the week, with dashes between all parts or between none.
-/

namespace Lib.Calendar

/-- `calendar.isleap(year)` -/
def isLeap (year : ℕ) : Bool := year % 4 = 0 ∧ (year % 100 ≠ 0 ∨ year % 400 = 0)

def daysBeforeYear (year : ℕ) : ℕ :=
  365 * (year - 1) + (year - 1) / 4 - (year - 1) / 100 + (year - 1) / 400

def monthLengths (year : ℕ) : List ℕ :=
  [31, if isLeap year then 29 else 28, 31, 30, 31, 30, 31, 31, 30, 31, 30, 31]

/-- `date(year, month, day).toordinal()` -/
def ofMonth (year month day : ℕ) : Option ℤ :=
  if 1 ≤ year ∧ 1 ≤ month ∧ month ≤ 12 ∧ 1 ≤ day ∧ day ≤ (monthLengths year).getD (month - 1) 0 then
    some (daysBeforeYear year + ((monthLengths year).take (month - 1)).sum + day : ℕ)
  else none

/-- The day of the week of the first of January, from Monday as zero. -/
def firstWeekday (year : ℕ) : ℕ := daysBeforeYear year % 7

/-- The years with 53 weeks. -/
def isLong (year : ℕ) : Bool := firstWeekday year = 3 ∨ (firstWeekday year = 2 ∧ isLeap year)

def firstMonday (year : ℕ) : ℤ :=
  (daysBeforeYear year : ℤ) + 1 - firstWeekday year + (if 3 < firstWeekday year then 7 else 0)

/-- `date.fromisocalendar(year, week, day).toordinal()` -/
def ofWeek (year week day : ℕ) : Option ℤ :=
  if 1 ≤ year ∧ 1 ≤ week ∧ (week ≤ 52 ∨ week = 53 ∧ isLong year) ∧ 1 ≤ day ∧ day ≤ 7 then
    let ordinal := firstMonday year + 7 * (week - 1) + (day - 1)
    if 1 ≤ ordinal ∧ ordinal ≤ 3652059 then some ordinal else none
  else none

/-- The number of some digits. -/
def number (text : List Char) : Option ℕ :=
  if text.all Char.isDigit then Numeral.digits text else none

/-- The part of a date behind the year, with or without dashes. -/
def ofRest (year : ℕ) : List Char → Option ℤ
  | ['-', 'W', a, b] => do ofWeek year (← number [a, b]) 1
  | ['-', 'W', a, b, '-', d] => do ofWeek year (← number [a, b]) (← number [d])
  | ['W', a, b] => do ofWeek year (← number [a, b]) 1
  | ['W', a, b, d] => do ofWeek year (← number [a, b]) (← number [d])
  | ['-', a, b, '-', c, d] => do ofMonth year (← number [a, b]) (← number [c, d])
  | [a, b, c, d] => do ofMonth year (← number [a, b]) (← number [c, d])
  | _ => none

/-- `date.fromisoformat(text).toordinal()` -/
def fromIsoFormat? (text : List Char) : Option ℤ := do
  let year ← if text.length < 4 then none else number (text.take 4)
  ofRest year (text.drop 4)

example : fromIsoFormat? "2026-01-01".toList = some 739617 := by decide +kernel

end Lib.Calendar
