import PlayerLookup.Log

/-! The clock of the log: moments from seconds since the first moment of 1970. A year is counted
from March, so that a leap day is its last day, and four hundred years have the same days. -/

set_option autoImplicit false

namespace PlayerLookup.Moment

def cycleDays : Nat := 146097

def cycleYears (day : Nat) : Nat := (day - day / 1460 + day / 36524 - day / 146096) / 365

def daysBefore (year : Nat) : Nat := 365 * year + year / 4 - year / 100

def dateOfDays (days : Nat) : Nat × Nat × Nat :=
  let sinceStart := days + 719468
  let day := sinceStart % cycleDays
  let year := cycleYears day
  let dayOfYear := day - daysBefore year
  let month := (5 * dayOfYear + 2) / 153
  let dayOfMonth := dayOfYear - (153 * month + 2) / 5 + 1
  let civil := sinceStart / cycleDays * 400 + year
  if month < 10 then (civil, month + 3, dayOfMonth) else (civil + 1, month - 9, dayOfMonth)

def ofSeconds (seconds : Nat) : Moment :=
  let (year, month, day) := dateOfDays (seconds / 86400)
  let time := seconds % 86400
  ⟨year, month, day, time / 3600, time % 3600 / 60, time % 60⟩

example : dateOfDays 0 = (1970, 1, 1) := by decide

example : dateOfDays 11016 = (2000, 2, 29) := by decide

example : dateOfDays 20776 = (2026, 11, 19) := by decide

end PlayerLookup.Moment
