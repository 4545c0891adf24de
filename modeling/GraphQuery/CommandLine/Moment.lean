/-! # Moments

A moment is a number of microseconds since the start of 1970 in universal time. It is written as a
date and a time of day, with a fraction if there is one, and with the offset from universal time.
-/

namespace GraphQuery.CommandLine

/-- A moment, in microseconds since the start of 1970. -/
structure Moment where
  microseconds : Nat
  deriving DecidableEq, Repr

/-- A day of the calendar. -/
structure Day where
  year : Nat
  month : Nat
  day : Nat
  deriving DecidableEq, Repr

namespace Day

/-- The days of an era of 400 years. -/
def daysPerEra : Nat := 146097

/-- The days from the first of March of the year 0 to the start of 1970. -/
def daysBefore : Nat := 719468

/-- The day that is a number of days after the start of 1970. Years are counted from March, so that
a leap day is the last day of its year. -/
def ofNumber (number : Nat) : Day :=
  let days := number + daysBefore
  let era := days / daysPerEra
  let within := days % daysPerEra
  let year := (within - within / 1460 + within / 36524 - within / (daysPerEra - 1)) / 365
  let ofYear := within - (365 * year + year / 4 - year / 100)
  let month := (5 * ofYear + 2) / 153
  let day := ofYear - (153 * month + 2) / 5 + 1
  if month < 10 then ⟨400 * era + year, month + 3, day⟩ else ⟨400 * era + year + 1, month - 9, day⟩

example : ofNumber 0 = ⟨1970, 1, 1⟩ ∧ ofNumber 19782 = ⟨2024, 2, 29⟩ ∧
    ofNumber 19783 = ⟨2024, 3, 1⟩ := by decide

end Day

namespace Moment

def padded (width number : Nat) : String :=
  let digits := (toString number).toList
  String.ofList (List.replicate (width - digits.length) '0' ++ digits)

def text (moment : Moment) : String :=
  let seconds := moment.microseconds / 1000000
  let fraction := moment.microseconds % 1000000
  let day := Day.ofNumber (seconds / 86400)
  let time := seconds % 86400
  let date := "-".intercalate [padded 4 day.year, padded 2 day.month, padded 2 day.day]
  let clock := ":".intercalate
    [padded 2 (time / 3600), padded 2 (time / 60 % 60), padded 2 (time % 60)]
  let rest := if fraction = 0 then "" else "." ++ padded 6 fraction
  date ++ "T" ++ clock ++ rest ++ "+00:00"

example : text ⟨1714521600000000⟩ = "2024-05-01T00:00:00+00:00" := by decide +kernel
example : text ⟨951782399000013⟩ = "2000-02-28T23:59:59.000013+00:00" := by decide +kernel

end Moment

end GraphQuery.CommandLine
