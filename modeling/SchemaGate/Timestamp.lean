/-!
# Times as text

A time is given by the seconds and nanoseconds since the beginning of the year 1970 and written as a
date, a time of day and the offset zero. The fraction of a second has as many digits as it needs, in
steps of three.
-/

namespace SchemaGate.Timestamp

/-- How many days lie between the first of March of the year zero and the beginning of 1970. -/
def daysBefore1970 : Nat := 719468

/-- The days of 400 years. -/
def daysOfCycle : Nat := 146097

/-- The year, month and day of a day, counted from the beginning of 1970. Years are counted from
March on, so that a leap day is the last of its year. -/
def date (day : Nat) : Nat × Nat × Nat :=
  let days := day + daysBefore1970
  let inCycle := days % daysOfCycle
  let year := (inCycle - inCycle / 1460 + inCycle / 36524 - inCycle / 146096) / 365
  let inYear := inCycle - (365 * year + year / 4 - year / 100)
  let month := (5 * inYear + 2) / 153
  let inMonth := inYear - (153 * month + 2) / 5 + 1
  let first := year + 400 * (days / daysOfCycle)
  if month < 10 then (first, month + 3, inMonth) else (first + 1, month - 9, inMonth)

/-- A number with zeros in front up to a number of digits. -/
def padded (width n : Nat) : String :=
  let digits := toString n
  String.ofList (List.replicate (width - digits.length) '0') ++ digits

/-- The fraction of a second. -/
def fraction (nanoseconds : Nat) : String :=
  if nanoseconds = 0 then ""
  else if nanoseconds % 1000000 = 0 then "." ++ padded 3 (nanoseconds / 1000000)
  else if nanoseconds % 1000 = 0 then "." ++ padded 6 (nanoseconds / 1000)
  else "." ++ padded 9 nanoseconds

/-- The text of a time. -/
def text (seconds nanoseconds : Nat) : String :=
  let (year, month, day) := date (seconds / 86400)
  let second := seconds % 86400
  padded 4 year ++ "-" ++ padded 2 month ++ "-" ++ padded 2 day ++ "T" ++
    padded 2 (second / 3600) ++ ":" ++ padded 2 (second / 60 % 60) ++ ":" ++
    padded 2 (second % 60) ++ fraction nanoseconds ++ "+00:00"

end SchemaGate.Timestamp
