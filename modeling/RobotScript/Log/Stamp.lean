/-!
# Time stamps

A time stamp is a date and a time of day in UTC with milliseconds, as `format_json` writes it into
structured log lines.
-/

namespace RobotScript.Log

/-- A number with at least `width` digits. -/
def padded (width n : Nat) : String :=
  let digits := toString n
  String.ofList (List.replicate (width - digits.length) '0') ++ digits

/-- Year, month and day of a number of days after 1 March of the year 0. Years start in March, so a
leap day is the last day of a year; 400 years have 146097 days. -/
def civilDate (days : Nat) : Nat × Nat × Nat :=
  let era := days / 146097
  let day := days % 146097
  let year := (day - day / 1460 + day / 36524 - day / 146096) / 365
  let dayOfYear := day - (365 * year + year / 4 - year / 100)
  let month := (5 * dayOfYear + 2) / 153
  let dayOfMonth := dayOfYear - (153 * month + 2) / 5 + 1
  let year := 400 * era + year
  if month < 10 then (year, month + 3, dayOfMonth) else (year + 1, month - 9, dayOfMonth)

/-- The time stamp of a number of milliseconds after the start of the year 1970. -/
def stamp (milliseconds : Nat) : String :=
  let seconds := milliseconds / 1000
  let (year, month, day) := civilDate (seconds / 86400 + 719468)
  let ofDay := seconds % 86400
  padded 4 year ++ "-" ++ padded 2 month ++ "-" ++ padded 2 day ++ "T" ++
    padded 2 (ofDay / 3600) ++ ":" ++ padded 2 (ofDay / 60 % 60) ++ ":" ++ padded 2 (ofDay % 60) ++
    "." ++ padded 3 (milliseconds % 1000) ++ "Z"

example : stamp 0 = "1970-01-01T00:00:00.000Z" := by decide +kernel
example : stamp 951782399999 = "2000-02-28T23:59:59.999Z" := by decide +kernel
example : stamp 951782400000 = "2000-02-29T00:00:00.000Z" := by decide +kernel
example : stamp 1735689599001 = "2024-12-31T23:59:59.001Z" := by decide +kernel

end RobotScript.Log
