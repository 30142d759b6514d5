/-!
# Timestamps

A timestamp is a count of nanoseconds since the start of 1970, in the proleptic Gregorian calendar
and without a time zone. `Timestamp.ofParts?` makes one of the parts of a date, and `Timestamp.iso`
writes it, with a fraction of a second only where there is one.

Columns count time in a `TimeUnit` of their own. `Timestamp.count` is the number of whole units,
`Timestamp.ofCount` the timestamp after so many of them.
-/

namespace PlotGrammar

/-- A moment, counted in nanoseconds since the start of 1970. -/
structure Timestamp where
  nanos : Int
  deriving DecidableEq, Repr, Inhabited

/-- The unit in which a column counts time. -/
inductive TimeUnit where
  | micro
  | nano
  deriving DecidableEq, Repr

/-- The length of a unit in nanoseconds. -/
def TimeUnit.nanos : TimeUnit → Int
  | micro => 1000
  | nano => 1

namespace Timestamp

/-- Days from the start of 1970 to a date of the Gregorian calendar. -/
def daysOfDate (year month day : Int) : Int :=
  -- Years are taken from March to February, so that a leap day is the last of its year.
  let y := if month ≤ 2 then year - 1 else year
  let era := Int.fdiv y 400
  let yearOfEra := y - era * 400
  let shifted := if month > 2 then month - 3 else month + 9
  let dayOfYear := (153 * shifted + 2) / 5 + day - 1
  let dayOfEra := yearOfEra * 365 + yearOfEra / 4 - yearOfEra / 100 + dayOfYear
  era * 146097 + dayOfEra - 719468

/-- The date that is so many days after the start of 1970, as year, month and day. -/
def dateOfDays (days : Int) : Int × Int × Int :=
  let z := days + 719468
  let era := Int.fdiv z 146097
  let dayOfEra := z - era * 146097
  let yearOfEra := (dayOfEra - dayOfEra / 1460 + dayOfEra / 36524 - dayOfEra / 146096) / 365
  let dayOfYear := dayOfEra - (365 * yearOfEra + yearOfEra / 4 - yearOfEra / 100)
  let shifted := (5 * dayOfYear + 2) / 153
  let day := dayOfYear - (153 * shifted + 2) / 5 + 1
  let month := if shifted < 10 then shifted + 3 else shifted - 9
  let year := yearOfEra + era * 400 + (if month ≤ 2 then 1 else 0)
  (year, month, day)

/-- The number of days of a month. -/
def daysInMonth (year month : Int) : Int :=
  if month = 2 then
    if year % 4 = 0 ∧ (year % 100 ≠ 0 ∨ year % 400 = 0) then 29 else 28
  else if month = 4 ∨ month = 6 ∨ month = 9 ∨ month = 11 then 30
  else 31

/-- The parts of a date and of the time of day. -/
structure Parts where
  year : Nat := 1970
  month : Nat := 1
  day : Nat := 1
  hour : Nat := 0
  minute : Nat := 0
  second : Nat := 0
  /-- The nanoseconds of a fraction of a second. -/
  nanos : Nat := 0

/-- The timestamp of a date that exists and a time that a clock shows. -/
def ofParts? (p : Parts) : Option Timestamp :=
  if 1 ≤ p.month ∧ p.month ≤ 12 ∧ 1 ≤ p.day ∧ (p.day : Int) ≤ daysInMonth p.year p.month ∧
      p.hour < 24 ∧ p.minute < 60 ∧ p.second < 60 then
    let seconds := (p.hour * 60 + p.minute) * 60 + p.second
    some ⟨daysOfDate p.year p.month p.day * 86400000000000 + seconds * 1000000000 + p.nanos⟩
  else none

/-- The number of whole units since the start of 1970. -/
def count (unit : TimeUnit) (t : Timestamp) : Int :=
  Int.fdiv t.nanos unit.nanos

/-- The timestamp so many units after the start of 1970. -/
def ofCount (unit : TimeUnit) (n : Int) : Timestamp :=
  ⟨n * unit.nanos⟩

theorem count_ofCount (unit : TimeUnit) (n : Int) : (ofCount unit n).count unit = n := by
  cases unit <;> simp [count, ofCount, TimeUnit.nanos, Int.mul_fdiv_cancel]

/-- A number in decimal, padded with zeros to a width. -/
def pad (width n : Nat) : String :=
  let text := toString n
  String.ofList (List.replicate (width - text.length) '0') ++ text

/-- Writes a timestamp with the given text between date and time. -/
def render (separator : String) (t : Timestamp) : String :=
  let days := Int.fdiv t.nanos 86400000000000
  let inDay := (t.nanos - days * 86400000000000).toNat
  let (year, month, day) := dateOfDays days
  let seconds := inDay / 1000000000
  let nanos := inDay % 1000000000
  let fraction :=
    if nanos = 0 then ""
    else if nanos % 1000 = 0 then "." ++ pad 6 (nanos / 1000)
    else "." ++ pad 9 nanos
  pad 4 year.toNat ++ "-" ++ pad 2 month.toNat ++ "-" ++ pad 2 day.toNat ++ separator ++
    pad 2 (seconds / 3600) ++ ":" ++ pad 2 (seconds / 60 % 60) ++ ":" ++ pad 2 (seconds % 60) ++
    fraction

/-- The ISO form, with a `T` between date and time. -/
def iso (t : Timestamp) : String :=
  t.render "T"

/-- The form used inside sentences, with a space between date and time. -/
def text (t : Timestamp) : String :=
  t.render " "

end Timestamp

end PlotGrammar
