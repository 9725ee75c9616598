/-!
# Calendar date and time of day

The years are 1 to 9999 of the proleptic Gregorian calendar, and the finest unit is the
microsecond.  `Civil.micros` counts microseconds from the start of 1970, `Civil.ofMicros?` goes
back.  The year before the first one can be written down, as year 0, but is not in range.
-/

namespace HookRegistry

/-- A date and a time of day, at no particular offset. -/
structure Civil where
  year : Nat
  month : Nat
  day : Nat
  hour : Nat := 0
  minute : Nat := 0
  second : Nat := 0
  micro : Nat := 0
  deriving DecidableEq, Repr, Inhabited

namespace Civil

/-- Whether a year has a 29th of February. -/
def isLeap (year : Nat) : Bool :=
  year % 4 == 0 && (year % 100 != 0 || year % 400 == 0)

/-- The number of days of a month. -/
def daysInMonth (year month : Nat) : Nat :=
  match month with
  | 2 => if isLeap year then 29 else 28
  | 4 | 6 | 9 | 11 => 30
  | _ => 31

/-- Whether the parts are a date of the calendar and a time of a day; the year may be 0. -/
def wellFormed (c : Civil) : Bool :=
  c.year ≤ 9999 && 1 ≤ c.month && c.month ≤ 12 && 1 ≤ c.day && c.day ≤ daysInMonth c.year c.month &&
    c.hour ≤ 23 && c.minute ≤ 59 && c.second ≤ 59 && c.micro ≤ 999999

/-- Whether the year is one that the calendar has. -/
def inRange (c : Civil) : Bool :=
  1 ≤ c.year && c.year ≤ 9999

/-- Days from the first of March of year 0 to the start of 1970. -/
def epochDay : Nat := 719468

/-- Days from the start of 1970 to a date.  The year is counted from March, so that a leap day is
the last day of its year. -/
def days (c : Civil) : Int :=
  let year := if c.month ≤ 2 then c.year - 1 else c.year
  let month := if c.month ≤ 2 then c.month + 9 else c.month - 3
  let dayOfYear := (153 * month + 2) / 5 + c.day - 1
  ((365 * year + year / 4 - year / 100 + year / 400 + dayOfYear : Nat) : Int) - epochDay

/-- Microseconds from the start of 1970. -/
def micros (c : Civil) : Int :=
  c.days * 86400000000 +
    ((c.hour * 3600 + c.minute * 60 + c.second) * 1000000 + c.micro : Nat)

/-- The date of a day counted from the first of March of year 0. -/
def dateOfMarchDay (z : Nat) : Nat × Nat × Nat :=
  let era := z / 146097
  let dayOfEra := z % 146097
  let yearOfEra := (dayOfEra - dayOfEra / 1460 + dayOfEra / 36524 - dayOfEra / 146096) / 365
  let dayOfYear := dayOfEra - (365 * yearOfEra + yearOfEra / 4 - yearOfEra / 100)
  let month := (5 * dayOfYear + 2) / 153
  let day := dayOfYear - (153 * month + 2) / 5 + 1
  let year := yearOfEra + era * 400
  if month < 10 then (year, month + 3, day) else (year + 1, month - 9, day)

/-- The date of a day counted from the first of March of year 0, on which the first two months of
that year lie before day 0.  The calendar repeats every 400 years, so the day is looked up 400
years later. -/
def dateOfDay? (z : Int) : Option (Nat × Nat × Nat) :=
  if z < -60 then none
  else
    let (year, month, day) := dateOfMarchDay (z + 146097).toNat
    some (year - 400, month, day)

/-- The date and time that lie a number of microseconds after the start of 1970. -/
def ofMicros? (t : Int) : Option Civil := do
  let (year, month, day) ← dateOfDay? (t.fdiv 86400000000 + epochDay)
  let rest := (t.fmod 86400000000).toNat
  let seconds := rest / 1000000
  let c : Civil :=
    { year, month, day
      hour := seconds / 3600
      minute := seconds / 60 % 60
      second := seconds % 60
      micro := rest % 1000000 }
  if c.wellFormed then some c else none

end Civil

end HookRegistry
