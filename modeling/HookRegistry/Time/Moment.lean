import HookRegistry.Text.Quoted
import HookRegistry.Time.Reader

/-!
# The moment that a clock is set to

A moment is a date and a time of ISO 8601, in its forms with separators and without: the date by
month or by week, the time down to the hour, the minute, the second or a fraction, and an offset
or none.  Any one character may stand between date and time.  `Moment.ofText` finds the form
first and checks the ranges of the parts after that.
-/

namespace HookRegistry

/-- Why a text names no moment. -/
inductive MomentError where
  | malformed (text : String)
  | yearRange (year : Nat)
  | monthRange
  | dayRange
  | hourRange
  | minuteRange
  | secondRange
  deriving DecidableEq, Repr

/-- The wording of a text that names no moment. -/
def MomentError.message : MomentError → String
  | .malformed text => "Invalid isoformat string: " ++ Text.quoted text
  | .yearRange year => "year " ++ toString year ++ " is out of range"
  | .monthRange => "month must be in 1..12"
  | .dayRange => "day is out of range for month"
  | .hourRange => "hour must be in 0..23"
  | .minuteRange => "minute must be in 0..59"
  | .secondRange => "second must be in 0..59"

namespace Moment

open Timestamp (digits? expect?)

/-- The days from the start of 1970 to the Monday that begins the first week of a year, which is
the week of its first Thursday. -/
def firstMonday (year : Nat) : Int :=
  let first := { year, month := 1, day := 1 : Civil }.days
  let weekday := (first + 3) % 7
  if weekday ≤ 3 then first - weekday else first - weekday + 7

/-- The date of a day of a week. -/
def weekDate? (year week day : Nat) : Option (Nat × Nat × Nat) :=
  let start := firstMonday year + 7 * (week - 1)
  if 1 ≤ year && 1 ≤ week && 1 ≤ day && day ≤ 7 && start < firstMonday (year + 1) then
    Civil.dateOfDay? (start + (day - 1) + Civil.epochDay)
  else none

/-- The number of characters of the date at the front, as far as its separators tell. -/
def dateLength (cs : List Char) : Nat :=
  match cs.drop 4 with
  | '-' :: 'W' :: rest =>
    match rest.drop 2 with
    | '-' :: _ :: c :: _ => if c.isDigit then 8 else 10
    | '-' :: _ => 10
    | _ => 8
  | '-' :: _ => if cs.length = 7 then 7 else 10
  | 'W' :: rest =>
    let length := 7 + ((rest.drop 2).takeWhile Char.isDigit).length
    if length < 9 then length else if length % 2 = 0 then 7 else 8
  | _ => if cs.length = 7 then 7 else 8

/-- A date as year, month and day, which may be out of range. -/
def date? (cs : List Char) : Option (Nat × Nat × Nat) := do
  let (year, cs) ← digits? 4 cs
  let dashed := cs.head? == some '-'
  let dash? := fun cs => if dashed then expect? (· == '-') cs else some cs
  match ← dash? cs with
  | 'W' :: cs =>
    let (week, cs) ← digits? 2 cs
    if cs.isEmpty then weekDate? year week 1
    else
      let (day, _) ← digits? 1 (← dash? cs)
      weekDate? year week day
  | cs =>
    let (month, cs) ← digits? 2 cs
    let (day, _) ← digits? 2 (← dash? cs)
    some (year, month, day)

/-- Up to `count` parts of two digits, with a colon before each but the first or none at all, and
the microseconds after a decimal mark. -/
def timeParts? (colons : Option Bool) : Nat → List Char → Option (List Nat × Nat)
  | 0, _ => none
  | count + 1, cs => do
    let (part, cs) ← digits? 2 cs
    match cs with
    | [] => some ([part], 0)
    | c :: rest =>
      let colons := colons.getD (c == ':')
      if c = '.' ∨ c = ',' then
        if rest.isEmpty || !rest.all Char.isDigit then none
        else some ([part], Timestamp.microsOfDigits rest)
      else if colons && c != ':' then none
      else
        let (parts, micro) ← timeParts? (some colons) count (if colons then rest else c :: rest)
        some (part :: parts, micro)

/-- A part of a time that may be left out. -/
def partAt (parts : List Nat) (i : Nat) : Nat :=
  (parts[i]?).getD 0

/-- Whether an offset begins. -/
def beginsOffset (c : Char) : Bool :=
  c == '+' || c == '-' || c == 'Z'

/-- An offset in microseconds, which is less than a day. -/
def offset? : List Char → Option (Option Int)
  | [] => some none
  | ['Z'] => some (some 0)
  | 'Z' :: _ => none
  | sign :: cs => do
    let (parts, micro) ← timeParts? none 3 cs
    let seconds := partAt parts 0 * 3600 + partAt parts 1 * 60 + partAt parts 2
    let micros := seconds * 1000000 + micro
    if micros < 86400000000 then some (some (if sign = '-' then -micros else micros)) else none

/-- The first part of a date and time that is out of range. -/
def rangeError? (c : Civil) : Option MomentError :=
  if !c.inRange then some (.yearRange c.year)
  else if c.month < 1 || 12 < c.month then some .monthRange
  else if c.day < 1 || Civil.daysInMonth c.year c.month < c.day then some .dayRange
  else if 23 < c.hour then some .hourRange
  else if 59 < c.minute then some .minuteRange
  else if 59 < c.second then some .secondRange
  else none

/-- A date and time at an offset in microseconds.  What an offset has beyond whole minutes is taken
off the time of day. -/
def atOffset? (c : Civil) : Option Int → Option Timestamp.Open
  | none => some (c, none)
  | some micros =>
    if micros % 60000000 = 0 then some (c, some (micros / 60000000))
    else (Civil.ofMicros? (c.micros - micros)).map fun c => (c, some 0)

/-- The parts of a date and time, which may be out of range, and the offset in microseconds. -/
def read? (cs : List Char) : Option (Civil × Option Int) := do
  let (year, month, day) ← date? (cs.take (dateLength cs))
  match cs.drop (dateLength cs) with
  | [] => some ({ year, month, day }, none)
  | _ :: time =>
    let (parts, micro) ← timeParts? none 3 (time.takeWhile fun c => !beginsOffset c)
    let offset ← offset? (time.dropWhile fun c => !beginsOffset c)
    let c : Civil :=
      { year, month, day, micro, hour := partAt parts 0, minute := partAt parts 1
        second := partAt parts 2 }
    some (c, offset)

/-- The moment that a text names. -/
def ofText (s : String) : Except MomentError Timestamp.Open :=
  match read? s.toList with
  | none => .error (.malformed s)
  | some (c, offset) =>
    match rangeError? c with
    | some e => .error e
    | none =>
      match atOffset? c offset with
      | some t => .ok t
      | none => .error (.yearRange c.year)

end Moment

end HookRegistry
