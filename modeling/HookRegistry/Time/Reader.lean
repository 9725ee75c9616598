import HookRegistry.Time.Timestamp
import HookRegistry.Value.Decoder

/-!
# Reading timestamps

A timestamp is given as a number since the start of 1970, or as a text: a date and a time, a
number, or a date alone.  A text that names no offset leaves it open; `Timestamp.ofValue` takes
UTC then.
-/

namespace HookRegistry

namespace Timestamp

/-- A date and time whose offset may be open. -/
abbrev Open := Civil × Option Int

/-- The number of digits that a run of digits starts with, and its value. -/
def digits? (count : Nat) (cs : List Char) : Option (Nat × List Char) :=
  let ds := cs.take count
  if ds.length = count && ds.all Char.isDigit then some (Numeral.natOfDigits ds, cs.drop count)
  else none

/-- Drops one given character from the front. -/
def expect? (p : Char → Bool) : List Char → Option (List Char)
  | [] => none
  | c :: rest => if p c then some rest else none

/-- A date: four digits, two and two, with dashes between. -/
def date? (cs : List Char) : Option ((Nat × Nat × Nat) × List Char) := do
  let (year, cs) ← digits? 4 cs
  let cs ← expect? (· == '-') cs
  let (month, cs) ← digits? 2 cs
  let cs ← expect? (· == '-') cs
  let (day, cs) ← digits? 2 cs
  some ((year, month, day), cs)

/-- Microseconds from the digits after the decimal mark; from the seventh on they are cut off. -/
def microsOfDigits (ds : List Char) : Nat :=
  let kept := ds.take 6
  Numeral.natOfDigits (kept ++ List.replicate (6 - kept.length) '0')

/-- What follows the seconds: a fraction, after a point or a comma, with at least one digit. -/
def fraction? : List Char → Option (Nat × List Char)
  | [] => some (0, [])
  | c :: rest =>
    if c = '.' ∨ c = ',' then
      let ds := rest.takeWhile Char.isDigit
      if ds.isEmpty then none else some (microsOfDigits ds, rest.dropWhile Char.isDigit)
    else some (0, c :: rest)

/-- A time of day: hours and minutes, then perhaps seconds, then perhaps a fraction. -/
def clock? (cs : List Char) : Option ((Nat × Nat × Nat × Nat) × List Char) := do
  let (hour, cs) ← digits? 2 cs
  let cs ← expect? (· == ':') cs
  let (minute, cs) ← digits? 2 cs
  match cs with
  | ':' :: rest =>
    let (second, cs) ← digits? 2 rest
    let (micro, cs) ← fraction? cs
    some ((hour, minute, second, micro), cs)
  | cs => some ((hour, minute, 0, 0), cs)

/-- What follows the time: nothing, `Z`, or a sign with hours and minutes. -/
def offset? : List Char → Option (Option Int)
  | [] => some none
  | c :: rest =>
    if (c = 'Z' ∨ c = 'z') ∧ rest = [] then some (some 0)
    else if c = '+' ∨ c = '-' ∨ c = '−' then do
      let (hours, cs) ← digits? 2 rest
      let cs := match cs with
        | ':' :: cs => cs
        | cs => cs
      let (minutes, cs) ← digits? 2 cs
      if cs.isEmpty && hours ≤ 23 && minutes ≤ 59 then
        let n : Int := (hours * 60 + minutes : Nat)
        some (some (if c = '+' then n else -n))
      else none
    else none

/-- The characters that may stand between date and time. -/
def isSeparator (c : Char) : Bool :=
  c == 'T' || c == 't' || c == ' ' || c == '_'

/-- A date and a time. -/
def dateTime? (cs : List Char) : Option Open := do
  let ((year, month, day), cs) ← date? cs
  let cs ← expect? isSeparator cs
  let ((hour, minute, second, micro), cs) ← clock? cs
  let offset ← offset? cs
  let c : Civil := { year, month, day, hour, minute, second, micro }
  if c.wellFormed then some (c, offset) else none

/-- A date alone, which is its first moment. -/
def date : List Char → Option Open := fun cs => do
  let ((year, month, day), cs) ← date? cs
  let c : Civil := { year, month, day }
  if cs.isEmpty && c.wellFormed then some (c, none) else none

/-- Numbers above this magnitude count milliseconds, the others seconds. -/
def milliFrom : Nat := 20000000000

/-- The moment a whole number of seconds or milliseconds after the start of 1970. -/
def ofWhole? (n : Int) : Option Open :=
  let micros := if milliFrom < n.natAbs then n * 1000 else n * 1000000
  (Civil.ofMicros? micros).map fun c => (c, some 0)

/-- A rational number to the nearest whole one, a half going up. -/
def roundHalfUp (r : Rat) : Int :=
  (r + 1 / 2).floor

/-- The moment a number of seconds or milliseconds after the start of 1970.  What exceeds the whole
number below becomes microseconds by a difference and a product of doubles, rounded to a whole
number. -/
def ofDouble? (x : Double) : Option Open := do
  let r ← x.toRat?
  let perUnit : Int := if (milliFrom : Rat) < r.abs then 1000 else 1000000
  let excess ← (Double.ofRat (r - r.floor)).toRat?
  let part ← (Double.ofRat (excess * perUnit)).toRat?
  let c ← Civil.ofMicros? (r.floor * perUnit + roundHalfUp part)
  some (c, some 0)

/-- Whether a whole number fits 64 bits. -/
def fits64 (n : Int) : Bool :=
  -(1 <<< 63 : Nat) ≤ n && n < (1 <<< 63 : Nat)

/-- A number written as text: whole, or with a point. -/
def number? (cs : List Char) : Option Open := do
  let n ← Numeral.ofChars? cs
  if n.isWhole then
    if fits64 n.toInt then ofWhole? n.toInt else none
  else if n.fraction.isSome then ofDouble? n.toDouble
  else none

/-- A moment, when there is one and its year is in range. -/
def inCalendar : Option Open → Checked Open
  | some t => if t.1.inRange then .valid t else .fail .unreadableTime
  | none => .fail .unreadableTime

/-- A timestamp written as text. -/
def ofText (s : String) : Checked Open :=
  let cs := s.toList
  match ((dateTime? cs).or (number? cs)).or (date cs) with
  | none => .fail .unreadableDate
  | some t => inCalendar (some t)

/-- Where the values to read come from: they are the numbers of a text as it was written, or they
have been turned into values of the program before. -/
inductive Source where
  | written
  | parsed
  deriving DecidableEq, Repr

/-- A timestamp whose offset may be open.  A whole number beyond 64 bits is no time at all where
the text is read directly. -/
def openOfValue (source : Source) : Value → Checked Open
  | .int n =>
    if fits64 n then inCalendar (ofWhole? n)
    else .fail (if source = .written then .notATime else .unreadableTime)
  | .real x => inCalendar (ofDouble? x)
  | .text s => ofText s
  | .bytes data =>
    match String.fromUTF8? data with
    | some s => ofText s
    | none => .fail .unreadableDate
  | _ => .fail .notATime

/-- A timestamp; one without offset is taken as UTC. -/
def ofValue (source : Source) (v : Value) : Checked Timestamp :=
  (openOfValue source v).map fun t => ⟨t.1, t.2.getD 0⟩

end Timestamp

end HookRegistry
