import HookRegistry.Double.Text
import HookRegistry.Time.Civil

/-!
# Timestamps

A date and time at an offset from UTC.  Two timestamps denote the same instant when they agree
after the offsets are taken off; the offset that was read is kept.
-/

namespace HookRegistry

/-- A date and time at an offset, in minutes east of UTC. -/
structure Timestamp where
  civil : Civil
  offset : Int := 0
  deriving DecidableEq, Repr, Inhabited

namespace Timestamp

/-- Microseconds of UTC from the start of 1970. -/
def instant (t : Timestamp) : Int :=
  t.civil.micros - t.offset * 60000000

/-- Whether two timestamps denote the same instant. -/
def sameInstant (s t : Timestamp) : Bool :=
  s.instant == t.instant

/-- The start of 1970. -/
def epoch : Timestamp where
  civil := { year := 1970, month := 1, day := 1 }

/-- Two digits. -/
def two (n : Nat) : List Char :=
  Double.zeroPadded 2 n

/-- The offset: `Z` for none, otherwise a sign, hours and minutes. -/
def writeOffset (offset : Int) : List Char :=
  if offset = 0 then ['Z']
  else
    let n := offset.natAbs
    (if offset < 0 then '-' else '+') :: two (n / 60) ++ ':' :: two (n % 60)

/-- The date, the time, microseconds unless there are none, and the offset. -/
def write (t : Timestamp) : List Char :=
  let c := t.civil
  Double.zeroPadded 4 c.year ++ '-' :: two c.month ++ '-' :: two c.day ++ 'T' :: two c.hour ++
    ':' :: two c.minute ++ ':' :: two c.second ++
    (if c.micro = 0 then [] else '.' :: Double.zeroPadded 6 c.micro) ++ writeOffset t.offset

end Timestamp

end HookRegistry
