import HookRegistry.Poller.Clock
import HookRegistry.Time.Seconds

/-!
# The grid of ticks

A poller polls at fixed times: one interval after its start, and then at multiples of the interval.
`Interval.after` gives the tick to wait for when a poll has ended; ticks that have passed by then
are dropped.  On the exact clock these are exact multiples.
-/

namespace HookRegistry

/-- The time from one tick to the next. -/
inductive Interval where
  | every (length : Rat) (positive : 0 < length)
  /-- The next tick never comes. -/
  | never
  /-- The length is beyond every number of a clock, so nothing can be computed with it. -/
  | oversized

/-- A tick to wait for; `none` lies beyond every time. -/
abbrev Tick := Option Rat

namespace Interval

/-- The interval that is taken when a configuration gives none: five seconds. -/
def standard : Interval :=
  .every 5 (by decide)

/-- The span that a poller works with: the given one when it is positive, else five seconds. -/
def effective (s : Seconds) : Seconds :=
  if s.isPositive then s else .real (Double.ofInt 5)

/-- The interval of a given length, which has to be positive. -/
def ofRat (r : Rat) : Interval :=
  if h : 0 < r then .every r h else standard

/-- The interval of a given span. -/
def ofSeconds (s : Seconds) : Interval :=
  if s.isPositive then
    match s with
    | .whole n => ((Double.ofInt n).toRat?.map ofRat).getD oversized
    | .real x => (x.toRat?.map ofRat).getD never
  else standard

/-- The tick one interval after a time. -/
def next (c : Clock) (i : Interval) (t : Rat) : Tick :=
  match i with
  | .every length _ => c.result? (t + length)
  | .never | .oversized => none

/-- The first tick after `now` on the grid through `tick`, which has been served.  It is beyond
every time when so many ticks have passed that their number is. -/
def after (c : Clock) (i : Interval) (tick now : Rat) : Tick :=
  match i with
  | .every length _ => do
    let next ← c.result? (tick + length)
    if next ≤ now then
      let passed ← c.wholes? (c.between next now) length
      let span ← c.result? (c.round (passed + 1) * length)
      c.result? (next + span)
    else some next
  | .never | .oversized => none

end Interval

end HookRegistry
