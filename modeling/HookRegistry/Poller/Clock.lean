import HookRegistry.Double.Basic

/-!
# Clocks

A poller computes moments from moments and spans.  Its clock says how the result of an operation is
rounded, which results are beyond its numbers, and how early a moment counts as come.  On
`Clock.exact` every result stands as it is; `Clock.machine` keeps moments in doubles and takes what is
due within a nanosecond as due.
-/

namespace HookRegistry

/-- How moments are computed and compared. -/
structure Clock where
  /-- What becomes of the exact result of an operation. -/
  round : Rat → Rat
  /-- Whether the exact result of an operation has a number on the clock. -/
  holds : Rat → Bool
  /-- A moment counts as come when it lies less than this ahead. -/
  grain : Rat

namespace Clock

/-- The clock of exact times. -/
def exact : Clock where
  round := id
  holds := fun _ => true
  grain := 0

/-- A finite number rounded to a double; one beyond all doubles is left as it is. -/
def roundToDouble (r : Rat) : Rat :=
  (Double.ofRat r).toRat?.getD r

/-- The clock of a machine: doubles, and a resolution of a nanosecond. -/
def machine : Clock where
  round := roundToDouble
  holds := fun r => (Double.ofRat r).toRat?.isSome
  grain := 1 / 1000000000

/-- The moment a span after another one. -/
def later (c : Clock) (t span : Rat) : Rat :=
  c.round (t + span)

/-- The span from one moment to another. -/
def between (c : Clock) (t u : Rat) : Rat :=
  c.round (u - t)

/-- The result of an operation, unless it is beyond every number of the clock. -/
def result? (c : Clock) (r : Rat) : Option Rat :=
  if c.holds r then some (c.round r) else none

/-- How often a positive length goes into a span, as a whole number: the remainder is taken off, and
what the division of the rest gives is rounded to the whole number next to it. -/
def wholes? (c : Clock) (span length : Rat) : Option Rat :=
  (c.result? (c.round ((span / length).floor * length) / length)).map fun quotient =>
    if 1 / 2 < quotient - (quotient.floor : Rat) then (quotient.floor : Rat) + 1 else quotient.floor

/-- Whether a moment counts as come. -/
def reached (c : Clock) (due now : Rat) : Bool :=
  due ≤ now || due < c.later now c.grain

@[simp] theorem result?_exact (r : Rat) : exact.result? r = some r :=
  rfl

/-- On the exact clock a length goes into a span as often as the quotient says. -/
theorem wholes?_exact {span length : Rat} (hlength : 0 < length) :
    exact.wholes? span length = some ((span / length).floor : Rat) := by
  have hquotient : ((span / length).floor : Rat) * length / length = (span / length).floor :=
    Rat.mul_div_cancel (Rat.ne_of_gt hlength)
  have hround : ∀ r, exact.round r = r := fun _ => rfl
  have hwhole : ¬ (1 / 2 : Rat) < (span / length).floor - (span / length).floor := by
    grind
  rw [wholes?, hround, hquotient, result?_exact, Option.map_some, Rat.floor_intCast, if_neg hwhole]

/-- On the exact clock a moment has come when it is not ahead. -/
theorem reached_exact {due now : Rat} : exact.reached due now = true ↔ due ≤ now := by
  simp only [reached, later, exact, id, Bool.or_eq_true, decide_eq_true_eq]
  constructor
  · rintro (h | h)
    · exact h
    · exact Rat.le_of_lt (by simpa only [Rat.add_zero, decide_eq_true_eq] using h)
  · exact Or.inl

end Clock

end HookRegistry
