import HookRegistry.Double.Basic

/-!
# Shortest digits

The decimal text of a double has the fewest significant digits that read back as the same number,
and among the texts of that length the one nearest to it.
-/

namespace HookRegistry

/-- Significant decimal digits `d₀ d₁ …` and the exponent of the first: `d₀.d₁… · 10 ^ exponent`. -/
structure Significant where
  digits : List Char
  exponent : Int
  deriving DecidableEq, Repr

namespace Significant

/-- `10 ^ k`. -/
def tenPow (k : Int) : Rat := (10 : Rat) ^ k

/-- The exponent of the first decimal digit of a positive rational number. -/
def leadingExponent (r : Rat) : Int :=
  let n := r.num.natAbs
  let e : Int := ((Nat.toDigits 10 n).length : Int) - ((Nat.toDigits 10 r.den).length : Int)
  if tenPow e ≤ r then e else e - 1

/-- The digits of `c · 10 ^ k`, without zeros at the end. -/
def ofScaled (c : Nat) (k : Int) : Significant :=
  let ds := Nat.toDigits 10 c
  { digits := (ds.reverse.dropWhile (· == '0')).reverse
    exponent := k + ds.length - 1 }

/-- An interval of rational numbers with both ends or without both. -/
structure Interval where
  low : Rat
  high : Rat
  closed : Bool

/-- Membership in an interval. -/
def Interval.holds (i : Interval) (r : Rat) : Bool :=
  if i.closed then i.low ≤ r && r ≤ i.high else i.low < r && r < i.high

/-- The numbers that round to `m · 2 ^ e`.  Below a power of two the neighbour is half as far. -/
def roundingInterval (m : Nat) (e : Int) : Interval :=
  let v := Double.scaled m e
  let half := Double.scaled 1 (e - 1)
  let below := if m = 1 <<< 52 ∧ Double.leastExponent < e then Double.scaled 1 (e - 2) else half
  { low := v - below, high := v + half, closed := m % 2 == 0 }

/-- The multiple of `10 ^ k` next to `v` that lies in the interval: of two the nearer, and of two
equally near the even one. -/
def onGrid? (i : Interval) (v : Rat) (k : Int) : Option Nat :=
  let c := (v / tenPow k).floor.toNat
  let below := (c : Rat) * tenPow k
  let above := ((c + 1 : Nat) : Rat) * tenPow k
  match i.holds below, i.holds above with
  | true, true =>
    if v - below < above - v then some c
    else if above - v < v - below then some (c + 1)
    else if c % 2 = 0 then some c else some (c + 1)
  | true, false => some c
  | false, true => some (c + 1)
  | false, false => none

/-- The shortest digits of the positive number `m · 2 ^ e`. -/
def shortest (m : Nat) (e : Int) : Significant :=
  let v := Double.scaled m e
  let i := roundingInterval m e
  let first := leadingExponent v
  match (List.range 17).findSome? fun (n : Nat) =>
      (onGrid? i v (first - n)).map fun c => ofScaled c (first - n) with
  | some s => s
  | none => ofScaled (v / tenPow (first - 16)).floor.toNat (first - 16)

end Significant

end HookRegistry
