/-!
# Double precision numbers

A binary floating point number of 53 significant bits, kept as its sign, its significand and its
exponent, so that every operation below is exact arithmetic followed by one rounding.

* `Double.nearest` rounds a rational number, a half going to the even neighbour.
* `Double.toRat?` is the exact value of a finite number.
-/

namespace HookRegistry

/-- A double precision number; a finite one is `± significand · 2 ^ exponent`. -/
inductive Double where
  | nan
  | infinite (negative : Bool)
  | finite (negative : Bool) (significand : Nat) (exponent : Int)
  deriving DecidableEq, Repr, Inhabited

namespace Double

/-- The exponent of the smallest numbers. -/
def leastExponent : Int := -1074

/-- The exponent of the largest numbers. -/
def greatestExponent : Int := 971

/-- Positive zero. -/
def zero : Double := .finite false 0 leastExponent

/-- `n / d` to the nearest whole number, a half going to the even neighbour. -/
def divHalfEven (n d : Nat) : Nat :=
  let q := n / d
  let r := n % d
  if 2 * r < d then q
  else if d < 2 * r then q + 1
  else if q % 2 = 0 then q else q + 1

/-- The exponent at which `n / d` has 53 significant bits, and at least `leastExponent`. -/
def exponentFor (n d : Nat) : Int :=
  let e : Int := (Nat.log2 n : Int) - (Nat.log2 d : Int) - 52
  let e' := if (n : Rat) / (d : Rat) < (2 : Rat) ^ (e + 52) then e - 1 else e
  max e' leastExponent

/-- The double nearest to `± r`, for a magnitude `r` that is not negative. -/
def nearest (negative : Bool) (r : Rat) : Double :=
  let n := r.num.natAbs
  let d := r.den
  if n = 0 then .finite negative 0 leastExponent
  else
    let e := exponentFor n d
    let m := if 0 ≤ e then divHalfEven n (d <<< e.toNat) else divHalfEven (n <<< (-e).toNat) d
    let (m, e) := if m = 1 <<< 53 then (1 <<< 52, e + 1) else (m, e)
    if greatestExponent < e then .infinite negative else .finite negative m e

/-- The double nearest to a rational number. -/
def ofRat (r : Rat) : Double :=
  nearest (decide (r < 0)) r.abs

/-- The double nearest to a whole number. -/
def ofInt (n : Int) : Double :=
  ofRat n

/-- `2 ^ e · m` as a rational number. -/
def scaled (m : Nat) (e : Int) : Rat :=
  (m : Rat) * (2 : Rat) ^ e

/-- The exact value of a finite number. -/
def toRat? : Double → Option Rat
  | .finite negative m e => some (if negative then -scaled m e else scaled m e)
  | _ => none

/-- Greater than zero; `nan` is not. -/
def isPositive : Double → Bool
  | .nan => false
  | .infinite negative => !negative
  | .finite negative m _ => !negative && m != 0

/-- Less than zero; `nan` and negative zero are not. -/
def isNegative : Double → Bool
  | .nan => false
  | .infinite negative => negative
  | .finite negative m _ => negative && m != 0

/-- Equal to zero, of either sign. -/
def isZero : Double → Bool
  | .finite _ m _ => m == 0
  | _ => false

end Double

end HookRegistry
