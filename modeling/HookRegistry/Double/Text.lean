import HookRegistry.Double.Shortest

/-!
# Decimal text of a double

`Double.text` writes the shortest digits in a given style, `Double.fixed` a given number of
places.  A style says which exponents are written positionally and how long an exponent is.
-/

namespace HookRegistry

namespace Double

/-- How the shortest digits are laid out. -/
structure Style where
  /-- The least exponent of the first digit that is written positionally. -/
  positionalFrom : Int
  /-- The least greater exponent that is not. -/
  positionalBelow : Int
  /-- The least number of digits of a written exponent. -/
  exponentWidth : Nat
  /-- The text of a number that is not one. -/
  nan : String
  /-- The text of infinity. -/
  infinity : String
  /-- The text of negative infinity. -/
  negativeInfinity : String

/-- Digits with a point after the first `exponent + 1` of them, zeros filling either side. -/
def positional (s : Significant) : List Char :=
  if 0 ≤ s.exponent then
    let width := s.exponent.toNat + 1
    let whole := s.digits.take width
    let fraction := s.digits.drop width
    whole ++ List.replicate (width - whole.length) '0' ++ '.' ::
      (if fraction.isEmpty then ['0'] else fraction)
  else
    '0' :: '.' :: List.replicate ((-s.exponent).toNat - 1) '0' ++ s.digits

/-- A nonnegative number in decimal, filled with zeros to `width` digits. -/
def zeroPadded (width n : Nat) : List Char :=
  let ds := Nat.toDigits 10 n
  List.replicate (width - ds.length) '0' ++ ds

/-- Digits with a point after the first one, and the exponent of the first digit. -/
def scientific (exponentWidth : Nat) (s : Significant) : List Char :=
  let mantissa := match s.digits with
    | d :: e :: rest => d :: '.' :: e :: rest
    | ds => ds
  let sign := if s.exponent < 0 then '-' else '+'
  mantissa ++ 'e' :: sign :: zeroPadded exponentWidth s.exponent.natAbs

/-- The text of a number. -/
def text (style : Style) : Double → List Char
  | .nan => style.nan.toList
  | .infinite negative => (if negative then style.negativeInfinity else style.infinity).toList
  | .finite negative m e =>
    let s := if m = 0 then ⟨['0'], 0⟩ else Significant.shortest m e
    let body :=
      if style.positionalFrom ≤ s.exponent ∧ s.exponent < style.positionalBelow then positional s
      else scientific style.exponentWidth s
    if negative then '-' :: body else body

/-- Numbers in messages: positional from 0.0001 to below 10^16, two digits of exponent. -/
def messageStyle : Style where
  positionalFrom := -4
  positionalBelow := 16
  exponentWidth := 2
  nan := "nan"
  infinity := "inf"
  negativeInfinity := "-inf"

/-- Numbers on the wire: positional from 0.00001 to below 10^16, one digit of exponent, and
`null` for what is not finite. -/
def wireStyle : Style where
  positionalFrom := -5
  positionalBelow := 16
  exponentWidth := 1
  nan := "null"
  infinity := "null"
  negativeInfinity := "null"

/-- A number with exactly `places` digits after the point, rounded to nearest with a half going to
the even neighbour. -/
def fixed (places : Nat) : Double → List Char
  | .nan => messageStyle.nan.toList
  | .infinite negative =>
    (if negative then messageStyle.negativeInfinity else messageStyle.infinity).toList
  | .finite negative m e =>
    let r := scaled m e
    let n := divHalfEven (r.num.natAbs * Nat.pow 10 places) r.den
    let ds := zeroPadded (places + 1) n
    let body := ds.take (ds.length - places) ++ '.' :: ds.drop (ds.length - places)
    if negative then '-' :: body else body

end Double

end HookRegistry
