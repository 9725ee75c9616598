import HookRegistry.Double.Basic

/-!
# Decimal numerals

A numeral is an optional sign, digits with an optional point among them, and an optional exponent.
The formats that read numbers share this reader and add conditions of their own on the parts.
-/

namespace HookRegistry

/-- The parts of a numeral. -/
structure Numeral where
  sign : Option Char
  whole : List Char
  /-- The digits after the point; `none` when there is no point. -/
  fraction : Option (List Char)
  /-- The power of ten that follows; `none` when there is none. -/
  exponent : Option Int
  deriving DecidableEq, Repr

namespace Numeral

/-- Whether the numeral starts with a minus sign. -/
def negative (n : Numeral) : Bool :=
  n.sign == some '-'

/-- The value of a run of decimal digits. -/
def natOfDigits (ds : List Char) : Nat :=
  Nat.ofDigitChars 10 ds 0

/-- Splits a sign off the front. -/
def splitSign : List Char → Option Char × List Char
  | '-' :: rest => (some '-', rest)
  | '+' :: rest => (some '+', rest)
  | rest => (none, rest)

/-- A signed run of at least one digit. -/
def signedDigits? (cs : List Char) : Option Int :=
  let (sign, ds) := splitSign cs
  if ds.isEmpty || !ds.all Char.isDigit then none
  else if sign == some '-' then some (-(natOfDigits ds : Int)) else some (natOfDigits ds)

/-- Reads what follows the digits: nothing, or an exponent. -/
def exponentPart? : List Char → Option (Option Int)
  | [] => some none
  | c :: rest => if c = 'e' ∨ c = 'E' then (signedDigits? rest).map some else none

/-- Reads a numeral with at least one digit beside the point. -/
def ofChars? (cs : List Char) : Option Numeral :=
  let (sign, rest) := splitSign cs
  let whole := rest.takeWhile Char.isDigit
  match rest.dropWhile Char.isDigit with
  | '.' :: rest =>
    let fraction := rest.takeWhile Char.isDigit
    if whole.isEmpty && fraction.isEmpty then none
    else (exponentPart? (rest.dropWhile Char.isDigit)).map fun e =>
      { sign, whole, fraction := some fraction, exponent := e }
  | rest =>
    if whole.isEmpty then none
    else (exponentPart? rest).map fun e => { sign, whole, fraction := none, exponent := e }

/-- Whether the numeral has neither point nor exponent. -/
def isWhole (n : Numeral) : Bool :=
  n.fraction.isNone && n.exponent.isNone

/-- The value of a numeral that has neither point nor exponent. -/
def toInt (n : Numeral) : Int :=
  if n.negative then -(natOfDigits n.whole : Int) else natOfDigits n.whole

/-- The double nearest to the numeral.  An exponent that puts every digit far outside the range of
doubles gives infinity or zero at once. -/
def toDouble (n : Numeral) : Double :=
  let fraction := n.fraction.getD []
  let m := natOfDigits (n.whole ++ fraction)
  let e := n.exponent.getD 0 - fraction.length
  let top := e + (Nat.toDigits 10 m).length
  if m = 0 then Double.nearest n.negative 0
  else if 400 < top then .infinite n.negative
  else if top < -400 then Double.nearest n.negative 0
  else Double.nearest n.negative ((m : Rat) * (10 : Rat) ^ e)

end Numeral

end HookRegistry
