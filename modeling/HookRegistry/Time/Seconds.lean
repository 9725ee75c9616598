import HookRegistry.Double.Numeral
import HookRegistry.Double.Text
import HookRegistry.Text.Basic
import HookRegistry.Value.Writer

/-!
# Spans of seconds

A span in a configuration is a whole number or a double, and is shown as it was given.
`Seconds.ofText?` reads the spelling of a double in an environment variable.
-/

namespace HookRegistry

/-- A span of seconds as it was given. -/
inductive Seconds where
  | whole (n : Int)
  | real (x : Double)
  deriving DecidableEq, Repr, Inhabited

namespace Seconds

/-- A span as messages show it. -/
def text : Seconds → String
  | .whole n => String.ofList (Value.intLiteral n)
  | .real x => String.ofList (x.text Double.messageStyle)

/-- Greater than zero; `nan` is not. -/
def isPositive : Seconds → Bool
  | .whole n => 0 < n
  | .real x => x.isPositive

/-- Less than zero; `nan` is not. -/
def isNegative : Seconds → Bool
  | .whole n => n < 0
  | .real x => x.isNegative

/-- Equal to zero. -/
def isZero : Seconds → Bool
  | .whole n => n == 0
  | .real x => x.isZero

/-- The exact length of a finite span. -/
def toRat? : Seconds → Option Rat
  | .whole n => some n
  | .real x => x.toRat?

/-- The nearest double. -/
def toDouble : Seconds → Double
  | .whole n => Double.ofInt n
  | .real x => x

/-- A character of a number in ASCII: blanks and decimal digits of any script are replaced, and
what has no replacement becomes a character of no number. -/
def asciiChar (c : Char) : Char :=
  if c.toNat < 0x7F then c
  else if Text.isBlank c then ' '
  else (Text.asciiDigit? c).getD '?'

/-- Drops underscores, each of which has to stand between two digits. -/
def dropUnderscores? : List Char → Option (List Char)
  | [] => some []
  | '_' :: _ => none
  | [c] => some [c]
  | c :: '_' :: d :: rest =>
    if c.isDigit && d.isDigit then (dropUnderscores? (d :: rest)).map (c :: ·) else none
  | c :: rest => (dropUnderscores? rest).map (c :: ·)

/-- A word for a number that is not finite, after its sign. -/
def special? (negative : Bool) (word : List Char) : Option Double :=
  match String.ofList (word.map Char.toLower) with
  | "inf" | "infinity" => some (.infinite negative)
  | "nan" => some .nan
  | _ => none

/-- A double as a person spells it: blanks around it, a sign, digits of any script with single
underscores between them, a point, an exponent, or a word for infinity or no number. -/
def doubleOfText? (s : String) : Option Double := do
  let cs ← dropUnderscores? (Text.strip Text.isAsciiBlank (s.toList.map asciiChar))
  let (sign, word) := Numeral.splitSign cs
  (special? (sign == some '-') word).or ((Numeral.ofChars? cs).map Numeral.toDouble)

end Seconds

end HookRegistry
