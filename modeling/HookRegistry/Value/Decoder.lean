import HookRegistry.Text.Basic
import HookRegistry.Value.Checked
import HookRegistry.Value.Reader

/-!
# Reading fields out of dynamic values

What counts as a text, a whole number or a list, and which problem is reported otherwise.
-/

namespace HookRegistry.Value

/-- A text, or bytes that are one in UTF-8. -/
def toText : Value → Checked String
  | .text s => .valid s
  | .bytes data =>
    match String.fromUTF8? data with
    | some s => .valid s
    | none => .fail .invalidUtf8
  | _ => .fail .notAText

/-- A whole number as programs write it: digits without a zero in front of others, after at most a
minus sign.  A run of too many digits is noticed before what stands behind it. -/
def plainWhole (cs : List Char) : Except ProblemKind Int :=
  let (sign, body) := Numeral.splitSign cs
  let ds := body.takeWhile Char.isDigit
  if sign == some '+' || ds.isEmpty || (ds.head? == some '0' && ds.length ≠ 1) then
    .error .unreadableWhole
  else if Token.digitLimit < ds.length then .error .oversizedWhole
  else if ds.length ≠ body.length then .error .unreadableWhole
  else
    let n : Int := Numeral.natOfDigits ds
    .ok (if sign == some '-' then -n else n)

/-- Drops a point with nothing but zeros after it, at least one. -/
def dropZeroFraction (cs : List Char) : List Char :=
  let whole := cs.takeWhile (· != '.')
  match cs.dropWhile (· != '.') with
  | _ :: c :: rest => if (c :: rest).all (· == '0') then whole else cs
  | _ => cs

/-- Drops the zeros in front, with the underscores among them.  Behind a zero the number may start
anew, also with a minus sign of its own; a number of zeros alone is one zero. -/
def dropLeadingZeros? : List Char → Option (List Char)
  | [] => none
  | c :: rest =>
    if c ≠ '0' then if c.isDigit then some (c :: rest) else none
    else
      match rest.dropWhile fun d => d == '0' || d == '_' with
      | [] => if rest.getLast? = some '_' then none else some ['0']
      | d :: more => if d.isDigit || d == '-' then some (d :: more) else none

/-- Whether two underscores stand side by side. -/
def hasDoubleUnderscore : List Char → Bool
  | '_' :: '_' :: _ => true
  | _ :: rest => hasDoubleUnderscore rest
  | [] => false

/-- Drops underscores that group digits: none at the end, no two side by side. -/
def dropGrouping (cs : List Char) : List Char :=
  if hasDoubleUnderscore cs || cs.getLast? == some '_' then cs else cs.filter (· != '_')

/-- A whole number as people write it, brought into the form of `plainWhole`: blanks around it, a
plus sign, a fraction of zeros, zeros in front and grouping are dropped. -/
def tidyWhole? (cs : List Char) : Option (List Char) := do
  let (sign, body) := Numeral.splitSign (Text.strip Text.isBlank cs)
  let ds ← dropLeadingZeros? (dropZeroFraction body)
  some ((if sign == some '-' then ['-'] else []) ++ dropGrouping ds)

/-- A whole number written as text.  The length of a number is reported only where the text is
plain as it stands. -/
def wholeOfText (cs : List Char) : Checked Int :=
  match plainWhole cs with
  | .ok n => .valid n
  | .error .oversizedWhole => .fail .oversizedWhole
  | .error _ =>
    match (tidyWhole? cs).map plainWhole with
    | some (.ok n) => .valid n
    | _ => .fail .unreadableWhole

/-- A whole number given as a double: finite, without a fraction, below 2^63 in magnitude. -/
def wholeOfDouble (x : Double) : Checked Int :=
  match x.toRat? with
  | none => .fail .notFinite
  | some r =>
    if r.den ≠ 1 then .fail .fractionalWhole
    else if 1 <<< 63 ≤ r.num.natAbs then .fail .oversizedWhole
    else .valid r.num

/-- A whole number: itself, a truth value, a double without fraction, or a text. -/
def toWhole : Value → Checked Int
  | .int n => .valid n
  | .bool b => .valid (if b then 1 else 0)
  | .real x => wholeOfDouble x
  | .text s => wholeOfText s.toList
  | .bytes data =>
    match String.fromUTF8? data with
    | some s => wholeOfText s.toList
    | none => .fail .unreadableWhole
  | _ => .fail .notAWhole

/-- A list. -/
def toList : Value → Checked (List Value)
  | .list items => .valid items
  | _ => .fail .notAList

/-- A list of texts. -/
def toTexts (v : Value) : Checked (List String) :=
  v.toList.bind (Checked.traverse toText)

/-- The members of a record. -/
def toMembers : Value → Checked (List (String × Value))
  | .record members => .valid members
  | _ => .fail .notARecord

/-- Reads the member under a name, or takes the default when there is none. -/
def field {α : Type} (members : List (String × Value)) (name : String) (default : α)
    (read : Value → Checked α) : Checked α :=
  match Assoc.get? name members with
  | some v => (read v).under (.name name)
  | none => .valid default

/-- Reads a value from a JSON text given as bytes. -/
def decodeBytes {α : Type} (read : Value → Checked α) (data : ByteArray) : Checked α :=
  match ofBytes? data with
  | some v => read v
  | none => .fail .malformedText

end HookRegistry.Value
