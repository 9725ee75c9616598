import HookRegistry.Double.Text
import HookRegistry.Text.Quoted
import HookRegistry.Value.Basic

/-!
# Writing JSON text

Compact text, without white space, members in order.  Bytes are written as the text they are in
UTF-8; bytes that are no UTF-8, and values without an encoding, make the whole value unwritable.
A message shows a value in another form, which every value has.
-/

namespace HookRegistry.Value

/-- A character inside a JSON text: quote, backslash and controls are escaped, all else is raw. -/
def escapedChar (c : Char) : List Char :=
  if c = '"' then ['\\', '"']
  else if c = '\\' then ['\\', '\\']
  else if c = '\x08' then ['\\', 'b']
  else if c = '\t' then ['\\', 't']
  else if c = '\n' then ['\\', 'n']
  else if c = '\x0c' then ['\\', 'f']
  else if c = '\r' then ['\\', 'r']
  else if c.toNat < 0x20 then '\\' :: 'u' :: Text.hexPadded 4 c.toNat
  else [c]

/-- A JSON text literal. -/
def textLiteral (s : String) : List Char :=
  '"' :: s.toList.flatMap escapedChar ++ ['"']

/-- A whole number. -/
def intLiteral (n : Int) : List Char :=
  if n < 0 then '-' :: Nat.toDigits 10 n.natAbs else Nat.toDigits 10 n.natAbs

mutual

/-- The text of a value, when it has one. -/
def write? : Value → Option (List Char)
  | .null => some ['n', 'u', 'l', 'l']
  | .bool true => some ['t', 'r', 'u', 'e']
  | .bool false => some ['f', 'a', 'l', 's', 'e']
  | .int n => some (intLiteral n)
  | .real x => some (x.text Double.wireStyle)
  | .text s => some (textLiteral s)
  | .list [] => some ['[', ']']
  | .list (v :: vs) => do
    let first ← write? v
    let rest ← writeItems? vs
    some ('[' :: first ++ rest ++ [']'])
  | .record [] => some ['{', '}']
  | .record ((name, v) :: ms) => do
    let first ← write? v
    let rest ← writeMembers? ms
    some ('{' :: textLiteral name ++ ':' :: first ++ rest ++ ['}'])
  | .bytes data => (String.fromUTF8? data).map textLiteral
  | .foreign => none

/-- The items of a list after the first, each after a comma. -/
def writeItems? : List Value → Option (List Char)
  | [] => some []
  | v :: vs => do
    let first ← write? v
    let rest ← writeItems? vs
    some (',' :: first ++ rest)

/-- The members of a record after the first, each after a comma. -/
def writeMembers? : List (String × Value) → Option (List Char)
  | [] => some []
  | (name, v) :: ms => do
    let first ← write? v
    let rest ← writeMembers? ms
    some (',' :: textLiteral name ++ ':' :: first ++ rest)

end

/-- The text of a value as a string, when it has one. -/
def toText? (v : Value) : Option String :=
  v.write?.map String.ofList

/-! ## Values in messages -/

mutual

/-- A value as a message shows it. -/
def shown : Value → String
  | .null => "None"
  | .bool true => "True"
  | .bool false => "False"
  | .int n => String.ofList (intLiteral n)
  | .real x => String.ofList (x.text Double.messageStyle)
  | .text s => Text.quoted s
  | .list items => "[" ++ ", ".intercalate (shownItems items) ++ "]"
  | .record members => "\x7b" ++ ", ".intercalate (shownMembers members) ++ "\x7d"
  | .bytes _ => "<bytes>"
  | .foreign => "<object>"

/-- The items of a list as a message shows them. -/
def shownItems : List Value → List String
  | [] => []
  | v :: vs => shown v :: shownItems vs

/-- The members of a record as a message shows them. -/
def shownMembers : List (String × Value) → List String
  | [] => []
  | (name, v) :: ms => (Text.quoted name ++ ": " ++ shown v) :: shownMembers ms

end

end HookRegistry.Value
