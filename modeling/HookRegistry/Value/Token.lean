import HookRegistry.Double.Numeral
import HookRegistry.Value.Basic

/-!
# The tokens of JSON text

`Token.scan?` is an automaton that takes one step for each character.  Beside strict JSON the words
`NaN`, `Infinity` and `-Infinity` are numbers.
-/

namespace HookRegistry

/-- The tokens of JSON text. -/
inductive Token where
  | openList
  | closeList
  | openRecord
  | closeRecord
  | comma
  | colon
  | text (s : String)
  | word (v : Value)

namespace Token

/-- The white space of JSON. -/
def isSpace (c : Char) : Bool :=
  c == ' ' || c == '\t' || c == '\n' || c == '\r'

/-- The characters that numbers and literal words are made of. -/
def isWordChar (c : Char) : Bool :=
  c.isAlphanum || c == '+' || c == '-' || c == '.'

/-- The greatest number of digits before the point of a number. -/
def digitLimit : Nat := 4300

/-- A number as JSON writes it: no plus sign, no superfluous zero in front, digits on both sides
of a point, and a limited number of digits before it.  Without point and exponent it is a whole
number. -/
def number? (cs : List Char) : Option Value :=
  match Numeral.ofChars? cs with
  | none => none
  | some n =>
    if n.sign == some '+' || n.whole.isEmpty || n.fraction == some [] then none
    else if n.whole.head? == some '0' && n.whole.length ≠ 1 then none
    else if digitLimit < n.whole.length then none
    else if n.isWhole then some (.int n.toInt)
    else some (.real n.toDouble)

/-- The value of a maximal run of word characters: a literal word or a number. -/
def wordValue? : List Char → Option Value
  | ['n', 'u', 'l', 'l'] => some .null
  | ['t', 'r', 'u', 'e'] => some (.bool true)
  | ['f', 'a', 'l', 's', 'e'] => some (.bool false)
  | ['N', 'a', 'N'] => some (.real .nan)
  | ['I', 'n', 'f', 'i', 'n', 'i', 't', 'y'] => some (.real (.infinite false))
  | ['-', 'I', 'n', 'f', 'i', 'n', 'i', 't', 'y'] => some (.real (.infinite true))
  | cs => number? cs

/-- The token of a maximal run of word characters. -/
def ofWord? (cs : List Char) : Option Token :=
  (wordValue? cs).map .word

/-- Where the scanner stands.  What has been read of a token is kept in reverse. -/
inductive Scan where
  | between
  | inWord (read : List Char)
  | inText (read : List Char)
  | escape (read : List Char)
  /-- Inside a `\u` escape, after `count` digits with the value `code`; `high` is the surrogate
  before it, if there was one. -/
  | code (read : List Char) (high : Option Nat) (count code : Nat)
  | lowHalf (read : List Char) (high : Nat)
  | lowEscape (read : List Char) (high : Nat)

/-- A step between tokens: the token that a character is on its own, and where it leads. -/
def start? (c : Char) : Option (List Token × Scan) :=
  if isSpace c then some ([], .between)
  else match c with
    | '[' => some ([.openList], .between)
    | ']' => some ([.closeList], .between)
    | '{' => some ([.openRecord], .between)
    | '}' => some ([.closeRecord], .between)
    | ',' => some ([.comma], .between)
    | ':' => some ([.colon], .between)
    | '"' => some ([], .inText [])
    | c => if isWordChar c then some ([], .inWord [c]) else none

/-- The character that a one letter escape stands for. -/
def unescape? : Char → Option Char
  | '"' => some '"'
  | '\\' => some '\\'
  | '/' => some '/'
  | 'b' => some '\x08'
  | 'f' => some '\x0c'
  | 'n' => some '\n'
  | 'r' => some '\r'
  | 't' => some '\t'
  | _ => none

/-- The value of a hexadecimal digit. -/
def hexDigit? (c : Char) : Option Nat :=
  if '0' ≤ c ∧ c ≤ '9' then some (c.toNat - '0'.toNat)
  else if 'a' ≤ c ∧ c ≤ 'f' then some (c.toNat - 'a'.toNat + 10)
  else if 'A' ≤ c ∧ c ≤ 'F' then some (c.toNat - 'A'.toNat + 10)
  else none

/-- A complete code unit of a `\u` escape.  A surrogate has a meaning only in a pair. -/
def codeUnit? (read : List Char) (high : Option Nat) (unit : Nat) : Option Scan :=
  let isHigh := 0xD800 ≤ unit && unit < 0xDC00
  let isLow := 0xDC00 ≤ unit && unit < 0xE000
  match high with
  | some h =>
    if isLow then
      some (.inText (Char.ofNat (0x10000 + (h - 0xD800) * 0x400 + (unit - 0xDC00)) :: read))
    else none
  | none =>
    if isHigh then some (.lowHalf read unit)
    else if isLow then none
    else some (.inText (Char.ofNat unit :: read))

/-- One step of the scanner: the tokens completed by a character, and where it stands after. -/
def step? (s : Scan) (c : Char) : Option (List Token × Scan) :=
  match s with
  | .between => start? c
  | .inWord read =>
    if isWordChar c then some ([], .inWord (c :: read))
    else do
      let t ← ofWord? read.reverse
      let (ts, s) ← start? c
      some (t :: ts, s)
  | .inText read =>
    if c = '"' then some ([.text (String.ofList read.reverse)], .between)
    else if c = '\\' then some ([], .escape read)
    else if c.toNat < 0x20 then none
    else some ([], .inText (c :: read))
  | .escape read =>
    if c = 'u' then some ([], .code read none 0 0)
    else (unescape? c).map fun d => ([], .inText (d :: read))
  | .code read high count code => do
    let d ← hexDigit? c
    let code := code * 16 + d
    if count = 3 then (codeUnit? read high code).map fun s => ([], s)
    else some ([], .code read high (count + 1) code)
  | .lowHalf read high => if c = '\\' then some ([], .lowEscape read high) else none
  | .lowEscape read high => if c = 'u' then some ([], .code read (some high) 0 0) else none

/-- The end of the text: a word may end there, a text may not. -/
def finish? : Scan → Option (List Token)
  | .between => some []
  | .inWord read => (ofWord? read.reverse).map ([·])
  | _ => none

/-- One step that puts the completed tokens before those read so far, which are in reverse. -/
def advance? (st : List Token × Scan) (c : Char) : Option (List Token × Scan) :=
  (step? st.2 c).map fun r => (r.1.reverse ++ st.1, r.2)

/-- The tokens of a text. -/
def scan? (cs : List Char) : Option (List Token) := do
  let (done, s) ← cs.foldlM advance? ([], .between)
  let last ← finish? s
  some (done.reverse ++ last)

end Token

end HookRegistry
