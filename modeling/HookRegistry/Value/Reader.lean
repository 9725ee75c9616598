import HookRegistry.Value.Token

/-!
# Reading JSON text

`Value.ofTokens?` is a pushdown automaton over the tokens, whose stack holds the lists and records
that are still open; it takes one step for each token.  A name that is given twice in a record
keeps its first place and its last value.
-/

namespace HookRegistry

namespace Value

/-- A list or record that is open, with what it holds so far; the items are in reverse. -/
inductive Frame where
  | list (items : List Value)
  | member (members : List (String × Value)) (name : String)

/-- What may follow. -/
inductive Expect where
  | value
  | firstItem
  | afterItem (items : List Value)
  | firstName
  | name (members : List (String × Value))
  | colon (members : List (String × Value)) (name : String)
  | afterMember (members : List (String × Value))
  | finished (v : Value)

/-- The state of the reader: the open containers, the innermost first, and what may follow. -/
structure Reading where
  stack : List Frame
  expect : Expect

/-- The greatest number of containers that may lie in each other, an empty one not counted. -/
def depthLimit : Nat := 200

/-- Puts a complete value where the reader stands. -/
def deliver (v : Value) : List Frame → Reading
  | [] => { stack := [], expect := .finished v }
  | .list items :: stack => { stack, expect := .afterItem (v :: items) }
  | .member members name :: stack => { stack, expect := .afterMember (Assoc.put name v members) }

/-- A step where a value must follow. -/
def startValue? (stack : List Frame) : Token → Option Reading
  | .word v => some (deliver v stack)
  | .text s => some (deliver (.text s) stack)
  | .openList => some ⟨stack, .firstItem⟩
  | .openRecord => some ⟨stack, .firstName⟩
  | _ => none

/-- One step of the reader. -/
def read? (r : Reading) (t : Token) : Option Reading :=
  match r.expect, t with
  | .value, t => startValue? r.stack t
  | .firstItem, .closeList => some (deliver (.list []) r.stack)
  | .firstItem, t =>
    if r.stack.length < depthLimit then startValue? (.list [] :: r.stack) t else none
  | .afterItem items, .comma => some ⟨.list items :: r.stack, .value⟩
  | .afterItem items, .closeList => some (deliver (.list items.reverse) r.stack)
  | .firstName, .closeRecord => some (deliver (.record []) r.stack)
  | .firstName, .text s =>
    if r.stack.length < depthLimit then some ⟨r.stack, .colon [] s⟩ else none
  | .name members, .text s => some ⟨r.stack, .colon members s⟩
  | .colon members name, .colon => some ⟨.member members name :: r.stack, .value⟩
  | .afterMember members, .comma => some ⟨r.stack, .name members⟩
  | .afterMember members, .closeRecord => some (deliver (.record members) r.stack)
  | _, _ => none

/-- The value that a complete run of tokens denotes. -/
def ofTokens? (ts : List Token) : Option Value := do
  let r ← ts.foldlM read? ⟨[], .value⟩
  match r.expect with
  | .finished v => some v
  | _ => none

/-- The value of a JSON text. -/
def ofText? (s : String) : Option Value :=
  (Token.scan? s.toList).bind ofTokens?

/-- The value of a JSON text given as bytes, which have to be UTF-8. -/
def ofBytes? (data : ByteArray) : Option Value :=
  (String.fromUTF8? data).bind ofText?

end Value

end HookRegistry
