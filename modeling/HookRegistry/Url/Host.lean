import HookRegistry.Text.Basic

/-!
# Addresses in brackets

A host in brackets is an address of the sixth version of the protocol, or one of a future version.
-/

namespace HookRegistry.Url

/-- A part of an address of the fourth version: up to three digits, at most 255, no superfluous
zero. -/
def isOctet (cs : List Char) : Bool :=
  !cs.isEmpty && cs.length ≤ 3 && cs.all Char.isDigit &&
    (cs.length == 1 || cs.head? != some '0') && Nat.ofDigitChars 10 cs 0 ≤ 255

/-- An address of the fourth version. -/
def isV4 (cs : List Char) : Bool :=
  let parts := Text.splitOn '.' cs
  parts.length == 4 && parts.all isOctet

/-- A hexadecimal digit. -/
def isHex (c : Char) : Bool :=
  c.isDigit || ('a' ≤ c && c ≤ 'f') || ('A' ≤ c && c ≤ 'F')

/-- A part of an address of the sixth version. -/
def isGroup (cs : List Char) : Bool :=
  !cs.isEmpty && cs.length ≤ 4 && cs.all isHex

/-- The groups of an address, with two groups for a last part in the notation of the fourth
version. -/
def groups? (cs : List Char) : Option (List (List Char)) :=
  let parts := Text.splitOn ':' cs
  match parts.reverse with
  | last :: front =>
    if last.contains '.' then
      if isV4 last then some (front.reverse ++ [['0'], ['0']]) else none
    else some parts
  | [] => none

/-- Drops the empty part at an end of the address, which stands there only beside another one. -/
def trimEnd (groups : List (List Char)) : Option (List (List Char)) :=
  match groups with
  | [] :: [] => some []
  | [] :: _ => none
  | groups => some groups

/-- An address of the sixth version without a zone: eight groups, or fewer with one gap. -/
def isV6Address (cs : List Char) : Bool :=
  if (Text.splitOn ':' cs).length < 3 then false
  else match groups? cs with
  | none => false
  | some groups =>
    let inner := (groups.drop 1).dropLast
    match inner.idxOf? [], inner.count [] with
    | none, _ => groups.length == 8 && groups.all isGroup
    | some i, 1 =>
      match trimEnd (groups.take (i + 1)), trimEnd (groups.drop (i + 2)).reverse with
      | some high, some low => high.length + low.length ≤ 7 && (high ++ low).all isGroup
      | _, _ => false
    | _, _ => false

/-- An address of the sixth version, perhaps with a zone after a percent sign. -/
def isV6 (cs : List Char) : Bool :=
  match Text.cut '%' cs with
  | (address, none) => isV6Address address
  | (address, some zone) => !zone.isEmpty && !zone.contains '%' && isV6Address address

/-- An address of a future version: `v`, its number in hexadecimal, a point and some text. -/
def isFuture (cs : List Char) : Bool :=
  match Text.cut '.' cs with
  | ('v' :: version, some rest) => !version.isEmpty && version.all isHex && !rest.isEmpty
  | _ => false

end HookRegistry.Url
