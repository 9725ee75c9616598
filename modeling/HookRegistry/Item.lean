import HookRegistry.Value.Decoder
import HookRegistry.Value.Writer

/-!
# Items

An item is a record of the store: an id, an open payload, and how many seconds it is to live.
`Item.ofValue` reads one, `Item.write?` writes one; an item without a time to live is written
without the field.
-/

namespace HookRegistry

/-- A record of the store. -/
structure Item where
  id : String := ""
  data : List (String × Value) := []
  /-- Seconds to live; `none` leaves the expiry to the store. -/
  ttl : Option Int := none

namespace Item

/-- Reads a time to live, which may be null. -/
def ttlOfValue : Value → Checked (Option Int)
  | .null => .valid none
  | v => v.toWhole.map some

/-- Reads an item from a dynamic value. -/
def ofValue : Value → Checked Item
  | .record members =>
    mk <$> Value.field members "id" "" Value.toText
      <*> Value.field members "data" [] Value.toMembers
      <*> Value.field members "ttl" none ttlOfValue
  | _ => .fail .notAModel

/-- Reads a list of items from a dynamic value. -/
def listOfValue (v : Value) : Checked (List Item) :=
  v.toList.bind (Checked.traverse ofValue)

/-- Reads an item from JSON text. -/
def decode (data : ByteArray) : Checked Item :=
  Value.decodeBytes ofValue data

/-- Reads a list of items from JSON text. -/
def decodeList (data : ByteArray) : Checked (List Item) :=
  Value.decodeBytes listOfValue data

/-- The item as a dynamic value, in the order of the wire. -/
def toValue (item : Item) : Value :=
  .record <|
    [("id", .text item.id), ("data", .record item.data)] ++
      (match item.ttl with
        | some n => [("ttl", .int n)]
        | none => [])

/-- The wire text of an item.  Only a payload with values that have no encoding has none. -/
def write? (item : Item) : Option (List Char) :=
  item.toValue.write?

/-- The wire text of an item as a string. -/
def toText? (item : Item) : Option String :=
  item.write?.map String.ofList

end Item

end HookRegistry
