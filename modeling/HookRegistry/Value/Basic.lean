import HookRegistry.Assoc
import HookRegistry.Double.Basic

/-!
# Dynamic values

The payload of an item is open: any JSON value, and, when a program builds the item itself, also
raw bytes and values that have no encoding at all.
-/

namespace HookRegistry

/-- A dynamic value.  The members of a record have distinct names, in order. -/
inductive Value where
  | null
  | bool (b : Bool)
  | int (n : Int)
  | real (x : Double)
  | text (s : String)
  | list (items : List Value)
  | record (members : List (String × Value))
  | bytes (data : ByteArray)
  | foreign
  deriving Inhabited

namespace Value

/-- The member of a record under a name; other values have none. -/
def member? (name : String) : Value → Option Value
  | .record members => Assoc.get? name members
  | _ => none

end Value

end HookRegistry
