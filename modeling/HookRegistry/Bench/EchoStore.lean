import HookRegistry.StoreClient

/-!
# A store that keeps what it is given

The store keeps the bodies of items by id, in the order in which the ids first came.  It answers a
fetch with the list of the bodies, a push with 201 for a new id and 200 for one that it replaces in
its place, and a removal with the body, or 404.
-/

namespace HookRegistry.Bench

/-- A store. -/
structure EchoStore where
  items : List (String × String) := []
  /-- The reply to every request, when set. -/
  failing : Option Reply := none
  /-- The body of every fetch, when set. -/
  raw : Option String := none

namespace EchoStore

/-- The id in an address: what follows the last slash. -/
def idOfUrl (url : String) : String :=
  String.ofList (Text.afterLast '/' url.toList)

/-- The body of a fetch. -/
def listBody (items : List (String × String)) : String :=
  "[" ++ ",".intercalate (items.map (·.2)) ++ "]"

/-- The text of a body. -/
def bodyText (body : Option ByteArray) : String :=
  (body.bind String.fromUTF8?).getD ""

/-- The reply to a request, by its method. -/
def reply (s : EchoStore) (method url : String) (body : Option ByteArray) : Reply × EchoStore :=
  let id := idOfUrl url
  if method = "GET" then
    (.answered 200 [] (.ok (s.raw.getD (listBody s.items)).toUTF8), s)
  else if method = "PUT" then
    let status := if Assoc.contains id s.items then 200 else 201
    (.answered status [] (.ok ByteArray.empty),
      { s with items := Assoc.put id (bodyText body) s.items })
  else
    match Assoc.get? id s.items with
    | some text => (.answered 200 [] (.ok text.toUTF8), { s with items := Assoc.erase id s.items })
    | none =>
      (.answered 404 [(Transport.errorHeader, "item not found")] (.ok ByteArray.empty), s)

/-- Handles a request of a session. -/
def handle (s : EchoStore) (r : SessionRequest) : Reply × EchoStore :=
  match s.failing with
  | some reply => (reply, s)
  | none => s.reply r.method r.url r.body

end EchoStore

end HookRegistry.Bench
