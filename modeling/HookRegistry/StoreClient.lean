import HookRegistry.Item
import HookRegistry.Transport.Basic

/-!
# The store client

The client has three operations, each of which asks its transport at most once: `getItems`,
`pushItem` and `removeItem`.  `enter` and `close` manage what it talks through: a session or a
transport that was handed in is never closed or dropped, a session of its own is closed by the next
`close`.
-/

namespace HookRegistry

/-- How a push ended. -/
inductive PushResult where
  | created
  | updated
  | nothing
  deriving DecidableEq, Repr, Inhabited

/-- The word for the result of a push. -/
def PushResult.text : PushResult → String
  | .created => "created"
  | .updated => "updated"
  | .nothing => ""

/-- The result with a given word. -/
def PushResult.ofText? (s : String) : Option PushResult :=
  [PushResult.created, .updated, .nothing].find? fun r => r.text == s

/-- What a client talks through. -/
inductive Channel where
  /-- A transport that was handed in. -/
  | injected
  /-- A transport of its own over the session with this number. -/
  | session (number : Nat)
  deriving DecidableEq, Repr

/-- The sessions that exist, by number, and how often each has been closed. -/
abbrev Sessions := List Nat

/-- A client of the store. -/
structure StoreClient where
  config : Config
  decorate : Option Decorator := none
  sessionInjected : Bool := false
  transportInjected : Bool := false
  session : Option Nat := none
  channel : Option Channel := none

namespace StoreClient

/-! ## Opening and closing -/

/-- A client for a configuration that breaks no rule. -/
def create (config : Config) (decorate : Option Decorator) (session : Option Nat)
    (transportInjected : Bool) : Except Failure StoreClient :=
  match config.problems with
  | .error e => .error (.badUrl e)
  | .ok [] =>
    .ok
      { config, decorate, transportInjected, session
        sessionInjected := session.isSome
        channel := if transportInjected then some .injected else none }
  | .ok problems => .error (.badConfig problems)

/-- Opens the client, with a new session unless there is one. -/
def enter (c : StoreClient) (sessions : Sessions) : StoreClient × Sessions :=
  match c.channel with
  | some _ => (c, sessions)
  | none =>
    match c.session with
    | some n => ({ c with channel := some (.session n) }, sessions)
    | none =>
      let n := sessions.length
      ({ c with session := some n, channel := some (.session n) }, sessions ++ [0])

/-- Closes the client, and its session when it is its own. -/
def close (c : StoreClient) (sessions : Sessions) : StoreClient × Sessions :=
  let (c, sessions) := match c.sessionInjected, c.session with
    | false, some n => ({ c with session := none }, sessions.modify n (· + 1))
    | _, _ => (c, sessions)
  (if c.transportInjected then c else { c with channel := none }, sessions)

/-- The transport of the client itself. -/
def transport (c : StoreClient) : Transport where
  decorate := c.decorate
  requestTimeout := c.config.requestTimeout

/-! ## Operations -/

/-- An operation of the client: it asks the store at most once. -/
abbrev Operation (α : Type) := Exchange StoreRequest (Except Failure StoreResponse) α

/-- Puts a request, when the client is open. -/
def ask {α : Type} (c : StoreClient) (r : StoreRequest)
    (finish : StoreResponse → Outcome α) : Operation α :=
  match c.channel with
  | none => .fail .notOpen
  | some _ =>
    .asks r [] fun
      | .error f => { result := .error f }
      | .ok response => finish response

/-- The end of an operation whose answer has another status than hoped for. -/
def refused {α : Type} (text : String) (r : StoreResponse) : Outcome α where
  result := .error (.status r.status r.errorHeader)
  log := [⟨.error, .client,
    text ++ ": code=" ++ toString r.status ++ " errorHeader=" ++ r.errorHeader⟩]

/-- Whether a body is the word `null`, with blanks of the ASCII range around it. -/
def isNullBody (body : ByteArray) : Bool :=
  Text.strip Text.isAsciiBlank (body.toList.map fun b => Char.ofNat b.toNat) == ['n', 'u', 'l', 'l']

/-- The items of an answer; a bucket without items may come as `null`. -/
def itemsOfBody (body : ByteArray) : Except Failure (List Item) :=
  if isNullBody body then .ok []
  else
    match Item.decodeList body with
    | .valid items => .ok items
    | .invalid problems => .error (.responseDecode .getItems problems)

/-- Fetches all items of the bucket; an empty owner asks for the items of every owner. -/
def getItems (c : StoreClient) (owner : String := "") (timeout : Option Seconds := none) :
    Operation (List Item) :=
  c.ask { method := "GET", url := c.config.bucketUrl, owner, timeout } fun r =>
    if r.status = 200 then { result := itemsOfBody r.body }
    else refused "Item store responded with non-200 response for get_items request" r

/-- Checks that an item can be pushed. -/
def checkItem (item : Item) : Except Failure Unit :=
  if item.id.isEmpty then .error .emptyItemId
  else if item.data.isEmpty then .error .emptyItemData
  else .ok ()

/-- Creates an item, or replaces the one with its id. -/
def pushItem (c : StoreClient) (owner : String) (item : Item) (timeout : Option Seconds := none) :
    Operation PushResult :=
  match checkItem item with
  | .error f => .fail f
  | .ok () =>
    match item.toText? with
    | none => .fail .itemEncode
    | some text =>
      c.ask
        { method := "PUT", url := c.config.itemUrl item.id, owner, body := some text.toUTF8, timeout }
        fun r =>
          if r.status = 201 then { result := .ok .created }
          else if r.status = 200 then { result := .ok .updated }
          else
            refused
              "Item store responded with a non-successful status code for a push_item request" r

/-- Removes an item and gives back the copy in the answer. -/
def removeItem (c : StoreClient) (id owner : String) (timeout : Option Seconds := none) :
    Operation Item :=
  if id.isEmpty then .fail .emptyItemId
  else
    c.ask { method := "DELETE", url := c.config.itemUrl id, owner, timeout } fun r =>
      if r.status = 200 then
        match Item.decode r.body with
        | .valid item => { result := .ok item }
        | .invalid problems => { result := .error (.responseDecode .removeItem problems) }
      else
        refused
          "Item store responded with a non-successful status code for a remove_item request" r

end StoreClient

end HookRegistry
