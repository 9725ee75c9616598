import HookRegistry.Exchange
import HookRegistry.Transport.Credentials

/-!
# Transport of requests

`Transport.send` turns a request to the store into a request to the session, and the reply of the
session into an answer of the store.  Nothing is sent twice, and nothing is kept from one request
to the next.
-/

namespace HookRegistry

/-- A request to the store. -/
structure StoreRequest where
  method : String
  url : String
  owner : String := ""
  body : Option ByteArray := none
  /-- Overrides the timeout of the transport. -/
  timeout : Option Seconds := none

/-- An answer of the store. -/
structure StoreResponse where
  status : Int
  errorHeader : String := ""
  body : ByteArray := ByteArray.empty

/-- A request as the session gets it. -/
structure SessionRequest where
  method : String
  url : String
  body : Option ByteArray
  headers : Headers
  timeout : Seconds

/-- What the session reports about a request. -/
inductive Reply where
  /-- The request could not be sent. -/
  | refused (f : Failure)
  /-- An answer came; its body may turn out to be unreadable. -/
  | answered (status : Int) (headers : Headers) (body : Except Failure ByteArray)

/-- What a transport is set up with. -/
structure Transport where
  decorate : Option Decorator := none
  requestTimeout : Seconds := .real (Double.ofInt 30)

namespace Transport

/-- The name that requests are sent under. -/
def userAgent : String := "pyancla"

/-- The header that names the owner of an item. -/
def ownerHeader : String := "X-Xmidt-Owner"

/-- The header in which the store explains an error. -/
def errorHeader : String := "X-Xmidt-Error"

/-- The characters of a token. -/
def isTokenChar (c : Char) : Bool :=
  c.isAlphanum ||
    ['!', '#', '$', '%', '&', '\'', '*', '+', '-', '.', '^', '_', '\x60', '|', '~'].contains c

/-- Whether a text is accepted as a method: a token, with at most one line feed behind it. -/
def isMethod (s : String) : Bool :=
  let cs := s.toList
  let token := if cs.getLast? = some '\n' then cs.dropLast else cs
  !token.isEmpty && token.all isTokenChar

/-- Checks method and URL. -/
def check (method url : String) : Except Failure Unit :=
  if !isMethod method then .error (.unusableMethod method url)
  else
    match Url.split url with
    | .error e => .error (.badUrl e)
    | .ok u => if u.isAbsoluteHttp then .ok () else .error (.unusableUrl url)

/-- The headers before credentials are added. -/
def plainHeaders (r : StoreRequest) : Headers :=
  [("user-agent", userAgent)] ++
    (if r.body.isSome then [("content-type", "application/json")] else []) ++
    (if r.owner.isEmpty then [] else [(ownerHeader, r.owner)])

/-- The request for the session, when method, URL and credentials are in order. -/
def prepare (t : Transport) (r : StoreRequest) : Except Failure SessionRequest := do
  check r.method r.url
  let decorated : Headers × Except Failure Unit :=
    match t.decorate with
    | none => (plainHeaders r, .ok ())
    | some decorate => decorate (plainHeaders r)
  match decorated.2 with
  | .error f => .error (.authDecorator r.url f)
  | .ok () =>
    .ok
      { method := r.method, url := r.url, body := r.body, headers := decorated.1
        timeout := r.timeout.getD t.requestTimeout }

/-- Whether a failure reports an unacceptable value. -/
def isBadValue (f : Failure) : Bool :=
  match f.faultKind? with
  | some k => k.isBadValue
  | none => f.kind?.any fun k => k.isA .itemCheck

/-- Whether a failure comes from the session or from waiting for it. -/
def isSessionFault (f : Failure) : Bool :=
  f.faultKind?.any FaultKind.isSession

/-- The failure for a request that could not be sent. -/
def sendFailure (url : String) (f : Failure) : Failure :=
  if isBadValue f then .requestBuild url f
  else if isSessionFault f then .requestExecution url f
  else f

/-- The failure for a body that could not be read. -/
def readFailure (url : String) (f : Failure) : Failure :=
  if isSessionFault f then .responseRead url f
  else if isBadValue f then .requestBuild url f
  else f

/-- The value of a header of an answer, where the case of a name does not count. -/
def headerValue (name : String) (headers : Headers) : String :=
  match headers.find? fun h => h.1.toLower == name.toLower with
  | some h => h.2
  | none => ""

/-- The answer of the store that a reply holds. -/
def receive (url : String) : Reply → Except Failure StoreResponse
  | .refused f => .error (sendFailure url f)
  | .answered status headers body =>
    match body with
    | .error f => .error (readFailure url f)
    | .ok body => .ok { status, errorHeader := headerValue errorHeader headers, body }

/-- Sends one request. -/
def send (t : Transport) (r : StoreRequest) : Exchange SessionRequest Reply StoreResponse :=
  match t.prepare r with
  | .error f => .fail f
  | .ok q =>
    .asks q [⟨.debug, .transport, r.method ++ " " ++ r.url⟩] fun reply =>
      { result := receive r.url reply }

end Transport

end HookRegistry
