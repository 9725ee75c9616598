import HookRegistry.Assoc

/-!
# Kinds of failure

The errors of the library form a tree, from the general to the particular, so that a caller can
handle a whole branch.  Faults are what the collaborators report: the session, the source of
credentials, a reader, a watch.
-/

namespace HookRegistry

/-- The kinds of errors of the library. -/
inductive ErrorKind where
  | general
  | config
  | itemCheck
  | emptyItemId
  | emptyItemData
  | transport
  | requestBuild
  | authDecorator
  | requestExecution
  | responseRead
  | store
  | badRequest
  | authentication
  | otherStatus
  | codec
  | itemEncode
  | responseDecode
  | pollerState
  | notStopped
  | notRunning
  | webhook
  | webhookConversion
  | itemConversion
  | push
  | remove
  | fetch
  | pushResult
  deriving DecidableEq, Repr, Inhabited

namespace ErrorKind

/-- The name under which an error is reported. -/
def name : ErrorKind → String
  | .general => "AnclaError"
  | .config => "AnclaConfigError"
  | .itemCheck => "ItemValidationError"
  | .emptyItemId => "ItemIDEmptyError"
  | .emptyItemData => "ItemDataEmptyError"
  | .transport => "AnclaTransportError"
  | .requestBuild => "RequestBuildError"
  | .authDecorator => "AuthDecoratorError"
  | .requestExecution => "RequestExecutionError"
  | .responseRead => "ResponseReadError"
  | .store => "AnclaStoreError"
  | .badRequest => "BadRequestError"
  | .authentication => "StoreAuthenticationError"
  | .otherStatus => "NonSuccessStatusError"
  | .codec => "AnclaCodecError"
  | .itemEncode => "ItemEncodeError"
  | .responseDecode => "ResponseDecodeError"
  | .pollerState => "ListenerStateError"
  | .notStopped => "ListenerNotStoppedError"
  | .notRunning => "ListenerNotRunningError"
  | .webhook => "WebhookError"
  | .webhookConversion => "WebhookConversionError"
  | .itemConversion => "ItemConversionError"
  | .push => "WebhookPushError"
  | .remove => "WebhookRemoveError"
  | .fetch => "WebhooksFetchError"
  | .pushResult => "NonSuccessPushResultError"

/-- Every kind. -/
def all : List ErrorKind :=
  [.general, .config, .itemCheck, .emptyItemId, .emptyItemData, .transport, .requestBuild,
    .authDecorator, .requestExecution, .responseRead, .store, .badRequest, .authentication,
    .otherStatus, .codec, .itemEncode, .responseDecode, .pollerState, .notStopped, .notRunning,
    .webhook, .webhookConversion, .itemConversion, .push, .remove, .fetch, .pushResult]

/-- The kind with a given name. -/
def ofName? (s : String) : Option ErrorKind :=
  all.find? fun k => k.name == s

/-- The next more general kind. -/
def parent? : ErrorKind → Option ErrorKind
  | .general => none
  | .emptyItemId | .emptyItemData => some .itemCheck
  | .requestBuild | .authDecorator | .requestExecution | .responseRead => some .transport
  | .badRequest | .authentication | .otherStatus => some .store
  | .itemEncode | .responseDecode => some .codec
  | .notStopped | .notRunning => some .pollerState
  | .webhookConversion | .itemConversion | .push | .remove | .fetch | .pushResult => some .webhook
  | .config | .itemCheck | .transport | .store | .codec | .pollerState | .webhook => some .general

/-- A kind and the more general ones above it, the most general last. -/
def lineage (k : ErrorKind) : List ErrorKind :=
  match k.parent? with
  | none => [k]
  | some p =>
    match p.parent? with
    | none => [k, p]
    | some q => [k, p, q]

/-- Whether a kind lies at or below another one. -/
def isA (k branch : ErrorKind) : Bool :=
  k.lineage.contains branch

/-- The text of an error that is built without one. -/
def defaultText : ErrorKind → String
  | .emptyItemId => "item ID is required"
  | .emptyItemData => "data field in item is required"
  | .store | .otherStatus => "item store responded with a non-success status code"
  | .badRequest => "item store rejected the request as invalid"
  | .authentication => "failed to authenticate with the item store"
  | .notStopped => "listener is either running or starting"
  | .notRunning => "listener is either stopped or stopping"
  | _ => ""

/-- The kind of error for a status that is no success. -/
def ofStatus (code : Int) : ErrorKind :=
  if code = 400 then .badRequest
  else if code = 401 ∨ code = 403 then .authentication
  else .otherStatus

/-- Two steps up from any kind there is nothing more general than the most general kind. -/
theorem general_mem_lineage (k : ErrorKind) : ErrorKind.general ∈ k.lineage := by
  cases k <;> decide

end ErrorKind

/-- What an error carries beside its kind. -/
structure Details where
  text : Option String := none
  /-- The address of the request, for errors of the transport. -/
  url : String := ""
  /-- The status of the answer, for errors of the store. -/
  status : Option Int := none
  /-- The error header of the answer, for errors of the store. -/
  header : String := ""
  /-- Every violation, for errors of the configuration. -/
  violations : List String := []
  deriving DecidableEq, Repr, Inhabited

/-- The message of an error: its text, followed by the violations of a configuration or by the
status of an answer. -/
def ErrorKind.message (k : ErrorKind) (d : Details) : String :=
  let text := d.text.getD k.defaultText
  if k.isA .config && !d.violations.isEmpty then text ++ ": " ++ "; ".intercalate d.violations
  else if k.isA .store then
    match d.status with
    | some code => text ++ ": received status " ++ toString code
    | none => text
  else text

/-- The kinds of faults that a collaborator reports. -/
inductive FaultKind where
  | badValue
  | badType
  | missingKey
  | runtime
  | overflow
  | timeout
  | os
  | http
  | httpConnection
  | httpPayload
  | httpDisconnected
  | httpTimeout
  | httpUrl
  deriving DecidableEq, Repr, Inhabited

namespace FaultKind

/-- The name under which a fault is reported. -/
def name : FaultKind → String
  | .badValue => "ValueError"
  | .badType => "TypeError"
  | .missingKey => "KeyError"
  | .runtime => "RuntimeError"
  | .overflow => "OverflowError"
  | .timeout => "TimeoutError"
  | .os => "OSError"
  | .http => "ClientError"
  | .httpConnection => "ClientConnectionError"
  | .httpPayload => "ClientPayloadError"
  | .httpDisconnected => "ServerDisconnectedError"
  | .httpTimeout => "ServerTimeoutError"
  | .httpUrl => "InvalidURL"

/-- Every kind. -/
def all : List FaultKind :=
  [.badValue, .badType, .missingKey, .runtime, .overflow, .timeout, .os, .http, .httpConnection,
    .httpPayload, .httpDisconnected, .httpTimeout, .httpUrl]

/-- The kind with a given name. -/
def ofName? (s : String) : Option FaultKind :=
  all.find? fun k => k.name == s

/-- A value that is not acceptable; an unusable address is one. -/
def isBadValue : FaultKind → Bool
  | .badValue | .httpUrl => true
  | _ => false

/-- A fault of the session, or of waiting for it. -/
def isSession : FaultKind → Bool
  | .http | .httpConnection | .httpPayload | .httpDisconnected | .httpTimeout | .httpUrl
  | .timeout => true
  | _ => false

end FaultKind

end HookRegistry
