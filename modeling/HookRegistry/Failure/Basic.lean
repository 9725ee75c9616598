import HookRegistry.Config.Basic
import HookRegistry.Failure.Kind
import HookRegistry.Value.Checked

/-!
# Failures and log records

A failure is the cause for which an operation did not succeed.  A layer that passes a failure of
the layer below on wraps it, so the whole chain can be looked through.  `Failure.message` is the
one place where causes become words.

What an operation does on its way is written to a log, one record at a time.
-/

namespace HookRegistry

/-- The two calls that read an answer of the store. -/
inductive ReadCall where
  | getItems
  | removeItem
  deriving DecidableEq, Repr

/-- The part of a poller that is missing. -/
inductive MissingPart where
  | listener
  | reader
  deriving DecidableEq, Repr

/-- The cause of a failure. -/
inductive Failure where
  /-- A fault that a collaborator reported. -/
  | fault (kind : FaultKind) (text : String)
  /-- An error of the library that a collaborator built itself. -/
  | raised (kind : ErrorKind) (details : Details)
  /-- The store client is used before it was opened. -/
  | notOpen
  | badConfig (problems : List ConfigProblem)
  | badPoller (missing : List MissingPart)
  /-- A URL has no parts. -/
  | badUrl (error : UrlError)
  | emptyItemId
  | emptyItemData
  /-- The method of a request is no token. -/
  | unusableMethod (method url : String)
  /-- The URL of a request does not lead to a host. -/
  | unusableUrl (url : String)
  /-- The session would not build the request. -/
  | requestBuild (url : String) (cause : Failure)
  /-- The credentials could not be added. -/
  | authDecorator (url : String) (cause : Failure)
  /-- The session could not send the request. -/
  | requestExecution (url : String) (cause : Failure)
  /-- The body of the answer could not be read. -/
  | responseRead (url : String) (cause : Failure)
  /-- The source of credentials gave an empty token. -/
  | emptyToken
  /-- The store answered with a status that is no success. -/
  | status (code : Int) (header : String)
  | itemEncode
  | responseDecode (call : ReadCall) (problems : List Problem)
  | notStopped
  | notRunning
  /-- There is nothing that could run a task. -/
  | noScheduler
  /-- A whole number is larger than every double. -/
  | oversizedNumber
  /-- A value could not be read. -/
  | undecodable (problems : List Problem)
  /-- A value has no encoding. -/
  | unencodable
  /-- The clock names no offset. -/
  | openClock
  | webhookConversion
  | itemConversion (id : String) (problems : List Problem)
  | push (cause : Failure)
  | remove (cause : Failure)
  | fetch (cause : Failure)
  /-- A push ended without a result. -/
  | noPushResult
  deriving DecidableEq, Repr, Inhabited

namespace Failure

/-- The text that stands for what a codec has to say. -/
def codecText : String := "<pydantic>"

/-- The kind of an error of the library. -/
def kind? : Failure → Option ErrorKind
  | .raised kind _ => some kind
  | .notOpen => some .general
  | .badConfig _ | .badPoller _ => some .config
  | .emptyItemId => some .emptyItemId
  | .emptyItemData => some .emptyItemData
  | .unusableMethod _ _ | .unusableUrl _ | .requestBuild _ _ => some .requestBuild
  | .authDecorator _ _ => some .authDecorator
  | .requestExecution _ _ => some .requestExecution
  | .responseRead _ _ => some .responseRead
  | .status code _ => some (.ofStatus code)
  | .itemEncode => some .itemEncode
  | .responseDecode _ _ => some .responseDecode
  | .notStopped => some .notStopped
  | .notRunning => some .notRunning
  | .webhookConversion => some .webhookConversion
  | .itemConversion _ _ => some .itemConversion
  | .push _ => some .push
  | .remove _ => some .remove
  | .fetch _ => some .fetch
  | .noPushResult => some .pushResult
  | .fault _ _ | .badUrl _ | .emptyToken | .noScheduler | .oversizedNumber | .undecodable _
  | .unencodable | .openClock => none

/-- Whether a failure is an error of the library. -/
def isOwn (f : Failure) : Bool :=
  f.kind?.isSome

/-- The kind of fault that a failure is, when it is none of the library's errors and comes from no
codec. -/
def faultKind? : Failure → Option FaultKind
  | .fault kind _ => some kind
  | .badUrl _ | .emptyToken => some .badValue
  | .openClock => some .badType
  | .noScheduler => some .runtime
  | .oversizedNumber => some .overflow
  | _ => none

/-- The failure that this one was made from. -/
def cause? : Failure → Option Failure
  | .requestBuild _ cause | .authDecorator _ cause | .requestExecution _ cause
  | .responseRead _ cause | .push cause | .remove cause | .fetch cause => some cause
  | .itemEncode | .webhookConversion => some .unencodable
  | .responseDecode _ problems | .itemConversion _ problems => some (.undecodable problems)
  | _ => none

/-- The wording of a missing part. -/
def missingText : MissingPart → String
  | .listener => "no listener provided"
  | .reader => "no reader provided"

/-- What a failure carries beside its kind and its cause; the text is set where it is not the text
of the kind. -/
def details : Failure → Details
  | .raised _ d => d
  | .notOpen =>
    { text := some "Client not initialized. Use 'async with StoreClient(...) as client:'" }
  | .badConfig problems =>
    { text := some "ancla client configuration error"
      violations := problems.map ConfigProblem.message }
  | .badPoller missing =>
    { text := some "ancla listener configuration error"
      violations := missing.map missingText }
  | .status code header => { status := some code, header }
  | .unusableMethod method url =>
    { text := some ("failed creating an HTTP request: invalid method " ++ Text.quoted method), url }
  | .unusableUrl url =>
    { text := some ("failed creating an HTTP request: invalid URL " ++ Text.quoted url), url }
  | .requestBuild url _ | .authDecorator url _ | .requestExecution url _ | .responseRead url _ =>
    { url }
  | _ => {}

/-- The words for reading an answer. -/
def readCallText : ReadCall → String
  | .getItems => "get_items"
  | .removeItem => "remove_item"

/-- The words for a fault: a missing key is shown in quotes. -/
def faultText (kind : FaultKind) (text : String) : String :=
  if kind = .missingKey then Text.quoted text else text

/-- The words for a failure. -/
def message : Failure → String
  | .fault kind text => faultText kind text
  | .badUrl e => e.message
  | .emptyToken => "acquirer returned an empty token"
  | .openClock => "can't subtract offset-naive and offset-aware datetimes"
  | .noScheduler => "no running event loop"
  | .oversizedNumber => "int too large to convert to float"
  | .undecodable _ | .unencodable => codecText
  | .requestBuild _ cause => "failed creating an HTTP request: " ++ cause.message
  | .authDecorator _ cause => "failed decorating auth header: " ++ cause.message
  | .requestExecution _ cause =>
    "http client failed while sending request: " ++
      (match cause with
        | .fault kind text => kind.name ++ "(" ++ Text.quoted text ++ ")"
        | other => other.message)
  | .responseRead _ cause => "failed while reading http response body: " ++ cause.message
  | .itemEncode => "failed marshaling item as JSON payload: " ++ codecText
  | .responseDecode call _ =>
    readCallText call ++ ": failed unmarshaling JSON response payload: " ++ codecText
  | .webhookConversion => "failed to convert webhook to item: " ++ codecText
  | .itemConversion id _ =>
    "failed to convert item " ++ Text.quoted id ++ " to webhook: " ++ codecText
  | .push cause => "failed to add webhook to registry: " ++ cause.message
  | .remove cause => "failed to remove webhook from registry: " ++ cause.message
  | .fetch cause => "failed to fetch webhooks: " ++ cause.message
  | .noPushResult => "got a push result but was not of success type: <PushResult.NONE: ''>"
  | f =>
    match f.kind? with
    | some k => k.message f.details
    | none => ""

end Failure

/-! ## Log records -/

/-- How important a record is. -/
inductive LogLevel where
  | debug
  | error
  deriving DecidableEq, Repr

/-- The part of the library that a record comes from. -/
inductive LogSource where
  | transport
  | client
  | poller
  | watch
  | registry
  deriving DecidableEq, Repr

/-- A line of the log. -/
structure LogRecord where
  level : LogLevel
  source : LogSource
  text : String
  deriving DecidableEq, Repr

end HookRegistry
