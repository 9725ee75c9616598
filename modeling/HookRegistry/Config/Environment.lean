import HookRegistry.Assoc
import HookRegistry.Config.Basic

/-!
# Configuration from the environment

Each field is the value given by the caller, else the value of its variable, else its default.  A
variable whose field is given is not looked at, so its spelling does not matter.
-/

namespace HookRegistry

/-- The fields that a caller gives. -/
structure ConfigFields where
  baseUrl : Option String := none
  bucket : Option String := none
  apiPath : Option String := none
  requestTimeout : Option Seconds := none
  pullInterval : Option Seconds := none
  deriving DecidableEq, Repr, Inhabited

/-- The variables of an environment. -/
abbrev Environment := List (String × String)

namespace Config

/-- A configuration from given fields, with the defaults for the others; the base address and the
bucket have none. -/
def ofFields? (f : ConfigFields) : Option Config := do
  let baseUrl ← f.baseUrl
  let bucket ← f.bucket
  let defaults : Config := { baseUrl, bucket }
  some
    { baseUrl, bucket
      apiPath := f.apiPath.getD defaults.apiPath
      requestTimeout := f.requestTimeout.getD defaults.requestTimeout
      pullInterval := f.pullInterval.getD defaults.pullInterval }

/-- A span of the environment, unless the caller gives one; the error is the text that is no
number. -/
def spanFrom (env : Environment) (name : String) (given : Option Seconds) :
    Except String (Option Seconds) :=
  match given, Assoc.get? name env with
  | some s, _ => .ok (some s)
  | none, none => .ok none
  | none, some text =>
    match Seconds.doubleOfText? text with
    | some x => .ok (some (.real x))
    | none => .error text

/-- A configuration from the environment and the fields given by the caller.  The error is the text
of a variable that should be a number and is none. -/
def fromEnvironment (env : Environment) (given : ConfigFields) : Except String Config := do
  let requestTimeout ← spanFrom env "ANCLA_REQUEST_TIMEOUT" given.requestTimeout
  let pullInterval ← spanFrom env "ANCLA_PULL_INTERVAL" given.pullInterval
  let baseUrl := (given.baseUrl.or (Assoc.get? "ANCLA_STORE_BASE_URL" env)).getD ""
  let bucket := (given.bucket.or (Assoc.get? "ANCLA_STORE_BUCKET" env)).getD ""
  let defaults : Config := { baseUrl, bucket }
  return {
    baseUrl, bucket
    apiPath := (given.apiPath.or (Assoc.get? "ANCLA_STORE_API_PATH" env)).getD defaults.apiPath
    requestTimeout := requestTimeout.getD defaults.requestTimeout
    pullInterval := pullInterval.getD defaults.pullInterval }

end Config

end HookRegistry
