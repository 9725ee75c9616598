import HookRegistry.Text.Quoted
import HookRegistry.Time.Seconds
import HookRegistry.Url.Basic

/-!
# Configuration of the store client

`Config.problems` lists every rule that a configuration breaks, `Config.storeUrl` and its
companions give the addresses of the requests, and `Config.fromEnvironment` reads a configuration
from environment variables, where values given by the caller win.
-/

namespace HookRegistry

/-- Configuration of the store client. -/
structure Config where
  baseUrl : String
  /-- The part of the store that holds the items. -/
  bucket : String
  apiPath : String := "/api/v1/store"
  requestTimeout : Seconds := .real (Double.ofInt 30)
  /-- The time from one poll to the next; zero selects the default of the poller. -/
  pullInterval : Seconds := .real (Double.ofInt 5)
  deriving DecidableEq, Repr, Inhabited

/-- A rule that a configuration breaks. -/
inductive ConfigProblem where
  | emptyBaseUrl
  | unusableBaseUrl (url : String)
  | emptyApiPath
  | emptyBucket
  | timeoutNotPositive (timeout : Seconds)
  | negativeInterval (interval : Seconds)
  deriving DecidableEq, Repr

/-- The wording of a broken rule. -/
def ConfigProblem.message : ConfigProblem → String
  | .emptyBaseUrl => "empty string base_url"
  | .unusableBaseUrl url => "base_url must be an absolute http(s) URL, got " ++ Text.quoted url
  | .emptyApiPath => "empty string api_path"
  | .emptyBucket => "empty string bucket"
  | .timeoutNotPositive t => "request_timeout must be positive, got " ++ t.text
  | .negativeInterval t => "negative pull_interval " ++ t.text

namespace Config

/-- Drops the slashes at the end. -/
def dropSlashesRight (s : String) : String :=
  String.ofList (Text.stripRight (· == '/') s.toList)

/-- Drops the slashes at both ends. -/
def dropSlashes (s : String) : String :=
  String.ofList (Text.strip (· == '/') s.toList)

/-- The address of the store: the base and the path with one slash between. -/
def storeUrl (c : Config) : String :=
  dropSlashesRight c.baseUrl ++ "/" ++ dropSlashes c.apiPath

/-- The address of the bucket. -/
def bucketUrl (c : Config) : String :=
  c.storeUrl ++ "/" ++ c.bucket

/-- The address of an item. -/
def itemUrl (c : Config) (id : String) : String :=
  c.bucketUrl ++ "/" ++ id

/-- What is wrong with the base address. -/
def baseUrlProblems (c : Config) : Except UrlError (List ConfigProblem) :=
  if c.baseUrl.isEmpty then .ok [.emptyBaseUrl]
  else do
    let u ← Url.split c.baseUrl
    return if u.isAbsoluteHttp then [] else [.unusableBaseUrl c.baseUrl]

/-- A list with one problem, or none. -/
def problemIf (broken : Bool) (p : ConfigProblem) : List ConfigProblem :=
  if broken then [p] else []

/-- Every rule that the configuration breaks, in the order of its fields.  A base address without
parts ends the check. -/
def problems (c : Config) : Except UrlError (List ConfigProblem) := do
  let base ← c.baseUrlProblems
  return base ++ problemIf c.apiPath.isEmpty .emptyApiPath ++
    problemIf c.bucket.isEmpty .emptyBucket ++
    problemIf (c.requestTimeout.isNegative || c.requestTimeout.isZero)
      (.timeoutNotPositive c.requestTimeout) ++
    problemIf c.pullInterval.isNegative (.negativeInterval c.pullInterval)

end Config

end HookRegistry
