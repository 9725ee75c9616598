import HookRegistry.Assoc
import HookRegistry.Failure.Basic
import HookRegistry.Text.Base64

/-!
# Credentials

A decorator adds credentials to the headers of a request.  It may fail, and may have changed the
headers by then.
-/

namespace HookRegistry

/-- Headers by name; here the case of a name counts. -/
abbrev Headers := List (String × String)

/-- Adds credentials to the headers of a request. -/
abbrev Decorator := Headers → Headers × Except Failure Unit

namespace Credentials

/-- The header that carries credentials. -/
def headerName : String := "Authorization"

/-- The value of the header for a user name and a password. -/
def basicValue (username password : String) : String :=
  "Basic " ++ String.ofList (Base64.encode (username ++ ":" ++ password).toUTF8.toList)

/-- Credentials from a user name and a password. -/
def basic (username password : String) : Decorator := fun headers =>
  (Assoc.put headerName (basicValue username password) headers, .ok ())

/-- Credentials from a token, which is acquired for each request and must not be empty. -/
def bearer (acquire : Except Failure String) : Decorator := fun headers =>
  match acquire with
  | .error f => (headers, .error f)
  | .ok token =>
    if token.isEmpty then (headers, .error .emptyToken)
    else (Assoc.put headerName ("Bearer " ++ token) headers, .ok ())

/-- A decorator that sets the header and fails afterwards. -/
def interrupted (value : String) (f : Failure) : Decorator := fun headers =>
  (Assoc.put headerName value headers, .error f)

end Credentials

end HookRegistry
