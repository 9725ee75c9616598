import HookRegistry.Text.Quoted
import HookRegistry.Url.Host

/-!
# Splitting a URL

A URL is split into scheme, network location, path, query and fragment.  Before that the
characters up to the space are dropped from its front, and tabs and line ends everywhere.
-/

namespace HookRegistry

/-- The parts of a URL. -/
structure Url where
  scheme : List Char
  netloc : List Char
  path : List Char
  query : List Char
  fragment : List Char
  deriving DecidableEq, Repr

/-- Why a text has no parts. -/
inductive UrlError where
  /-- A bracket without its partner, or text beside a host in brackets. -/
  | brackets
  /-- The text in brackets is no address. -/
  | address (host : List Char)
  /-- An address of the fourth version in brackets. -/
  | bracketedV4
  /-- An address of a future version without its parts. -/
  | future
  /-- A character of the network location is compatible with a delimiter. -/
  | delimiter (netloc : List Char)
  deriving DecidableEq, Repr

/-- The wording of an error. -/
def UrlError.message : UrlError → String
  | .brackets => "Invalid IPv6 URL"
  | .address host =>
    Text.quoted (String.ofList host) ++ " does not appear to be an IPv4 or IPv6 address"
  | .bracketedV4 => "An IPv4 address cannot be in brackets"
  | .future => "IPvFuture address is invalid"
  | .delimiter netloc =>
    "netloc '" ++ String.ofList netloc ++ "' contains invalid characters under NFKC normalization"

namespace Url

/-- The characters dropped wherever they stand. -/
def isDropped (c : Char) : Bool :=
  c == '\t' || c == '\n' || c == '\r'

/-- The text that is split. -/
def clean (cs : List Char) : List Char :=
  (cs.dropWhile (· ≤ ' ')).filter fun c => !isDropped c

/-- A character of a scheme. -/
def isSchemeChar (c : Char) : Bool :=
  c.isAlphanum || c == '+' || c == '-' || c == '.'

/-- A scheme: a letter, then letters, digits and signs. -/
def isScheme : List Char → Bool
  | [] => false
  | c :: rest => c.isAlpha && rest.all isSchemeChar

/-- Splits the scheme off, in lower case. -/
def splitScheme (cs : List Char) : List Char × List Char :=
  match Text.cut ':' cs with
  | (name, some rest) => if isScheme name then (name.map Char.toLower, rest) else ([], cs)
  | (_, none) => ([], cs)

/-- The characters that end the network location. -/
def endsNetloc (c : Char) : Bool :=
  c == '/' || c == '?' || c == '#'

/-- Splits the network location off, which follows two slashes. -/
def splitNetloc : List Char → List Char × List Char
  | '/' :: '/' :: rest =>
    (rest.takeWhile fun c => !endsNetloc c, rest.dropWhile fun c => !endsNetloc c)
  | rest => ([], rest)

/-- Checks the address of a host that stands in brackets. -/
def checkAddress (host : List Char) : Except UrlError Unit :=
  if host.head? == some 'v' then
    if isFuture host then .ok () else .error .future
  else if isV4 host then .error .bracketedV4
  else if isV6 host then .ok ()
  else .error (.address host)

/-- Checks the brackets of a network location: both or none, and around the whole host. -/
def checkBrackets (netloc : List Char) : Except UrlError Unit :=
  match netloc.contains '[', netloc.contains ']' with
  | false, false => .ok ()
  | true, true =>
    let hostAndPort := Text.afterLast '@' netloc
    match Text.cut '[' hostAndPort with
    | (before, some bracketed) =>
      if !before.isEmpty then .error .brackets
      else
        let (host, after) := Text.cut ']' bracketed
        let port := after.getD []
        if !port.isEmpty && port.head? != some ':' then .error .brackets else checkAddress host
    | (host, none) => checkAddress (Text.cut ':' host).1
  | _, _ => .error .brackets

/-- The code points whose compatibility form holds a delimiter: slash, question mark, number sign,
at sign or colon. -/
def delimiterLike : List Nat :=
  [0x2047, 0x2048, 0x2049, 0x2100, 0x2101, 0x2105, 0x2106, 0x2A74, 0xFE13, 0xFE16, 0xFE55, 0xFE56,
    0xFE5F, 0xFE6B, 0xFF03, 0xFF0F, 0xFF1A, 0xFF1F, 0xFF20]

/-- Checks that no character of a network location is compatible with a delimiter. -/
def checkDelimiters (netloc : List Char) : Except UrlError Unit :=
  if netloc.any fun c => delimiterLike.contains c.toNat then .error (.delimiter netloc) else .ok ()

/-- Splits a URL. -/
def split (s : String) : Except UrlError Url := do
  let (scheme, rest) := splitScheme (clean s.toList)
  let (netloc, rest) := splitNetloc rest
  checkBrackets netloc
  checkDelimiters netloc
  let (rest, fragment) := Text.cut '#' rest
  let (path, query) := Text.cut '?' rest
  return { scheme, netloc, path, query := query.getD [], fragment := fragment.getD [] }

/-- Whether a URL leads to a host by one of the two schemes of the web. -/
def isAbsoluteHttp (u : Url) : Bool :=
  (u.scheme == ['h', 't', 't', 'p'] || u.scheme == ['h', 't', 't', 'p', 's']) && !u.netloc.isEmpty

end Url

end HookRegistry
