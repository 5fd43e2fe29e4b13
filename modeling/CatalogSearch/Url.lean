import CatalogSearch.Text.IntLiteral
import CatalogSearch.Text.Lowercase
import CatalogSearch.Url.Address

/-!
# URLs

Splitting a URL: its scheme, what stands between `//` and the path, and the path without parameters,
query and fragment. User and password end at the last `@`; the password starts after the first
colon, and so does the port of a host that is not in brackets.
-/

namespace CatalogSearch

/-- The parts of a URL. -/
structure Url where
  scheme : List Char
  authority : List Char
  path : List Char
deriving DecidableEq

/-- Why a text is no URL, or a part of it is not what it has to be. -/
inductive UrlError where
  | misplacedBracket
  | badFutureAddress
  | badAddress (text : String)
  | bracketedAddress4
  | unsafeAuthority (text : String)
  | badPort (text : String)
  | longPort (digits : Nat)
  | portRange
deriving DecidableEq

/-- The text that reports it. -/
def UrlError.message : UrlError → String
  | .misplacedBracket => "Invalid IPv6 URL"
  | .badFutureAddress => "IPvFuture address is invalid"
  | .badAddress text =>
    Text.quotedString text ++ " does not appear to be an IPv4 or IPv6 address"
  | .bracketedAddress4 => "An IPv4 address cannot be in brackets"
  | .unsafeAuthority text =>
    "netloc '" ++ text ++ "' contains invalid characters under NFKC normalization"
  | .badPort text => "Port could not be cast to integer value as " ++ Text.quotedString text
  | .longPort digits => (Text.IntLiteralError.tooLong digits).message
  | .portRange => "Port out of range 0-65535"

namespace Url

/-- Whether a character may stand in a scheme. -/
def isSchemeChar (c : Char) : Bool := c.isAlphanum || c = '+' || c = '-' || c = '.'

/-- The scheme in lower case and what follows it; without a scheme the text is all path. -/
def splitScheme (s : List Char) : List Char × List Char :=
  let name := Text.before ':' s
  match Text.after? ':' s with
  | some rest =>
    if (name.head?.map Char.isAlpha).getD false && name.all isSchemeChar then
      (name.map Char.toLower, rest)
    else ([], s)
  | none => ([], s)

/-- Whether a character ends the authority. -/
def endsAuthority (c : Char) : Bool := c = '/' || c = '?' || c = '#'

/-- The schemes whose paths may carry parameters after a semicolon. -/
def schemesWithParameters : List String :=
  ["", "ftp", "hdl", "prospero", "http", "imap", "https", "shttp", "rtsp", "rtspu", "sip", "sips",
    "mms", "sftp", "tel"]

/-- The characters whose compatibility forms hold one of the separators of a URL. -/
def separatorLookalikes : List Nat := [
  0x2047, 0x2048, 0x2049, 0x2100, 0x2101, 0x2105, 0x2106, 0x2A74, 0xFE13, 0xFE16, 0xFE55, 0xFE56,
  0xFE5F, 0xFE6B, 0xFF03, 0xFF0F, 0xFF1A, 0xFF1F, 0xFF20]

/-- Refuses a host in brackets unless it is an address of groups or of a future kind. -/
def checkBracketed (host : List Char) : Except UrlError Unit :=
  if host.head? = some 'v' then
    if isFutureAddress host then .ok () else .error .badFutureAddress
  else if isAddress4 host then .error .bracketedAddress4
  else if isAddress6 host then .ok ()
  else .error (.badAddress (String.ofList host))

/-- Refuses a host and port in which something stands in front of an opening bracket, or between
the closing bracket and the colon of the port. The host has to be one that may stand in brackets
even if it does not: brackets were seen elsewhere in the authority. -/
def checkHost (s : List Char) : Except UrlError Unit :=
  match Text.after? '[' s with
  | some rest =>
    let port := (Text.after? ']' rest).getD []
    if !(Text.before '[' s).isEmpty || !(port.isEmpty || port.head? = some ':') then
      .error .misplacedBracket
    else checkBracketed (Text.before ']' rest)
  | none => checkBracketed (Text.before ':' s)

/-- Refuses an authority with one kind of bracket only, or with brackets of both kinds and a host
that may not stand in them. -/
def checkBrackets (authority : List Char) : Except UrlError Unit :=
  match authority.contains '[', authority.contains ']' with
  | true, true => checkHost (Text.afterLast '@' authority)
  | false, false => .ok ()
  | _, _ => .error .misplacedBracket

/-- Refuses an authority with a character that another form of the text would turn into a
separator. -/
def checkLookalikes (authority : List Char) : Except UrlError Unit :=
  if authority.any (fun c => separatorLookalikes.contains c.toNat) then
    .error (.unsafeAuthority (String.ofList authority))
  else .ok ()

/-- The path without the parameters of its last segment. -/
def dropParameters (path : List Char) : List Char :=
  let segment := Text.afterLast '/' path
  path.take (path.length - segment.length) ++ Text.before ';' segment

/-- The authority after two slashes and what follows it. -/
def splitAuthority : List Char → List Char × List Char
  | '/' :: '/' :: rest =>
    (rest.takeWhile (fun c => !endsAuthority c), rest.dropWhile (fun c => !endsAuthority c))
  | s => ([], s)

/-- Splits a URL. Control characters and spaces in front of it and tabs and line ends anywhere in
it do not count. -/
def ofText (s : List Char) : Except UrlError Url := do
  let s := (s.dropWhile (fun c => c.toNat ≤ 0x20)).filter
    (fun c => !(c = '\t' || c = '\r' || c = '\n'))
  let (scheme, rest) := splitScheme s
  let (authority, rest) := splitAuthority rest
  checkBrackets authority
  checkLookalikes authority
  let path := Text.before '?' (Text.before '#' rest)
  let path :=
    if schemesWithParameters.contains (String.ofList scheme) then dropParameters path else path
  return ⟨scheme, authority, path⟩

/-- The password, none if no user is named or there is no colon after the user. -/
def password (u : Url) : Option (List Char) :=
  (Text.beforeLast? '@' u.authority).bind (Text.after? ':')

/-- The host as it is written and the text of the port. -/
def hostAndPort (u : Url) : List Char × List Char :=
  let s := Text.afterLast '@' u.authority
  match Text.after? '[' s with
  | some rest => (Text.before ']' rest, ((Text.after? ']' rest).bind (Text.after? ':')).getD [])
  | none => (Text.before ':' s, (Text.after? ':' s).getD [])

/-- The host in lower case, its zone as it is. -/
def host (u : Url) : List Char :=
  let name := u.hostAndPort.1
  Text.lower (Text.before '%' name) ++ name.dropWhile (· ≠ '%')

/-- The port, none if it is not given. -/
def port (u : Url) : Except UrlError (Option Nat) :=
  let s := u.hostAndPort.2
  if s.isEmpty then .ok none
  else
    match Decimal.toNat? s with
    | none => .error (.badPort (String.ofList s))
    | some n =>
      if Text.digitLimit < s.length then .error (.longPort s.length)
      else if n ≤ 65535 then .ok (some n)
      else .error .portRange

end Url

end CatalogSearch
