import CatalogSearch.Text.IntLiteral
import CatalogSearch.Url

/-!
# The address of the broker

Where the broker of the worker is to be found, read from its URL.
-/

namespace CatalogSearch

/-- Host, port, password and database of the broker. -/
structure BrokerAddress where
  host : String
  port : Nat
  password : Option String
  database : Int
deriving DecidableEq

namespace BrokerAddress

/-- Why a URL does not name a broker. -/
inductive Error where
  | url (cause : UrlError)
  | database (cause : Text.IntLiteralError)
deriving DecidableEq

/-- The text that reports it. -/
def Error.message : Error → String
  | .url cause => cause.message
  | .database cause => cause.message

/-- The database that a path names, zero if it names none. -/
def databaseOfPath (path : List Char) : Except Text.IntLiteralError Int :=
  let text := path.dropWhile (· = '/')
  if text.isEmpty then .ok 0 else Text.readInt text

/-- The address in a URL. The host is `localhost`, the port 6379 and the database zero unless the
URL says otherwise; port zero counts as not given. -/
def ofUrl (s : String) : Except Error BrokerAddress := do
  let url ← (Url.ofText s.toList).mapError .url
  let port ← url.port.mapError .url
  let database ← (databaseOfPath url.path).mapError .database
  return {
    host := if url.host.isEmpty then "localhost" else String.ofList url.host
    port := if port.getD 0 = 0 then 6379 else port.getD 0
    password := url.password.map String.ofList
    database := database }

end BrokerAddress

end CatalogSearch
