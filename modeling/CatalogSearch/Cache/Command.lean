import CatalogSearch.Data.OrderedMap
import CatalogSearch.Json
import CatalogSearch.Number.Decimal
import CatalogSearch.Time.Seconds

/-!
# Commands of a cache

A cache keeps a text under a key for a while. `Command` is what can be asked of it, `Command.Answer`
what it replies, and a `Fault` how a command may fail instead.
-/

namespace CatalogSearch.Cache

/-- How a connection to the cache is made. -/
structure Connection where
  url : String
  maxConnections : Int
  socketTimeout : Seconds
  retryOnTimeout : Bool
deriving DecidableEq

/-- A command. -/
inductive Command where
  | connect (connection : Connection)
  | ping
  | close
  | info
  | read (keys : List String)
  | write (key : String) (ttl : Int) (text : String)
deriving DecidableEq

/-- What a command answers: reading a text or nothing for each key, information its members. -/
abbrev Command.Answer : Command → Type
  | .connect _ => Unit
  | .ping => Unit
  | .close => Unit
  | .info => List (String × Json)
  | .read _ => List (Option String)
  | .write _ _ _ => Unit

/-- Why a command fails: the cache is out of reach, or something else is wrong. -/
inductive Fault where
  | unreachable (message : String)
  | broken (message : String)
deriving DecidableEq

/-- The text of a failure. -/
def Fault.message : Fault → String
  | .unreachable message => message
  | .broken message => message

end CatalogSearch.Cache
