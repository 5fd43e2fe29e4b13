import CatalogSearch.Cache.Command
import CatalogSearch.Engine.Call
import CatalogSearch.Service.Dialogue
import CatalogSearch.Store.Query

/-!
# Requests to the services

The three services that indexing asks: the store, the cache and the search engine. Each request is
one step, and each may fail.
-/

namespace CatalogSearch

/-- The store did not answer a query. -/
structure Store.Failure where
  message : String
deriving DecidableEq

/-- A request to one of the services. -/
inductive Request where
  | store (query : Store.Query)
  | cache (command : Cache.Command)
  | engine (call : Engine.Call)
deriving DecidableEq

/-- The reply to a request: what was asked for, or why there is none. -/
abbrev Request.Reply : Request → Type
  | .store query => Except Store.Failure query.Answer
  | .cache command => Except Cache.Fault command.Answer
  | .engine call => Except Engine.Fault call.Answer

/-- Work that asks the services. -/
abbrev Work (α : Type) : Type := Dialogue Request Request.Reply α

/-- Work that may fail. -/
abbrev Attempt (ε α : Type) : Type := ExceptT ε (Dialogue Request Request.Reply) α

/-- Asks the store. -/
def askStore (q : Store.Query) : Attempt Store.Failure q.Answer :=
  @Dialogue.request Request Request.Reply (.store q)

/-- Asks the cache. -/
def askCache (c : Cache.Command) : Attempt Cache.Fault c.Answer :=
  @Dialogue.request Request Request.Reply (.cache c)

/-- Asks the search engine. -/
def askEngine (c : Engine.Call) : Attempt Engine.Fault c.Answer :=
  @Dialogue.request Request Request.Reply (.engine c)

/-- The attempt with its error put differently. -/
def Attempt.withError {ε ε' α : Type} (f : ε → ε') (a : Attempt ε α) : Attempt ε' α :=
  ExceptT.mk (a.run.bind fun r => .done (r.mapError f))

/-- The attempt without its failing: its value or its error is the value. -/
def outcome {ε ε' α : Type} (a : Attempt ε α) : Attempt ε' (Except ε α) :=
  ExceptT.mk (a.run.bind fun r => .done (.ok r))

end CatalogSearch
