import CatalogSearch.Document.Payload
import CatalogSearch.Time.Seconds

/-!
# Calls of the search engine

Changes to an index and swaps are tasks: the call answers with the number of the task, and waiting
for it tells how it ended.
-/

namespace CatalogSearch.Engine

/-- A setting of an index. -/
inductive IndexSetting where
  | searchable (attributes : List String)
  | filterable (attributes : List String)
  | sortable (attributes : List String)
  | distinctBy (name : String)
deriving DecidableEq

/-- A call. -/
inductive Call where
  | connect (url : String) (apiKey : Option String) (timeout : Seconds)
  | close
  | health
  | deleteIndex (name : String)
  | createIndex (name primaryKey : String)
  | getIndex (name : String)
  | stats (name : String)
  | configure (name : String) (setting : IndexSetting)
  | addDocuments (name : String) (documents : List Payload) (primaryKey : String)
  | swap (pairs : List (String × String))
  | wait (task : Nat) (timeout : Option Nat)
deriving DecidableEq

/-- What a call answers: a change the number of its task, waiting the status of the task, asking
for statistics the number of documents. -/
abbrev Call.Answer : Call → Type
  | .configure _ _ => Nat
  | .addDocuments _ _ _ => Nat
  | .swap _ => Nat
  | .wait _ _ => String
  | .stats _ => Nat
  | _ => Unit

/-- Why a call does not return: it failed, publication was refused, or the work was cancelled. -/
inductive Fault where
  | error (message : String)
  | refused (message : String)
  | cancelled
deriving DecidableEq

end CatalogSearch.Engine
