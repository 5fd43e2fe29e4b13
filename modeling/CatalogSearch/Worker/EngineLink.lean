import CatalogSearch.Publication
import CatalogSearch.Worker.Connections

/-!
# The worker and the search engine

The worker's connection to the search engine: making it, publishing through it, asking after its
health, and giving it up.
-/

namespace CatalogSearch

/-- The key for the search engine, none if it is empty. -/
def Settings.engineKey? (s : Settings) : Option String :=
  if s.engineApiKey.isEmpty then none else some s.engineApiKey

/-- How the search engine is: serving a number of documents, or not as it should be. -/
inductive EngineHealth where
  | healthy (documents : Nat)
  | degraded
deriving DecidableEq

namespace Worker

/-- Asks the search engine where nothing handles a failure. -/
def askEngineUnhandled (c : Engine.Call) : Worker Publication.Failure c.Answer :=
  ofAttempt ((askEngine c).withError .ofFault)

/-- Connects to the search engine. -/
def connectEngine (settings : Settings) : Worker Publication.Failure Unit := do
  askEngineUnhandled (.connect settings.engineUrl settings.engineKey? settings.engineTimeout)
  modify ({ · with engine := true })

/-- Closes the connection to the search engine, if there is one. -/
def disconnectEngine : Worker Publication.Failure Unit := do
  if (← get).engine then
    askEngineUnhandled .close
    modify ({ · with engine := false })

/-- Publishes documents and tells how many there are. -/
def publish (settings : Settings) (documents : List Document) :
    Worker Publication.Failure Nat := do
  if (← get).engine then ofAttempt (Publication.publish (Publication.planOf settings documents))
  else throw .notInitialised

/-- The number of documents in the live index of a healthy search engine. -/
def countDocuments (settings : Settings) : Worker Publication.Failure Nat := do
  if (← get).engine then
    askEngineUnhandled .health
    askEngineUnhandled (.getIndex settings.indexName)
    askEngineUnhandled (.stats settings.indexName)
  else throw .notInitialised

/-- Asks how the search engine is. Only being cancelled is a failure of asking. -/
def engineHealth (settings : Settings) : Worker Publication.Failure EngineHealth := do
  match ← outcome (countDocuments settings) with
  | .ok n => return .healthy n
  | .error .cancelled => throw .cancelled
  | .error _ => return .degraded

end Worker

end CatalogSearch
