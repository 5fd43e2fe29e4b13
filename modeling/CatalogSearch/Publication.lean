import CatalogSearch.Data.Batches
import CatalogSearch.Service.Request
import CatalogSearch.Settings

/-!
# Publication

Publication of documents as a whole. The documents go into a second index beside the live one, and
the two are swapped when the search engine has taken all of them; what goes wrong before drops the
second index and leaves the live one as it is.
-/

namespace CatalogSearch.Publication

/-- The attribute that tells documents apart. -/
def primaryKey : String := "version_id"

/-- The settings of an index, in the order in which they are made. A search shows one document of
each project. -/
def indexSettings : List Engine.IndexSetting := [
  .searchable ["name", "summary", "author", "slug"],
  .filterable ["categories", "license", "project_types", "project_id", "author", "open_source",
    "color", "loaders", "client_side", "server_side", "game_versions", "mrpack_loaders",
    "downloads", "follows", "date_created", "date_modified"],
  .sortable ["downloads", "follows", "date_created", "date_modified"],
  .distinctBy "project_id"]

/-- What is published and where to: the name of the live index, how many documents one upload may
have, and the payloads. -/
structure Plan where
  liveIndex : String
  batchSize : Int
  payloads : List Payload
deriving DecidableEq

namespace Plan

/-- The name of the index that the documents go into first. -/
def rebuildIndex (p : Plan) : String := p.liveIndex ++ "_rebuild"

end Plan

/-- What ends the work on the second index early. -/
inductive Interruption where
  | call (fault : Engine.Fault)
  | task (number : Nat) (status : String)
  | batchSize (cause : BatchSizeError)
deriving DecidableEq

/-- How a publication fails: it is reported as failed, it is cancelled, a call fails outside the
work on the second index, or there is no search engine to ask. -/
inductive Failure where
  | failed (message : String)
  | cancelled
  | uncaught (message : String)
  | notInitialised
deriving DecidableEq

/-- The text of a failure, empty for a cancelled publication. -/
def Failure.message : Failure → String
  | .failed message => message
  | .cancelled => ""
  | .uncaught message => message
  | .notInitialised => "Meilisearch not initialized"

/-- The failure that a failed call makes where nothing handles it. -/
def Failure.ofFault : Engine.Fault → Failure
  | .error message => .uncaught message
  | .refused message => .failed message
  | .cancelled => .cancelled

/-- The failure that an interruption makes. -/
def Interruption.failure : Interruption → Failure
  | .call (.error message) => .failed ("Failed to publish search documents: " ++ message)
  | .call (.refused message) => .failed message
  | .call .cancelled => .cancelled
  | .task number status =>
    .failed ("Meilisearch task " ++ String.ofList (Decimal.ofNat number) ++
      " ended with status " ++ status)
  | .batchSize cause => .failed ("Failed to publish search documents: " ++ cause.message)

/-- Asks the search engine during the work on the second index. -/
def ask (c : Engine.Call) : Attempt Interruption c.Answer := (askEngine c).withError .call

/-- Waits for a task, with a limit in milliseconds, and insists on its success. -/
def await (task : Nat) (timeout : Option Nat) : Attempt Interruption Unit := do
  let status ← ask (.wait task timeout)
  if status = "succeeded" then return () else throw (.task task status)

/-- The limit for a task that is no upload, in milliseconds. -/
def taskTimeout : Option Nat := some 5000

/-- Makes settings of an index one after the other. -/
def configure (index : String) : List Engine.IndexSetting → Attempt Interruption Unit
  | [] => return ()
  | setting :: rest => do
    await (← ask (.configure index setting)) taskTimeout
    configure index rest

/-- Uploads batches of documents one after the other, without a limit of time. -/
def upload (index : String) : List (List Payload) → Attempt Interruption Unit
  | [] => return ()
  | batch :: rest => do
    await (← ask (.addDocuments index batch primaryKey)) none
    upload index rest

/-- Makes sure that an index is there: a lookup that fails, but is not cancelled, creates it. -/
def ensureIndex (name : String) : Attempt Interruption Unit := do
  match ← outcome (askEngine (.getIndex name)) with
  | .ok () => return ()
  | .error .cancelled => throw (.call .cancelled)
  | .error _ => ask (.createIndex name primaryKey)

/-- The work on the second index up to the swap. -/
def rebuild (p : Plan) : Attempt Interruption Unit := do
  ask (.deleteIndex p.rebuildIndex)
  ask (.createIndex p.rebuildIndex primaryKey)
  configure p.rebuildIndex indexSettings
  match batches p.batchSize p.payloads with
  | .error e => throw (.batchSize e)
  | .ok chunks => upload p.rebuildIndex chunks
  ensureIndex p.liveIndex
  await (← ask (.swap [(p.liveIndex, p.rebuildIndex)])) taskTimeout

/-- Deletes the second index. -/
def cleanUp (p : Plan) : Attempt Failure Unit :=
  (askEngine (.deleteIndex p.rebuildIndex)).withError .ofFault

/-- Publishes the payloads and tells how many there are. -/
def publish (p : Plan) : Attempt Failure Nat := do
  match ← outcome (rebuild p) with
  | .ok () =>
    cleanUp p
    return p.payloads.length
  | .error e =>
    cleanUp p
    throw e.failure

/-- The plan of publishing documents under the settings. -/
def planOf (settings : Settings) (documents : List Document) : Plan :=
  ⟨settings.indexName, settings.uploadBatchSize, payloads documents⟩

end CatalogSearch.Publication
