import CatalogSearch.Indexing
import CatalogSearch.Worker.CacheLink
import CatalogSearch.Worker.EngineLink

/-!
# The job of the worker

The worker connects when it starts, runs the indexing job from time to time, and gives its
connections up when it stops. A run whose indexing fails publishes nothing; runs report the failures
that they expect.
-/

namespace CatalogSearch

/-- What a run of the job reports. -/
inductive JobReport where
  | completed (documents : Nat)
  | failed (message : String)
deriving DecidableEq

/-- A failure that a run does not report. -/
inductive JobError where
  | indexing (cause : IndexingError)
  | publication (cause : Publication.Failure)
deriving DecidableEq

/-- The text of such a failure. -/
def JobError.message : JobError → String
  | .indexing cause => cause.message
  | .publication cause => cause.message

/-- Why the worker does not stop orderly. -/
inductive ShutdownError where
  | engine (cause : Publication.Failure)
  | cache (cause : Cache.Fault)
deriving DecidableEq

/-- The text that reports it. -/
def ShutdownError.message : ShutdownError → String
  | .engine cause => cause.message
  | .cache cause => cause.message

/-- Whether a run reports the error: it does if the store failed. -/
def IndexingError.isReported : IndexingError → Bool
  | .selection _ => true
  | .loading (.store _ _) => true
  | _ => false

namespace Worker

/-- The documents of an indexing run, with the cache if the worker is connected to it. -/
def index (settings : Settings) (cached : Bool) (registry : License.Registry) :
    Worker IndexingError (List Document) := do
  ofAttempt (Indexing.run settings (cached && (← get).cache) registry)

/-- Runs the job: indexing, then publication. -/
def runJob (settings : Settings) (registry : License.Registry) : Worker JobError JobReport := do
  match ← outcome (index settings true registry) with
  | .error e => if e.isReported then return .failed e.message else throw (.indexing e)
  | .ok documents =>
    match ← outcome (publish settings documents) with
    | .ok n => return .completed n
    | .error (.failed message) => return .failed message
    | .error e => throw (.publication e)

/-- Starts the worker. It goes on without a cache that it cannot connect to. -/
def startup (settings : Settings) : Worker Publication.Failure Unit := do
  let _ ← outcome (connectCache settings)
  let _ ← cacheHealth
  connectEngine settings
  let _ ← engineHealth settings

/-- Stops the worker. -/
def shutdown : Worker ShutdownError Unit := do
  disconnectEngine.withError .engine
  disconnectCache.withError .cache

end Worker

end CatalogSearch
