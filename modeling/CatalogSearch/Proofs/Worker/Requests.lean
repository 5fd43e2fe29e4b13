import CatalogSearch.Proofs.Loading.Concurrent
import CatalogSearch.Proofs.Publication.Requests
import CatalogSearch.Worker.Job

/-!
# Requests of the worker

The requests of the worker's operations. Indexing asks the store, and it reads and writes the cache
if it is given one (`Indexing.asks_run`); connecting, publishing and disconnecting write nothing to
it.
-/

namespace CatalogSearch

theorem Indexing.asks_run {p : Request → Prop} {cached : Bool} (hstore : ∀ q, p (.store q))
    (hread : cached = true → ∀ keys, p (.cache (.read keys)))
    (hwrite : cached = true → ∀ key ttl text, p (.cache (.write key ttl text)))
    (settings : Settings) (registry : License.Registry) :
    Attempt.Asks p (run settings cached registry) := by
  have hselect : Attempt.Asks p select :=
    Attempt.Asks.bind (Attempt.Asks.withError ⟨hstore _, fun _ => trivial⟩) fun _ =>
      Attempt.asks_pure
  refine hselect.bind fun visible => Attempt.Asks.bind (Attempt.Asks.withError ?_) fun _ => trivial
  refine (Loading.asks_loadOf (fun h _ => hread h _) (Hydration.asks_versions hstore)
    (fun h _ _ => hwrite h _ _ _) _).outcome.bind fun versions => ?_
  refine (Loading.asks_loadOf (fun h _ => hread h _) (Hydration.asks_projects hstore)
    (fun h _ _ => hwrite h _ _ _) _).outcome.bind fun projects => ?_
  split
  · exact Attempt.asks_pure
  · exact Attempt.asks_throw
  · exact Attempt.asks_throw

/-- The request writes no text to the cache. -/
def Request.WritesNone : Request → Prop
  | .cache (.write _ _ _) => False
  | _ => True

theorem Publication.Plan.Requests.writesNone {p : Publication.Plan} {r : Request}
    (h : p.Requests r) : r.WritesNone := by
  cases h <;> trivial

namespace Worker

theorem asks_askEngineUnhandled (call : Engine.Call) :
    Asks Request.WritesNone (askEngineUnhandled call) :=
  asks_ofAttempt (Attempt.asks_askEngine trivial).withError

theorem asks_connectCache (settings : Settings) :
    Asks Request.WritesNone (connectCache settings) :=
  (asks_ofAttempt (Attempt.asks_askCache trivial)).bind fun _ => asks_modify.bind fun _ =>
    asks_ofAttempt (Attempt.asks_askCache trivial)

theorem asks_cacheHealth {ε : Type} :
    Asks Request.WritesNone (cacheHealth : Worker ε CacheHealth) := by
  have huse : Asks Request.WritesNone (useCache .info) := by
    refine asks_get.bind fun d => ?_
    split
    · exact asks_ofAttempt (Attempt.asks_askCache trivial).withError
    · exact asks_throw
  refine huse.outcome.bind fun r => ?_
  split <;> exact asks_pure

theorem asks_engineHealth (settings : Settings) :
    Asks Request.WritesNone (engineHealth settings) := by
  have hcount : Asks Request.WritesNone (countDocuments settings) := by
    refine asks_get.bind fun d => ?_
    split
    · exact (asks_askEngineUnhandled _).bind fun _ => (asks_askEngineUnhandled _).bind fun _ =>
        asks_askEngineUnhandled _
    · exact asks_throw
  refine hcount.outcome.bind fun r => ?_
  split
  · exact asks_pure
  · exact asks_throw
  · exact asks_pure

theorem asks_startup (settings : Settings) : Asks Request.WritesNone (startup settings) :=
  (asks_connectCache settings).outcome.bind fun _ => asks_cacheHealth.bind fun _ =>
    ((asks_askEngineUnhandled _).bind fun _ => asks_modify).bind fun _ =>
      (asks_engineHealth settings).bind fun _ => asks_pure

theorem asks_shutdown : Asks Request.WritesNone shutdown := by
  have hengine : Asks Request.WritesNone disconnectEngine := by
    refine asks_get.bind fun d => ?_
    split
    · exact (asks_askEngineUnhandled _).bind fun _ => asks_modify
    · exact asks_pure
  have hcache : Asks Request.WritesNone disconnectCache := by
    refine asks_get.bind fun d => ?_
    split
    · exact (asks_ofAttempt (Attempt.asks_askCache trivial)).bind fun _ => asks_modify
    · exact asks_pure
  exact hengine.withError.bind fun _ => hcache.withError

theorem asks_publish (settings : Settings) (documents : List Document) :
    Asks Request.WritesNone (publish settings documents) := by
  refine asks_get.bind fun d => ?_
  split
  · exact asks_ofAttempt ((Publication.asks_publish _).imp fun _ h => h.writesNone)
  · exact asks_throw

end Worker

end CatalogSearch
