import CatalogSearch.Rehearsal.Cache
import CatalogSearch.Rehearsal.Engine
import CatalogSearch.Rehearsal.Store
import CatalogSearch.Worker.Job

/-!
# Rehearsals

A worker among services in memory: the same work that is done against real services, with all that
they hold and all that fails in them given.
-/

namespace CatalogSearch

/-- The three services in memory. -/
structure Services where
  store : Store.Memory
  cache : Cache.Memory
  engine : Engine.Memory

namespace Services

/-- New services. -/
def empty : Services := ⟨.empty, .empty, .empty⟩

/-- Answers a request, which changes no service but the one asked. -/
def answer : (r : Request) → Services → r.Reply × Services
  | .store query, s =>
    let (reply, store) := s.store.answer query
    (reply, { s with store := store })
  | .cache command, s =>
    let (reply, cache) := s.cache.answer command
    (reply, { s with cache := cache })
  | .engine call, s =>
    let (reply, engine) := s.engine.answer call
    (reply, { s with engine := engine })

end Services

/-- A worker among services in memory, under some settings. -/
structure Rehearsal where
  services : Services
  settings : Settings
  connections : Connections

namespace Rehearsal

/-- A worker that has done nothing yet. -/
def start : Rehearsal := ⟨.empty, .default, .none⟩

instance : Inhabited Rehearsal := ⟨start⟩

variable {ε α : Type}

/-- Does work of the worker. -/
def work (r : Rehearsal) (w : Worker ε α) : Except ε α × Rehearsal :=
  let ((result, connections), services) :=
    Dialogue.run Services.answer (w.run r.connections) r.services
  (result, { r with services := services, connections := connections })

/-- Does work that needs no connections of its own. -/
def attempt (r : Rehearsal) (a : Attempt ε α) : Except ε α × Rehearsal :=
  r.work (Worker.ofAttempt a)

end Rehearsal

end CatalogSearch
