import CatalogSearch.Settings
import CatalogSearch.Worker.Connections

/-!
# The worker and the cache

The worker's connection to the cache: making it, using it, asking after its health, and giving it
up.
-/

namespace CatalogSearch

/-- How the cache is connected to under the settings. -/
def Settings.cacheConnection (s : Settings) : Cache.Connection :=
  ⟨s.cacheUrl, s.cacheMaxConnections, s.cacheSocketTimeout, s.cacheRetryOnTimeout⟩

/-- Why the cache cannot be used. -/
inductive CacheError where
  | notConnected
  | fault (cause : Cache.Fault)
deriving DecidableEq

/-- The text that reports it. -/
def CacheError.message : CacheError → String
  | .notConnected => "Redis not connected. Call connect() first."
  | .fault cause => cause.message

/-- How the cache is: not connected, answering and using some memory, or failing. -/
inductive CacheHealth where
  | disconnected
  | healthy (usedMemory : Json)
  | failing (message : String)
deriving DecidableEq

namespace Worker

variable {ε : Type}

/-- Connects to the cache and pings it. A cache that has taken the connection counts as connected
even if it does not answer the ping. -/
def connectCache (settings : Settings) : Worker Cache.Fault Unit := do
  ofAttempt (askCache (.connect settings.cacheConnection))
  modify ({ · with cache := true })
  ofAttempt (askCache .ping)

/-- Closes the connection to the cache, if there is one. -/
def disconnectCache : Worker Cache.Fault Unit := do
  if (← get).cache then
    ofAttempt (askCache .close)
    modify ({ · with cache := false })

/-- Asks a connected cache. -/
def useCache (c : Cache.Command) : Worker CacheError c.Answer := do
  if (← get).cache then ofAttempt ((askCache c).withError .fault) else throw .notConnected

/-- Reads the texts under keys; no keys take no command. -/
def readCached (keys : List String) : Worker CacheError (List (Option String)) := do
  if keys.isEmpty then return [] else useCache (.read keys)

/-- Writes texts under keys, one command each. -/
def writeCached (ttl : Int) : List (String × String) → Worker CacheError Unit
  | [] => return ()
  | (key, text) :: rest => do
    useCache (.write key ttl text)
    writeCached ttl rest

/-- The memory that a cache says it uses. -/
def usedMemory (info : List (String × Json)) : Json :=
  (info.lookup "used_memory_human").getD (.str "unknown")

/-- Asks how the cache is. -/
def cacheHealth : Worker ε CacheHealth := do
  match ← outcome (useCache .info) with
  | .ok info => return .healthy (usedMemory info)
  | .error .notConnected => return .disconnected
  | .error (.fault cause) => return .failing cause.message

end Worker

end CatalogSearch
