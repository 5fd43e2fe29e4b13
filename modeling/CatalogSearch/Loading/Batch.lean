import CatalogSearch.Data.Batches
import CatalogSearch.Json.Printer
import CatalogSearch.Loading.Hydration

/-!
# Loading records

Loading many records by their ids: first from the cache, and what is not there from the store.

A cache that is out of reach, or whose text for a key is no record, counts as one that has nothing
under the key. What came from the store is written back to the cache. Ids that are in neither are
left out. `RecordKind` has what versions and projects do differently, `load` what they have in
common.
-/

namespace CatalogSearch

/-- A kind of record: the name under which the cache keeps it, its id, its two forms, and how a
batch of it is fetched. -/
structure RecordKind (ρ : Type) where
  name : String
  id : ρ → Int
  toJson : ρ → Json
  ofJson : Json → Checked ρ
  fetch : List Int → Attempt FetchError (List ρ)

namespace RecordKind

/-- Projects. -/
def projects : RecordKind Project :=
  ⟨"projects", (·.id), Project.toJson, Project.ofJson, Hydration.projects⟩

/-- Versions. -/
def versions : RecordKind Version :=
  ⟨"versions", (·.id), Version.toJson, Version.ofJson, Hydration.versions⟩

variable {ρ : Type}

/-- The key under which the cache keeps a record. -/
def cacheKey (k : RecordKind ρ) (id : Int) : String := k.name ++ ":" ++ Decimal.text id

/-- The text of a record. -/
def text (k : RecordKind ρ) (r : ρ) : String := (k.toJson r).print

/-- The record of a text, if it is one. -/
def ofText? (k : RecordKind ρ) (s : String) : Option ρ := (Schema.ofText k.ofJson s).toOption

end RecordKind

/-- How records are loaded: whether there is a cache to ask, how many ids one fetch may have, and
how long the cache keeps a record. -/
structure LoadOptions where
  cached : Bool
  batchSize : Int
  expiry : Int
deriving DecidableEq

/-- Why records cannot be loaded. -/
inductive LoadError where
  | store (records : String) (cause : Store.Failure)
  | fieldType (cause : FieldType.Unknown)
  | batchSize (cause : BatchSizeError)
  | cache (message : String)
deriving DecidableEq

/-- The text that reports it. -/
def LoadError.message : LoadError → String
  | .store records cause => "Failed to load " ++ records ++ " from store: " ++ cause.message
  | .fieldType cause => cause.message
  | .batchSize cause => cause.message
  | .cache message => message

namespace Loading

variable {ρ : Type}

/-- The records among texts that the cache gave for ids. -/
def validRecords (k : RecordKind ρ) (ids : List Int) (texts : List (Option String)) :
    OrderedMap Int ρ :=
  OrderedMap.ofList ((ids.zip texts).filterMap fun (id, text?) =>
    (text?.bind k.ofText?).map (fun r => (id, r)))

/-- The records that the cache has. -/
def readCache (k : RecordKind ρ) (o : LoadOptions) (ids : List Int) :
    Attempt LoadError (OrderedMap Int ρ) := do
  if o.cached then
    match ← outcome (askCache (.read (ids.map k.cacheKey))) with
    | .ok texts => return validRecords k ids texts
    | .error (.unreachable _) => return ∅
    | .error (.broken message) => throw (.cache message)
  else return ∅

/-- The records that the store has for batches of ids, under their own ids. -/
def fetchBatches (k : RecordKind ρ) : List (List Int) → Attempt FetchError (List (Int × ρ))
  | [] => return []
  | batch :: rest => do
    let records ← k.fetch batch
    return records.map (fun r => (k.id r, r)) ++ (← fetchBatches k rest)

/-- Why fetching records of a kind failed. -/
def fetchError (k : RecordKind ρ) : FetchError → LoadError
  | .store cause => .store k.name cause
  | .fieldType cause => .fieldType cause

/-- The records that the store has. -/
def fetch (k : RecordKind ρ) (o : LoadOptions) (ids : List Int) :
    Attempt LoadError (OrderedMap Int ρ) := do
  match batches o.batchSize ids with
  | .error e => throw (.batchSize e)
  | .ok chunks =>
    return OrderedMap.ofList (← (fetchBatches k chunks).withError (fetchError k))

/-- Writes records to the cache, one command each; a cache that is out of reach ends the writing. -/
def writeCache (k : RecordKind ρ) (expiry : Int) : List (Int × ρ) → Attempt LoadError Unit
  | [] => return ()
  | (id, r) :: rest => do
    match ← outcome (askCache (.write (k.cacheKey id) expiry (k.text r))) with
    | .ok () => writeCache k expiry rest
    | .error (.unreachable _) => return ()
    | .error (.broken message) => throw (.cache message)

/-- Loads the records of distinct ids, at least one. -/
def loadDistinct (k : RecordKind ρ) (o : LoadOptions) (ids : List Int) :
    Attempt LoadError (OrderedMap Int ρ) := do
  let cached ← readCache k o ids
  let missing := ids.filter (fun id => !cached.contains id)
  if missing.isEmpty then return cached
  else
    let fetched ← fetch k o missing
    if o.cached then writeCache k o.expiry fetched.entries
    return cached.insertAll fetched.entries

/-- Loads the records of ids. -/
def load (k : RecordKind ρ) (o : LoadOptions) (ids : List Int) :
    Attempt LoadError (OrderedMap Int ρ) :=
  match distinct ids with
  | [] => return ∅
  | id :: rest => loadDistinct k o (id :: rest)

/-- Loads versions and projects. Neither load waits for the other to succeed; if both fail, the
versions' error is reported. -/
def loadBoth (o : LoadOptions) (versionIds projectIds : List Int) :
    Attempt LoadError (OrderedMap Int Version × OrderedMap Int Project) := do
  let versions ← outcome (load RecordKind.versions o versionIds)
  let projects ← outcome (load RecordKind.projects o projectIds)
  match versions, projects with
  | .ok versions, .ok projects => return (versions, projects)
  | .error e, _ => throw e
  | .ok _, .error e => throw e

end Loading

end CatalogSearch
