import CatalogSearch.Document.Assembly
import CatalogSearch.Loading.Batch
import CatalogSearch.Settings

/-!
# Indexing

One indexing run: select the visible versions, load their records, assemble the documents. A run
sees nothing of earlier runs but what they left in the cache.
-/

namespace CatalogSearch

/-- Why a run has no documents. -/
inductive IndexingError where
  | selection (cause : Store.Failure)
  | loading (cause : LoadError)
  | assembly (cause : AssemblyError)
deriving DecidableEq

/-- The text that reports it. -/
def IndexingError.message : IndexingError → String
  | .selection cause => "Failed to select visible entities: " ++ cause.message
  | .loading cause => cause.message
  | .assembly cause => cause.message

namespace Indexing

/-- The visible versions. -/
def select : Attempt IndexingError (List VisibleVersion) := do
  return visibleVersions (← (askStore .visible).withError .selection)

/-- A number that is given and not zero, else the one of the settings. -/
def orSetting (setting : Int) (given : Option Int) : Int :=
  if given.getD 0 = 0 then setting else given.getD 0

/-- How records are loaded under the settings, where a batch size and an expiry may be given. -/
def loadOptions (settings : Settings) (cached : Bool) (batchSize expiry : Option Int) :
    LoadOptions where
  cached := cached
  batchSize := orSetting settings.loadBatchSize batchSize
  expiry := orSetting settings.cacheExpirySeconds expiry

/-- The documents of all visible versions whose records were found. -/
def run (settings : Settings) (cached : Bool) (registry : License.Registry) :
    Attempt IndexingError (List Document) := do
  let visible ← select
  let (versions, projects) ←
    (Loading.loadBoth (loadOptions settings cached none none)
      (visible.map (·.versionId)) (visible.map (·.projectId))).withError .loading
  (ExceptT.mk (.done ((assemble registry versions projects visible).mapError .assembly)))

end Indexing

end CatalogSearch
