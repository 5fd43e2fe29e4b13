import CatalogSearch.Data.Sorting
import CatalogSearch.Status

/-!
# Visible versions

Which versions are indexed, and with which author. The store answers with one row for each version
and each pair of owners; the first row of a version decides.
-/

namespace CatalogSearch

/-- A version to index, its project, and the author to show. -/
structure VisibleVersion where
  versionId : Int
  projectId : Int
  owner : String
deriving DecidableEq

/-- The author of a project: the owner of its team, else the owner of its organization's team,
else nobody. An owner without a name is still an owner. -/
def resolveOwner (teamOwner organizationOwner : Option String) : String :=
  (teamOwner.or organizationOwner).getD ""

/-- A visible version with one owner of its project's team and one of its organization's team, as
far as there are any. -/
structure OwnerRow where
  versionId : Int
  projectId : Int
  teamOwner : Option String
  organizationOwner : Option String
deriving DecidableEq

/-- The visible version that a row makes. -/
def OwnerRow.visible (r : OwnerRow) : VisibleVersion :=
  ⟨r.versionId, r.projectId, resolveOwner r.teamOwner r.organizationOwner⟩

/-- The visible versions of rows: the first row of each version counts. -/
def visibleVersions (rows : List OwnerRow) : List VisibleVersion :=
  (distinctBy OwnerRow.versionId rows).map OwnerRow.visible

end CatalogSearch
