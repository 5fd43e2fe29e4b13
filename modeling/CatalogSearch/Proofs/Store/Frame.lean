import CatalogSearch.Proofs.Loading.Batch

/-!
# What records depend on

The record of a version is made of the rows of the version and of the tables that all versions refer
to, and the record of a project likewise, but for its project types and games, which come from its
versions. Two stores that agree on these rows have the same records (`versionOf_eq`,
`projectOf_eq`).
-/

namespace CatalogSearch.Store

/-- The stores differ in the rows of projects and versions alone. -/
def SharesTables (s t : Store) : Prop :=
  t = { s with
    projects := t.projects
    projectCategories := t.projectCategories
    gallery := t.gallery
    links := t.links
    versions := t.versions
    versionLoaders := t.versionLoaders
    versionFields := t.versionFields }

/-- The rows of a version are the same. -/
structure SameVersion (s t : Store) (id : Int) : Prop where
  rows : (t.versions.filter fun v => v.id = id) = s.versions.filter fun v => v.id = id
  loaders : (t.versionLoaders.filter fun l => l.versionId = id) =
    s.versionLoaders.filter fun l => l.versionId = id
  fields : (t.versionFields.filter fun f => f.versionId = id) =
    s.versionFields.filter fun f => f.versionId = id

/-- The rows of a project are the same, but for those of its versions. -/
structure SameProject (s t : Store) (id : Int) : Prop where
  rows : (t.projects.filter fun p => p.id = id) = s.projects.filter fun p => p.id = id
  categories : (t.projectCategories.filter fun c => c.projectId = id) =
    s.projectCategories.filter fun c => c.projectId = id
  gallery : (t.gallery.filter fun g => g.projectId = id) =
    s.gallery.filter fun g => g.projectId = id
  links : (t.links.filter fun l => l.projectId = id) = s.links.filter fun l => l.projectId = id

variable {s t : Store} {id : Int}

/-! ### Versions -/

theorem SameVersion.versionsOf_eq (hv : SameVersion s t id) :
    t.versionsOf [id] = s.versionsOf [id] := by
  rw [versionsOf, versionsOf, filter_contains_singleton, filter_contains_singleton, hv.rows]

theorem SameVersion.loaderIds_eq (hv : SameVersion s t id) : t.loaderIds id = s.loaderIds id := by
  rw [loaderIds, loaderIds, hv.loaders]

namespace SharesTables

theorem projectTypeNames_eq (h : s.SharesTables t) : t.projectTypeNames = s.projectTypeNames := by
  rw [h]
  rfl

theorem ownerRows_eq (h : s.SharesTables t) : t.ownerRows = s.ownerRows := by
  rw [h]
  rfl

theorem loadersOf_eq (h : s.SharesTables t) (hv : SameVersion s t id) :
    t.loadersOf [id] = s.loadersOf [id] := by
  have htable : t.loaders = s.loaders := by rw [h]
  simp only [loadersOf, filter_contains_singleton, hv.loaders, htable]

theorem projectTypesOfVersions_eq (h : s.SharesTables t) (hv : SameVersion s t id) :
    t.projectTypesOfVersions [id] = s.projectTypesOfVersions [id] := by
  simp only [projectTypesOfVersions, filter_contains_singleton, hv.loaders, h.projectTypeNames_eq]

theorem fieldValuesOf_eq (h : s.SharesTables t) (hv : SameVersion s t id) :
    t.fieldValuesOf [id] = s.fieldValuesOf [id] := by
  have hfields : t.fields = s.fields := by rw [h]
  have hvalues : t.enumValues = s.enumValues := by rw [h]
  simp only [fieldValuesOf, filter_contains_singleton, hv.fields, hfields, hvalues]

theorem typed_iff (h : s.SharesTables t) (hv : SameVersion s t id) : t.Typed id ↔ s.Typed id := by
  rw [Typed, Typed, h.fieldValuesOf_eq hv]

theorem versionOf_eq (h : s.SharesTables t) {r : VersionRow} (hv : SameVersion s t r.id) :
    t.versionOf r = s.versionOf r := by
  rw [versionOf, versionOf, h.loadersOf_eq hv, h.projectTypesOfVersions_eq hv,
    h.fieldValuesOf_eq hv]

theorem versionRecords_eq (h : s.SharesTables t) (hv : SameVersion s t id) :
    t.versionRecords [id] = s.versionRecords [id] := by
  rw [versionRecords, versionRecords, hv.versionsOf_eq]
  refine List.map_congr_left fun r hr => h.versionOf_eq ?_
  rw [List.mem_singleton.1 (s.mem_versionsOf.1 hr).2]
  exact hv

theorem forall_typed_iff (h : s.SharesTables t) (hv : SameVersion s t id) :
    (∀ r ∈ t.versionsOf [id], t.Typed r.id) ↔ ∀ r ∈ s.versionsOf [id], s.Typed r.id := by
  rw [hv.versionsOf_eq]
  refine forall₂_congr fun r hr => ?_
  rw [List.mem_singleton.1 (s.mem_versionsOf.1 hr).2]
  exact h.typed_iff hv

/-! ### Projects -/

theorem projectsOf_eq (hp : SameProject s t id) : t.projectsOf [id] = s.projectsOf [id] := by
  rw [projectsOf, projectsOf, filter_contains_singleton, filter_contains_singleton, hp.rows]

/-- The record of a project, but for what it has of the loaders of its versions. -/
theorem projectOf_eq (h : s.SharesTables t) {r : ProjectRow} (hp : SameProject s t r.id)
    (hids : (t.versionsOfProjects [r.id]).map VersionRow.id =
      (s.versionsOfProjects [r.id]).map VersionRow.id) :
    t.projectOf r = { s.projectOf r with
      projectTypes := (t.projectOf r).projectTypes
      games := (t.projectOf r).games } := by
  have hcategories : t.categories = s.categories := by rw [h]
  have hplatforms : t.linkPlatforms = s.linkPlatforms := by rw [h]
  have hself : r.id ∈ [r.id] := List.mem_cons_self
  simp only [projectOf, Hydration.project, categoriesOf, galleryOf, linksOf,
    filter_contains_singleton, hp.categories, hp.gallery, hp.links, hcategories, hplatforms,
    t.local_versionsOfProjects.filter_eq hself, s.local_versionsOfProjects.filter_eq hself, hids]

/-- Names that loaders give to a project are the same if its versions and their loaders are. -/
theorem namesOfProjects_eq (names : Int → List String)
    (hv : (t.versions.filter fun v => v.projectId = id) =
      s.versions.filter fun v => v.projectId = id)
    (hl : ∀ v ∈ s.versions, v.projectId = id → t.loaderIds v.id = s.loaderIds v.id) :
    t.namesOfProjects names [id] = s.namesOfProjects names [id] := by
  rw [namesOfProjects, namesOfProjects, filter_contains_singleton, filter_contains_singleton, hv]
  refine congrArg (fun l : List (List NameOf) => sortBy nameLe (distinct l.flatten)) ?_
  refine List.map_congr_left fun v hmem => ?_
  obtain ⟨hmem, hid⟩ := List.mem_filter.1 hmem
  rw [hl v hmem (of_decide_eq_true hid)]

end SharesTables

end CatalogSearch.Store
