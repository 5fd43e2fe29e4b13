import CatalogSearch.Proofs.Document.Consistency
import CatalogSearch.Proofs.Indexing.Agreement
import CatalogSearch.Proofs.Loading.Views
import Mathlib.Data.List.Sort

/-!
# Loaders of a document

They are gathered from the records of all versions of the project, of which a run has loaded the
visible ones. So they are the loaders of the visible versions of the project, while the document
lists the others as well (`showsLoaders_of_gathered`).
-/

namespace CatalogSearch

/-- The loaders gathered for ids increase, are those of the mapped versions, and depend on nothing
but which of the mapped ids there are. -/
structure GathersLoaders (ids : List Int) (versions : OrderedMap Int Version) : Prop where
  increasing : (aggregateLoaders ids versions).Pairwise (· < ·)
  mem_iff : ∀ loader, loader ∈ aggregateLoaders ids versions ↔
    ∃ id ∈ ids, ∃ v, versions.find? id = some v ∧ loader ∈ v.loaders
  congr : ∀ ids', (∀ id, (versions.find? id).isSome → (id ∈ ids' ↔ id ∈ ids)) →
    aggregateLoaders ids' versions = aggregateLoaders ids versions

theorem pairwise_aggregateLoaders (ids : List Int) (versions : OrderedMap Int Version) :
    (aggregateLoaders ids versions).Pairwise (· < ·) :=
  pairwise_lt_of_nodup (pairwise_sortBy .textLe _)
    ((sortBy_perm _ _).nodup_iff.2 (nodup_distinct _))

theorem gathersLoaders (ids : List Int) (versions : OrderedMap Int Version) :
    GathersLoaders ids versions where
  increasing := pairwise_aggregateLoaders ids versions
  mem_iff _ := mem_aggregateLoaders
  congr ids' hids := by
    apply List.Pairwise.eq_of_mem_iff (pairwise_aggregateLoaders _ _)
      (pairwise_aggregateLoaders _ _)
    intro loader
    simp only [mem_aggregateLoaders]
    constructor
    · rintro ⟨id, hid, v, hv, hloader⟩
      exact ⟨id, (hids id (by simp [hv])).1 hid, v, hv, hloader⟩
    · rintro ⟨id, hid, v, hv, hloader⟩
      exact ⟨id, (hids id (by simp [hv])).2 hid, v, hv, hloader⟩

namespace Store

variable {s : Store}

/-- The version is linked to a loader of the name. -/
def HasLoader (s : Store) (versionId : Int) (loader : String) : Prop :=
  ∃ l ∈ s.loaders, ⟨l.id, versionId⟩ ∈ s.versionLoaders ∧ l.name = loader

theorem mem_loaders_versionOf {r : VersionRow} {loader : String} :
    loader ∈ (s.versionOf r).loaders ↔ s.HasLoader r.id loader := by
  change loader ∈ Hydration.namesOf r.id (s.loadersOf [r.id]) ↔ _
  rw [Hydration.mem_namesOf, loadersOf, mem_sortBy, filter_contains_singleton, List.mem_flatMap]
  constructor
  · rintro ⟨⟨loaderId, versionId⟩, hvl, hname⟩
    obtain ⟨hvl, hid⟩ := List.mem_filter.1 hvl
    obtain rfl : versionId = r.id := of_decide_eq_true hid
    obtain ⟨l, hl, heq⟩ := List.mem_map.1 hname
    obtain ⟨hmem, hloader⟩ := List.mem_filter.1 hl
    obtain rfl : l.id = loaderId := of_decide_eq_true hloader
    exact ⟨l, hmem, hvl, congrArg NameOf.name heq⟩
  · rintro ⟨l, hl, hvl, rfl⟩
    refine ⟨_, List.mem_filter.2 ⟨hvl, decide_eq_true rfl⟩, List.mem_map.2 ⟨l, ?_, rfl⟩⟩
    exact List.mem_filter.2 ⟨hl, decide_eq_true rfl⟩

theorem mem_loaders_of_versionRecords {id : Int} {v : Version} (hv : v ∈ s.versionRecords [id])
    {loader : String} : loader ∈ v.loaders ↔ s.HasLoader id loader := by
  obtain ⟨r, -, rfl, rfl⟩ := s.mem_versionRecords.1 hv
  exact mem_loaders_versionOf

/-- The document of a project shows the loaders of its visible versions, and lists all versions. -/
structure ShowsLoaders (s : Store) (project : Int) (d : Document) : Prop where
  increasing : d.loaders.Pairwise (· < ·)
  mem_loaders : ∀ loader, loader ∈ d.loaders ↔ ∃ v ∈ s.versions, ∃ p ∈ s.projects,
    v.VisibleIn p ∧ p.id = project ∧ s.HasLoader v.id loader
  mem_versions : ∀ id, id ∈ d.versions ↔
    ∃ v ∈ s.versions, v.projectId = project ∧ Base62.encode v.id = .ok id

end Store

namespace Indexing

variable {s : Store} {settings : Settings} {size : Int} {registry : License.Registry}
  {documents : List Document} {versions : OrderedMap Int Version}
  {projects : OrderedMap Int Project} {d : Document}

/-- Of the versions that are found, which are the visible ones, those with an id have its loaders. -/
theorem Found.exists_loader_iff (h : Found s size versions projects) (hsize : 1 ≤ size) {id : Int}
    {loader : String} : (∃ v, versions.find? id = some v ∧ loader ∈ v.loaders) ↔
      id ∈ (visibleVersions s.visibleRows).map VisibleVersion.versionId ∧
        s.HasLoader id loader := by
  constructor
  · rintro ⟨v, hv, hloader⟩
    obtain ⟨hid, hmem⟩ := h.findsVersions.mem hv
    exact ⟨hid, (Store.mem_loaders_of_versionRecords hmem).1 hloader⟩
  · rintro ⟨hid, hloader⟩
    obtain ⟨e, he, rfl⟩ := List.mem_map.1 hid
    obtain ⟨r, hr, -, -, -, hrid, -⟩ := Store.exists_visible_of_mem he
    have hne := (s.versionRecords_ne_nil e.versionId).2 (List.mem_map.2 ⟨r, hr, hrid⟩)
    obtain ⟨v, hv, hmem, -⟩ := stored_eq_some s.fetches_versions.isLocal hsize hne
    refine ⟨v, ?_, (Store.mem_loaders_of_versionRecords hmem).2 hloader⟩
    rw [h.findsVersions, if_pos hid, hv]

/-- The visible ones among the versions of a project, if versions differ in their ids. -/
theorem exists_visible_iff (hids : (s.versions.map Store.VersionRow.id).Nodup) {project : Int}
    {P : Int → Prop} :
    (∃ id, (∃ v ∈ s.versions, v.projectId = project ∧ v.id = id) ∧
        id ∈ (visibleVersions s.visibleRows).map VisibleVersion.versionId ∧ P id) ↔
      ∃ v ∈ s.versions, ∃ p ∈ s.projects, v.VisibleIn p ∧ p.id = project ∧ P v.id := by
  constructor
  · rintro ⟨_, ⟨v, hv, hproject, rfl⟩, hshown, hP⟩
    obtain ⟨e, he, hid⟩ := List.mem_map.1 hshown
    obtain ⟨v', hv', p, hp, hvisible, hid', -⟩ := Store.exists_visible_of_mem he
    -- the id alone does not tell of which project the visible version is
    obtain rfl := List.inj_on_of_nodup_map hids hv' hv (hid'.trans hid)
    exact ⟨v', hv, p, hp, hvisible, hvisible.2.1.trans hproject, hP⟩
  · rintro ⟨v, hv, p, hp, hvisible, hproject, hP⟩
    obtain ⟨e, he, hid⟩ := Store.exists_mem_visibleVersions hv hp hvisible
    have hown : v.projectId = project := hvisible.2.1.symm.trans hproject
    exact ⟨v.id, ⟨v, hv, hown, rfl⟩, List.mem_map.2 ⟨e, he, hid⟩, hP⟩

/-- The public ids of all versions of a project. -/
theorem mem_publicIds_versionIds {r : Store.ProjectRow} {ids : List String}
    (h : Document.publicIds (s.projectOf r).versionIds = .ok ids) {id : String} :
    id ∈ ids ↔ ∃ v ∈ s.versions, v.projectId = r.id ∧ Base62.encode v.id = .ok id := by
  constructor
  · intro hid
    obtain ⟨n, hn, hpublic⟩ := Document.exists_of_mem_publicIds h hid
    obtain ⟨v, hv, hproject, rfl⟩ := s.mem_versionIds_projectOf.1 hn
    exact ⟨v, hv, hproject, mapError_eq_ok.1 hpublic⟩
  · rintro ⟨v, hv, hproject, hpublic⟩
    apply (Document.mem_publicIds h (mapError_eq_ok.2 hpublic)).2
    exact s.mem_versionIds_projectOf.2 ⟨v, hv, hproject, rfl⟩

/-- What a document shows when the records of the visible versions have been found. -/
theorem showsLoaders_of_gathered (hids : (s.versions.map Store.VersionRow.id).Nodup)
    (h : Gathered s size registry documents versions projects) (hd : d ∈ documents) :
    ∃ project, Base62.encode project = .ok d.projectId ∧ s.ShowsLoaders project d := by
  obtain ⟨e, he, p, v, hp, hencode, hbuilt⟩ := h.exists_build hd
  have hgathers := Document.gathers_of_build hbuilt
  obtain ⟨row, -, hid, rfl⟩ := s.mem_projectRecords.1 (h.findsProjects.mem hp).2
  refine ⟨row.id, hid ▸ hencode, ?_, ?_, ?_⟩
  · rw [hgathers.loaders]
    exact pairwise_aggregateLoaders _ _
  · intro loader
    rw [hgathers.loaders, mem_aggregateLoaders]
    simp only [h.exists_loader_iff (h.findsProjects.size_pos hp), s.mem_versionIds_projectOf]
    exact exists_visible_iff hids
  · intro id
    exact mem_publicIds_versionIds hgathers.versionIds

/-- Gathering loaders is a sorted union. So the documents of a run without a cache show the loaders
of the visible versions of their projects and no others, though they list all versions; for this,
versions must differ in their ids. -/
theorem loaders_of_visible :
    (∀ ids versions, GathersLoaders ids versions) ∧
      ∀ {s : Store} {settings : Settings} {registry : License.Registry} {documents : List Document},
        (s.versions.map Store.VersionRow.id).Nodup →
          Attempt.Yields s (run settings false registry) (.ok documents) →
            ∀ d ∈ documents, ∃ project, Base62.encode project = .ok d.projectId ∧
              s.ShowsLoaders project d := by
  refine ⟨gathersLoaders, ?_⟩
  intro s settings registry documents hids h d hd
  obtain ⟨-, versions, projects, hg⟩ := gathered_of_yields h
  exact showsLoaders_of_gathered hids hg hd

/-- The loader of a draft is not shown, and the draft is listed. -/
theorem loaders_of_visible_crossed :
    (Store.crossed.versions.map Store.VersionRow.id).Nodup ∧ ∃ documents,
    Attempt.Yields .crossed (run .default false .sample) (.ok documents) ∧
      (∀ d ∈ documents, ∃ project, Base62.encode project = .ok d.projectId ∧
        Store.crossed.ShowsLoaders project d) ∧
      documents.map (fun d => (d.versionId, d.loaders, d.versions)) =
        [("9", ["paper", "quilt"], ["9"]), ("B", ["fabric", "quilt"], ["7", "8", "B"]),
          ("7", ["fabric", "quilt"], ["7", "8", "B"])] := by
  obtain ⟨documents, h, hshown⟩ := Attempt.exists_yields_of_settled? (s := .crossed)
    (a := run .default false .sample)
    (f := List.map fun d => (d.versionId, d.loaders, d.versions))
    (b := [("9", ["paper", "quilt"], ["9"]), ("B", ["fabric", "quilt"], ["7", "8", "B"]),
      ("7", ["fabric", "quilt"], ["7", "8", "B"])]) (by decide +kernel)
  have hids : (Store.crossed.versions.map Store.VersionRow.id).Nodup := by decide
  exact ⟨hids, documents, h, loaders_of_visible.2 hids h, hshown⟩

end Indexing

end CatalogSearch
