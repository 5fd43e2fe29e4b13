import CatalogSearch.Proofs.Data.OneEach
import CatalogSearch.Proofs.Document.Faults
import CatalogSearch.Proofs.Number.Base62

/-!
# Consistent documents

Whether a document is consistent with its own version: it lists the version among the versions of
its project, and has the loaders of the version among those of its project. Both come from the
version ids of the project's record, which need not be as recent as the version's record
(`Gathers.consistent_iff`).
-/

namespace CatalogSearch

/-- The ids of a document include its own version, and its loaders include those of the version. -/
structure Document.Consistent (version : Version) (d : Document) : Prop where
  lists : d.versionId ∈ d.versions
  loaders : version.loaders ⊆ d.loaders

variable {registry : License.Registry} {versions : OrderedMap Int Version} {project : Project}
  {version : Version} {owner : String} {d : Document}

theorem mem_aggregateLoaders {ids : List Int} {loader : String} :
    loader ∈ aggregateLoaders ids versions ↔
      ∃ id ∈ ids, ∃ v, versions.find? id = some v ∧ loader ∈ v.loaders := by
  rw [aggregateLoaders, mem_sortBy, mem_distinct, List.mem_flatMap]
  refine exists_congr fun id => and_congr_right fun _ => ?_
  cases versions.find? id <;> simp

namespace Document

theorem mem_publicIds {ns : List Int} {ids : List String} (h : publicIds ns = .ok ids)
    {n : Int} {id : String} (hn : publicId n = .ok id) : id ∈ ids ↔ n ∈ ns := by
  rw [publicIds_eq_mapM, mapM_eq_ok] at h
  induction h with
  | nil => simp
  | @cons m id' ns ids hm _ ih =>
    have hhead : id = id' ↔ n = m := by
      constructor
      · rintro rfl
        exact Base62.encode_inj (mapError_eq_ok.1 hn) (mapError_eq_ok.1 hm)
      · rintro rfl
        exact Except.ok.inj (hn.symm.trans hm)
    rw [List.mem_cons, List.mem_cons, hhead, ih]

theorem exists_of_mem_publicIds {ns : List Int} {ids : List String} (h : publicIds ns = .ok ids)
    {id : String} (hid : id ∈ ids) : ∃ n ∈ ns, publicId n = .ok id := by
  rw [publicIds_eq_mapM, mapM_eq_ok] at h
  exact (OneEach.of_forall₂ h).exists_of_mem hid

/-- What a document gathers from the records: the categories to be shown, the ids of the project's
versions, and their loaders. -/
structure Gathers (versions : OrderedMap Int Version) (project : Project) (version : Version)
    (d : Document) : Prop where
  displayCategories : d.displayCategories = project.categories ++ version.loaders
  versionId : publicId version.id = .ok d.versionId
  versionIds : publicIds project.versionIds = .ok d.versions
  loaders : d.loaders = aggregateLoaders project.versionIds versions

theorem gathers_of_build (h : build registry versions project version owner = .ok d) :
    d.Gathers versions project version := by
  obtain ⟨views, hd⟩ := exists_builtFrom h
  exact ⟨hd.displayCategories, hd.versionId, hd.versionIds, hd.loaders⟩

/-- A document is consistent with its version iff the record of its project lists the version. -/
theorem Gathers.consistent_iff (h : d.Gathers versions project version)
    (hv : versions.find? version.id = some version) :
    d.Consistent version ↔ version.id ∈ project.versionIds := by
  constructor
  · intro hd
    exact (mem_publicIds h.versionIds h.versionId).1 hd.lists
  · intro hid
    refine ⟨(mem_publicIds h.versionIds h.versionId).2 hid, ?_⟩
    intro loader hloader
    rw [h.loaders, mem_aggregateLoaders]
    exact ⟨version.id, hid, version, hv, hloader⟩

end Document

end CatalogSearch
