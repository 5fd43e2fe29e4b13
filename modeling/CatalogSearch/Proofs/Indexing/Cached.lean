import CatalogSearch.Proofs.Indexing.Documents
import CatalogSearch.Proofs.Loading.Cached

/-!
# Indexing with a cache

If the cache is coherent, a run comes to what the records of the store give, and the cache is
coherent after every request of it (`ensures_run`).
-/

namespace CatalogSearch.Indexing

open Cache

variable {s : Store} {settings : Settings} {size : Int} {registry : License.Registry}
  {documents : List Document} {c : Contents}

/-- The result is the one that the records of the store give. -/
def Settles (s : Store) (size : Int) (registry : License.Registry)
    (r : Except IndexingError (List Document)) : Prop :=
  ∀ versions projects, Found s size versions projects →
    (assemble registry versions projects (visibleVersions s.visibleRows)).mapError .assembly = r

theorem Settles.eq_ok {r : Except IndexingError (List Document)} {versions : OrderedMap Int Version}
    {projects : OrderedMap Int Project} (h : Settles s size registry r)
    (hg : Gathered s size registry documents versions projects) : r = .ok documents := by
  rw [← h versions projects hg.toFound, hg.assembled]
  rfl

theorem settles_assemble (registry : License.Registry) {versions : OrderedMap Int Version}
    {projects : OrderedMap Int Project} (h : Found s size versions projects) :
    Settles s size registry ((assemble registry versions projects
      (visibleVersions s.visibleRows)).mapError .assembly) := by
  intro versions' projects' h'
  rw [assemble_congr (fun id => (h'.findsVersions id).trans (h.findsVersions id).symm) fun id =>
    (h'.findsProjects id).trans (h.findsProjects id).symm]

/-- With a cache or without, a run comes to what the records of the store give. -/
theorem ensures_run (hready : Ready s settings.loadBatchSize)
    (hc : c.Coherent s settings.loadBatchSize) (cached : Bool) (registry : License.Registry) :
    Attempt.Ensures s.cachedWorld (Contents.Coherent s settings.loadBatchSize)
      (fun documents c' => c'.Coherent s settings.loadBatchSize ∧
        Settles s settings.loadBatchSize registry (.ok documents))
      (fun e c' => c'.Coherent s settings.loadBatchSize ∧
        Settles s settings.loadBatchSize registry (.error e))
      (run settings cached registry) c := by
  have hselect : Attempt.Yields s select (.ok (visibleVersions s.visibleRows)) :=
    yields_select.2 rfl
  refine Attempt.ensures_bind.2 (hselect.ensures
    (Loading.answersFrom_cachedWorld s settings.loadBatchSize) hc (fun _ h => h) fun c₁ hc₁ => ?_)
  have hload := Loading.ensures_loadBoth (o := loadOptions settings cached none none)
    hready.versions hready.projects hc₁
  refine Attempt.ensures_bind.2 (Attempt.ensures_withError.2 (hload.mono ?_ fun _ _ h => h.elim))
  rintro ⟨versions, projects⟩ c₂ ⟨hc₂, hversions, hprojects⟩
  have hsettles := settles_assemble registry ⟨hversions, hprojects⟩
  refine Attempt.ensures_mk_done.2 ?_
  cases hr : (assemble registry versions projects (visibleVersions s.visibleRows)).mapError
      IndexingError.assembly with
  | ok documents => exact ⟨hc₂, hr ▸ hsettles⟩
  | error e => exact ⟨hc₂, hr ▸ hsettles⟩

end CatalogSearch.Indexing
