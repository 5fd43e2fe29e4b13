import CatalogSearch.Proofs.Document.Presentable
import CatalogSearch.Proofs.Indexing.Documents
import CatalogSearch.Proofs.Loading.Steady

/-!
# Indexing with any cache

Indexing with a cache that may have any text under any key. A text that is no record does no harm,
but one that is a record counts whatever it says, and if no document can be made of it, the run
fails (`ensures_runSteadily`, `SettlesPreferred.exists_ok_iff`).
-/

namespace CatalogSearch.Indexing

open Cache

variable {s : Store} {settings : Settings} {registry : License.Registry}
  {documents : List Document} {c c' : Contents}

/-- Documents can be made of the records that count for the visible versions. -/
def AllPresentable (s : Store) (size : Int) (c : Contents) : Prop :=
  ∀ e ∈ visibleVersions s.visibleRows, ∀ project version,
    c.preferred .projects s.projectRecords size e.projectId = some project →
      c.preferred .versions s.versionRecords size e.versionId = some version →
        version.Presentable ∧ project.Presentable

theorem allPresentable_iff {size : Int} {versions : OrderedMap Int Version}
    {projects : OrderedMap Int Project}
    (hversions : Loading.Prefers c .versions s.versionRecords size
      ((visibleVersions s.visibleRows).map (·.versionId)) versions)
    (hprojects : Loading.Prefers c .projects s.projectRecords size
      ((visibleVersions s.visibleRows).map (·.projectId)) projects) :
    AllPresentable s size c ↔
      ∀ e ∈ visibleVersions s.visibleRows, e.Presentable versions projects := by
  refine forall₂_congr fun e he => ?_
  rw [VisibleVersion.Presentable, hversions, hprojects, if_pos (List.mem_map_of_mem he),
    if_pos (List.mem_map_of_mem he)]

/-- The result is the one that the records give which count for the visible versions. -/
def SettlesPreferred (s : Store) (size : Int) (registry : License.Registry) (c : Contents)
    (r : Except IndexingError (List Document)) : Prop :=
  ∃ versions projects,
    Loading.Prefers c .versions s.versionRecords size
      ((visibleVersions s.visibleRows).map (·.versionId)) versions ∧
    Loading.Prefers c .projects s.projectRecords size
      ((visibleVersions s.visibleRows).map (·.projectId)) projects ∧
    (assemble registry versions projects (visibleVersions s.visibleRows)).mapError .assembly = r

variable {size : Int} {r : Except IndexingError (List Document)}

theorem SettlesPreferred.exists_ok_iff (h : SettlesPreferred s size registry c r) :
    (∃ documents, r = .ok documents) ↔ AllPresentable s size c := by
  obtain ⟨versions, projects, hversions, hprojects, rfl⟩ := h
  rw [allPresentable_iff hversions hprojects, ← exists_assemble registry]
  exact exists_congr fun _ => mapError_eq_ok

/-- It does not matter where the records that count are found. -/
theorem SettlesPreferred.eq_assemble (h : SettlesPreferred s size registry c r)
    {versions : OrderedMap Int Version} {projects : OrderedMap Int Project}
    (hversions : Loading.Prefers c .versions s.versionRecords size
      ((visibleVersions s.visibleRows).map (·.versionId)) versions)
    (hprojects : Loading.Prefers c .projects s.projectRecords size
      ((visibleVersions s.visibleRows).map (·.projectId)) projects) :
    r = (assemble registry versions projects (visibleVersions s.visibleRows)).mapError
      .assembly := by
  obtain ⟨versions', projects', hversions', hprojects', rfl⟩ := h
  rw [assemble_congr (fun id => (hversions id).trans (hversions' id).symm) fun id =>
    (hprojects id).trans (hprojects' id).symm]

theorem ensures_runPreferred (hready : Ready s settings.loadBatchSize) (registry : License.Registry)
    (c : Contents) :
    Attempt.Ensures s.steadyWorld (fun _ => True)
      (fun documents c' => SettlesPreferred s settings.loadBatchSize registry c (.ok documents) ∧
        Loading.Refreshes s settings.loadBatchSize c c')
      (fun e c' => SettlesPreferred s settings.loadBatchSize registry c (.error e) ∧
        Loading.Refreshes s settings.loadBatchSize c c')
      (run settings true registry) c := by
  have hselect : Attempt.Yields s select (.ok (visibleVersions s.visibleRows)) :=
    yields_select.2 rfl
  refine Attempt.ensures_bind.2 (hselect.ensures (Loading.answersFrom_steadyWorld s c) rfl
    (fun _ _ => trivial) ?_)
  rintro _ rfl
  have hload := Loading.ensures_loadBothSteadily (o := loadOptions settings true none none) rfl
    hready.versions hready.projects
  refine Attempt.ensures_bind.2 (Attempt.ensures_withError.2
    ((hload _).mono ?_ fun _ _ h => h.elim))
  rintro ⟨versions, projects⟩ c₂ ⟨hversions, hprojects, hc₂⟩
  refine Attempt.ensures_mk_done.2 ?_
  cases hr : (assemble registry versions projects (visibleVersions s.visibleRows)).mapError
      IndexingError.assembly with
  | ok documents => exact ⟨⟨versions, projects, hversions, hprojects, hr⟩, hc₂⟩
  | error e => exact ⟨⟨versions, projects, hversions, hprojects, hr⟩, hc₂⟩

theorem ensures_runSteadily (hready : Ready s settings.loadBatchSize) (registry : License.Registry)
    (c : Contents) :
    Attempt.Ensures s.steadyWorld (fun _ => True)
      (fun _ _ => AllPresentable s settings.loadBatchSize c)
      (fun _ _ => ¬ AllPresentable s settings.loadBatchSize c) (run settings true registry) c := by
  refine (ensures_runPreferred hready registry c).mono ?_ ?_
  · rintro documents _ ⟨h, -⟩
    exact h.exists_ok_iff.1 ⟨documents, rfl⟩
  · rintro e _ ⟨h, -⟩ hpresentable
    obtain ⟨documents, hdocuments⟩ := h.exists_ok_iff.2 hpresentable
    cases hdocuments

end CatalogSearch.Indexing
