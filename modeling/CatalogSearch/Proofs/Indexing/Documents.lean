import CatalogSearch.Proofs.Document.Assembly
import CatalogSearch.Proofs.Loading.Batch
import CatalogSearch.Proofs.Number.Base62
import CatalogSearch.Proofs.Visibility.Selection

/-!
# Indexing without a cache

The documents of an intact store are those of its visible versions, each once and in their order
(`depicts_of_yields`, `exists_depicts`).
-/

namespace CatalogSearch

namespace Indexing

variable {s : Store} {settings : Settings} {registry : License.Registry}
  {documents : List Document}

/-- The records that the store has for the visible versions. -/
structure Found (s : Store) (size : Int) (versions : OrderedMap Int Version)
    (projects : OrderedMap Int Project) : Prop where
  findsVersions : Loading.Finds s.versionRecords size
    ((visibleVersions s.visibleRows).map (·.versionId)) versions
  findsProjects : Loading.Finds s.projectRecords size
    ((visibleVersions s.visibleRows).map (·.projectId)) projects

/-- The records that the store has for the visible versions, and the documents that they make. -/
structure Gathered (s : Store) (size : Int) (registry : License.Registry)
    (documents : List Document) (versions : OrderedMap Int Version)
    (projects : OrderedMap Int Project) : Prop extends Found s size versions projects where
  assembled : assemble registry versions projects (visibleVersions s.visibleRows) = .ok documents

/-- The visible versions can be loaded. -/
structure Ready (s : Store) (size : Int) : Prop where
  versions : Loading.Loadable (fun id => ∀ r ∈ s.versionsOf [id], s.Typed r.id) size
    ((visibleVersions s.visibleRows).map (·.versionId))
  projects : Loading.Loadable (fun _ => True) size
    ((visibleVersions s.visibleRows).map (·.projectId))

theorem Ready.of_interchangeable {size size' : Int} (h : Loading.Interchangeable size size')
    (hready : Ready s size) : Ready s size' :=
  ⟨h.loadable hready.versions, h.loadable hready.projects⟩

/-- A run without a cache that returns documents has gathered the records of all visible versions
from the store. -/
theorem gathered_of_yields (h : Attempt.Yields s (run settings false registry) (.ok documents)) :
    Ready s settings.loadBatchSize ∧ ∃ versions projects,
      Gathered s settings.loadBatchSize registry documents versions projects := by
  rw [run] at h
  obtain ⟨visible, hvisible, h⟩ := Attempt.yields_bind.1 h
  cases yields_select.1 hvisible
  obtain ⟨⟨versions, projects⟩, hloaded, h⟩ := Attempt.yields_bind.1 h
  obtain ⟨hversions, hprojects⟩ :=
    Loading.yields_loadBoth.1 (Attempt.yields_withError_ok.1 hloaded)
  obtain ⟨hversions, hv⟩ := Loading.yields_load s.fetches_versions rfl hversions
  obtain ⟨hprojects, hp⟩ := Loading.yields_load s.fetches_projects rfl hprojects
  exact ⟨⟨hversions, hprojects⟩, versions, projects, ⟨hv, hp⟩,
    mapError_eq_ok.1 (Attempt.yields_mk_done.1 h)⟩

/-- The records of visible versions that can be loaded are found, and a run without a cache returns
the documents that they make. -/
theorem Ready.exists_found (h : Ready s settings.loadBatchSize) :
    ∃ versions projects, Found s settings.loadBatchSize versions projects ∧
      ∀ {registry : License.Registry} {documents : List Document},
        assemble registry versions projects (visibleVersions s.visibleRows) = .ok documents →
          Attempt.Yields s (run settings false registry) (.ok documents) := by
  have hc : (loadOptions settings false none none).cached = false := rfl
  obtain ⟨versions, hversions⟩ := Loading.exists_yields_load s.fetches_versions hc h.versions
  obtain ⟨projects, hprojects⟩ := Loading.exists_yields_load s.fetches_projects hc h.projects
  refine ⟨versions, projects, ⟨?_, ?_⟩, fun hdocuments => ?_⟩
  · exact (Loading.yields_load s.fetches_versions hc hversions).2
  · exact (Loading.yields_load s.fetches_projects hc hprojects).2
  · refine Attempt.yields_bind.2 ⟨_, yields_select.2 rfl, Attempt.yields_bind.2
      ⟨(versions, projects), Attempt.yields_withError_ok.2 ?_, ?_⟩⟩
    · exact Loading.yields_loadBoth.2 ⟨hversions, hprojects⟩
    · exact Attempt.yields_mk_done.2 (mapError_eq_ok.2 hdocuments)

theorem settled_run (s : Store) (settings : Settings) (registry : License.Registry) :
    Attempt.Settled s (run settings false registry) := by
  refine Attempt.Settled.bind ?_ fun visible => Attempt.Settled.bind ?_ fun loaded =>
    Attempt.settled_mk_done
  · exact Attempt.settled_askStore.withError.bind fun rows => Attempt.settled_pure
  · refine Attempt.Settled.withError ?_
    refine (Loading.settled_load s.fetches_versions rfl _).outcome.bind fun versions =>
      (Loading.settled_load s.fetches_projects rfl _).outcome.bind fun projects => ?_
    split
    · exact Attempt.settled_pure
    · exact Attempt.settled_throw
    · exact Attempt.settled_throw

theorem stored_eq_some {ρ : Type} {k : RecordKind ρ} {records : List Int → List ρ}
    (hl : Store.Local k.id records) {size id : Int} (hsize : 1 ≤ size) (hne : records [id] ≠ []) :
    ∃ r, Loading.stored records size id = some r ∧ r ∈ records [id] ∧ k.id r = id := by
  have hr := List.getLast_mem hne
  refine ⟨(records [id]).getLast hne, ?_, hr, List.mem_singleton.1 (hl.key_mem hr)⟩
  rw [Loading.stored, if_pos (by omega), List.getLast?_eq_some_getLast hne]

/-- A document shows a visible version. -/
structure Depicts (e : VisibleVersion) (d : Document) : Prop where
  versionId : Base62.encode e.versionId = .ok d.versionId
  projectId : Base62.encode e.projectId = .ok d.projectId
  author : d.author = e.owner
  status : d.status = "approved" ∨ d.status = "archived"

theorem depicts_of_yields (hs : s.Intact) (hsize : 1 ≤ settings.loadBatchSize)
    (h : Attempt.Yields s (run settings false registry) (.ok documents)) :
    List.Forall₂ Depicts (visibleVersions s.visibleRows) documents := by
  obtain ⟨-, versions, projects, hg⟩ := gathered_of_yields h
  have hversion {e : VisibleVersion} (he : e ∈ visibleVersions s.visibleRows) :
      ∃ v, versions.find? e.versionId = some v ∧ v.id = e.versionId := by
    obtain ⟨v, hv, _, _, _, hid, _, _⟩ := (Store.mem_visibleVersions hs).1 he
    have hne := (s.versionRecords_ne_nil e.versionId).2 (List.mem_map.2 ⟨v, hv, hid.symm⟩)
    obtain ⟨r, hr, -, hrid⟩ := stored_eq_some s.fetches_versions.isLocal hsize hne
    exact ⟨r, (hg.findsVersions _).trans (by rw [if_pos (List.mem_map_of_mem he), hr]), hrid⟩
  have hproject {e : VisibleVersion} (he : e ∈ visibleVersions s.visibleRows) :
      ∃ p, projects.find? e.projectId = some p ∧ p.id = e.projectId ∧
        (p.status = "approved" ∨ p.status = "archived") := by
    obtain ⟨_, _, p, hp, hvisible, _, hid, _⟩ := (Store.mem_visibleVersions hs).1 he
    have hne := (s.projectRecords_ne_nil e.projectId).2 (List.mem_map.2 ⟨p, hp, hid.symm⟩)
    obtain ⟨r, hr, hmem, hrid⟩ := stored_eq_some s.fetches_projects.isLocal hsize hne
    refine ⟨r, (hg.findsProjects _).trans (by rw [if_pos (List.mem_map_of_mem he), hr]), hrid, ?_⟩
    obtain ⟨row, hrow, -, rfl⟩ := s.mem_projectRecords.1 hmem
    obtain rfl : row = p := List.inj_on_of_nodup_map hs.nodup_projects hrow hp (hrid.trans hid)
    exact hvisible.2.2
  have hrecords : ∀ e ∈ visibleVersions s.visibleRows, HasRecords versions projects e := by
    intro e he
    obtain ⟨v, hv, -⟩ := hversion he
    obtain ⟨p, hp, -⟩ := hproject he
    exact ⟨by rw [hp]; rfl, by rw [hv]; rfl⟩
  have hmade := (List.forall₂_and_left _ _).2
    ⟨fun e (he : e ∈ visibleVersions s.visibleRows) => he, assemble_eq_ok hrecords hg.assembled⟩
  refine hmade.imp ?_
  rintro e d ⟨he, p, v, hp, hv, hd⟩
  obtain ⟨v', hv', hvid⟩ := hversion he
  obtain ⟨p', hp', hpid, hstatus⟩ := hproject he
  cases hv.symm.trans hv'
  cases hp.symm.trans hp'
  exact ⟨hvid ▸ hd.versionId, hpid ▸ hd.projectId, hd.author, hd.status ▸ hstatus⟩

theorem exists_depicts {visible : List VisibleVersion} {d : Document}
    (h : List.Forall₂ Depicts visible documents) (hd : d ∈ documents) :
    ∃ e ∈ visible, Depicts e d :=
  (OneEach.of_forall₂ h).exists_of_mem hd

/-- Documents of different versions have different public ids. -/
theorem nodup_versionId_of_depicts {visible : List VisibleVersion}
    (hn : (visible.map VisibleVersion.versionId).Nodup)
    (h : List.Forall₂ Depicts visible documents) : (documents.map Document.versionId).Nodup := by
  induction h with
  | nil => exact List.nodup_nil
  | cons hd hrest ih =>
    obtain ⟨he, hn⟩ := List.nodup_cons.1 hn
    refine List.nodup_cons.2 ⟨fun hmem => he ?_, ih hn⟩
    obtain ⟨d', hd', hid⟩ := List.mem_map.1 hmem
    obtain ⟨e', he', hdepicts⟩ := exists_depicts hrest hd'
    refine List.mem_map.2 ⟨e', he', ?_⟩
    exact Base62.encode_inj hdepicts.versionId (hid ▸ hd.versionId)

theorem map_ids_of_depicts {visible : List VisibleVersion}
    (h : List.Forall₂ Depicts visible documents) :
    (documents.map fun d => (Except.ok d.versionId, Except.ok d.projectId, d.author)) =
      visible.map fun e => (Base62.encode e.versionId, Base62.encode e.projectId, e.owner) := by
  induction h with
  | nil => rfl
  | cons hd _ ih =>
    rw [List.map_cons, List.map_cons, ih, hd.versionId, hd.projectId, hd.author]

end Indexing

end CatalogSearch
