import CatalogSearch.Proofs.Document.Faults
import CatalogSearch.Proofs.Indexing.Agreement
import CatalogSearch.Proofs.Store.Frame

/-!
# Projects are separate

Projects do not affect one another. Without a project and all that belongs to it, the records of the
other projects and of their versions are the same (`projectRecords_without`), and the documents are
the same but for those of the project, whatever the sizes of the batches (`projects_separate`).
-/

namespace CatalogSearch

namespace Store

/-- The ids of the versions of a project. -/
def ownVersionIds (s : Store) (project : Int) : List Int :=
  (s.versions.filter fun v => v.projectId = project).map VersionRow.id

/-- The store without the rows of a project and of its versions. -/
def without (s : Store) (project : Int) : Store :=
  { s with
    projects := s.projects.filter fun p => p.id ≠ project
    projectCategories := s.projectCategories.filter fun c => c.projectId ≠ project
    gallery := s.gallery.filter fun g => g.projectId ≠ project
    links := s.links.filter fun l => l.projectId ≠ project
    versions := s.versions.filter fun v => v.projectId ≠ project
    versionLoaders := s.versionLoaders.filter fun l => l.versionId ∉ s.ownVersionIds project
    versionFields := s.versionFields.filter fun f => f.versionId ∉ s.ownVersionIds project }

theorem sharesTables_without (s : Store) (project : Int) : s.SharesTables (s.without project) := rfl

variable {s : Store} {project id : Int}

theorem filter_filter_eq {α : Type} {l : List α} {p q : α → Bool}
    (h : ∀ x ∈ l, p x = true → q x = true) : (l.filter q).filter p = l.filter p := by
  rw [List.filter_filter]
  refine List.filter_congr fun x hx => ?_
  cases hp : p x with
  | false => rfl
  | true => simp [h x hx hp]

theorem sameProject_without (hid : id ≠ project) : SameProject s (s.without project) id where
  rows := filter_filter_eq fun p _ hp => by simpa [of_decide_eq_true hp] using hid
  categories := filter_filter_eq fun c _ hc => by simpa [of_decide_eq_true hc] using hid
  gallery := filter_filter_eq fun g _ hg => by simpa [of_decide_eq_true hg] using hid
  links := filter_filter_eq fun l _ hl => by simpa [of_decide_eq_true hl] using hid

theorem sameVersion_without (hids : (s.versions.map VersionRow.id).Nodup) {v : VersionRow}
    (hv : v ∈ s.versions) (hproject : v.projectId ≠ project) :
    SameVersion s (s.without project) v.id := by
  have hother : v.id ∉ s.ownVersionIds project := fun hmem => by
    obtain ⟨w, hw, hid⟩ := List.mem_map.1 hmem
    obtain ⟨hw, howner⟩ := List.mem_filter.1 hw
    obtain rfl : w = v := List.inj_on_of_nodup_map hids hw hv hid
    exact hproject (of_decide_eq_true howner)
  constructor
  · refine filter_filter_eq fun w hw hid => ?_
    obtain rfl : w = v := List.inj_on_of_nodup_map hids hw hv (of_decide_eq_true hid)
    exact decide_eq_true hproject
  · exact filter_filter_eq fun l _ hl => by simpa [of_decide_eq_true hl] using hother
  · exact filter_filter_eq fun f _ hf => by simpa [of_decide_eq_true hf] using hother

/-! ### Visible versions -/

theorem flatMap_filter_of_nil {α β : Type} {l : List α} {p : α → Bool} {f : α → List β}
    (h : ∀ a ∈ l, p a = false → f a = []) : (l.filter p).flatMap f = l.flatMap f := by
  induction l with
  | nil => rfl
  | cons a rest ih =>
    obtain ⟨ha, hrest⟩ := List.forall_mem_cons.1 h
    cases hp : p a with
    | true => rw [List.filter_cons_of_pos hp, List.flatMap_cons, List.flatMap_cons, ih hrest]
    | false =>
      rw [List.filter_cons_of_neg (by simp [hp]), List.flatMap_cons, ha hp, List.nil_append,
        ih hrest]

theorem projectId_of_mem {v : VersionRow} {r : OwnerRow}
    (hr : r ∈ (s.projects.filter fun p => p.id = v.projectId && p.isSearchable).flatMap
      (s.ownerRows v)) : r.projectId = v.projectId := by
  obtain ⟨p, hp, hr⟩ := List.mem_flatMap.1 hr
  obtain ⟨_, -, hr⟩ := List.mem_flatMap.1 hr
  obtain ⟨_, -, rfl⟩ := List.mem_map.1 hr
  exact of_decide_eq_true (Bool.and_eq_true_iff.1 (List.mem_filter.1 hp).2).1

theorem visibleRows_without : (s.without project).visibleRows =
    s.visibleRows.filter fun r => r.projectId ≠ project := by
  have hlisted : (s.without project).versions.filter VersionRow.isListed =
      (s.versions.filter VersionRow.isListed).filter fun v => v.projectId ≠ project := by
    rw [List.filter_filter, without, List.filter_filter]
    exact List.filter_congr fun v _ => Bool.and_comm ..
  -- A row has the project of its version, so filtering the versions is filtering the rows.
  rw [visibleRows, visibleRows, filter_sortBy totalPreorder_ownerRowLe, filter_distinct,
    List.filter_flatMap, hlisted, ← flatMap_filter_of_nil (p := fun v => v.projectId ≠ project)
      (l := s.versions.filter VersionRow.isListed)]
  · refine congrArg (fun l : List (List OwnerRow) => sortBy ownerRowLe (distinct l.flatten)) ?_
    refine List.map_congr_left fun v hv => ?_
    have hother : v.projectId ≠ project := of_decide_eq_true (List.mem_filter.1 hv).2
    rw [List.filter_eq_self.2 fun r hr => decide_eq_true (projectId_of_mem hr ▸ hother)]
    refine congrArg (List.flatMap (s.ownerRows v)) (filter_filter_eq fun p _ hp => ?_)
    rw [of_decide_eq_true (Bool.and_eq_true_iff.1 hp).1]
    exact decide_eq_true hother
  · refine fun v _ hown => List.filter_eq_nil_iff.2 fun r hr => ?_
    rw [projectId_of_mem hr, hown]
    exact Bool.false_ne_true

theorem exists_version_of_mem {r : OwnerRow} (hr : r ∈ s.visibleRows) :
    ∃ v ∈ s.versions, v.id = r.versionId ∧ v.projectId = r.projectId := by
  obtain ⟨v, hv, p, -, hvisible, hrv, hrp, -⟩ := mem_visibleRows.1 hr
  exact ⟨v, hv, hrv.symm, hvisible.2.1.symm.trans hrp.symm⟩

theorem visibleVersions_without (hids : (s.versions.map VersionRow.id).Nodup) :
    visibleVersions (s.without project).visibleRows =
      (visibleVersions s.visibleRows).filter fun e => e.projectId ≠ project := by
  rw [visibleRows_without, visibleVersions, visibleVersions, List.filter_map,
    ← filter_distinctBy fun r hr r' hr' hid => ?_]
  · rfl
  · obtain ⟨v, hv, hrv, hrp⟩ := exists_version_of_mem hr
    obtain ⟨v', hv', hrv', hrp'⟩ := exists_version_of_mem hr'
    obtain rfl : v = v' :=
      List.inj_on_of_nodup_map hids hv hv' (hrv.trans (hid.trans hrv'.symm))
    rw [← hrp, ← hrp']

/-! ### Records -/

theorem versionsOfProjects_without (hid : id ≠ project) :
    ((s.without project).versions.filter fun v => v.projectId = id) =
      s.versions.filter fun v => v.projectId = id :=
  filter_filter_eq fun v _ hv => by simpa [of_decide_eq_true hv] using hid

theorem projectOf_without (hids : (s.versions.map VersionRow.id).Nodup) {r : ProjectRow}
    (hr : r.id ≠ project) : (s.without project).projectOf r = s.projectOf r := by
  have hversions : (s.without project).versionsOfProjects [r.id] = s.versionsOfProjects [r.id] := by
    rw [versionsOfProjects, versionsOfProjects, filter_contains_singleton,
      filter_contains_singleton, versionsOfProjects_without hr]
  have hnames (names : Int → List String) :
      (s.without project).namesOfProjects names [r.id] = s.namesOfProjects names [r.id] := by
    refine SharesTables.namesOfProjects_eq names (versionsOfProjects_without hr) ?_
    rintro v hv howner
    exact (sameVersion_without hids hv (howner ▸ hr)).loaderIds_eq
  have htypes : ((s.without project).projectOf r).projectTypes = (s.projectOf r).projectTypes :=
    congrArg (Hydration.namesOf r.id) (hnames s.projectTypeNames)
  have hgames : ((s.without project).projectOf r).games = (s.projectOf r).games :=
    congrArg (Hydration.namesOf r.id) (hnames s.gameNames)
  rw [(s.sharesTables_without project).projectOf_eq (sameProject_without hr)
    (congrArg (List.map VersionRow.id) hversions), htypes, hgames]

theorem projectRecords_without (hids : (s.versions.map VersionRow.id).Nodup) (hid : id ≠ project) :
    (s.without project).projectRecords [id] = s.projectRecords [id] := by
  rw [projectRecords, projectRecords, SharesTables.projectsOf_eq (sameProject_without hid)]
  refine List.map_congr_left fun r hr => projectOf_without hids ?_
  rw [List.mem_singleton.1 (s.local_projectsOf.key_mem hr)]
  exact hid

end Store

namespace Indexing

variable {s : Store} {settings settings' : Settings} {size size' : Int}
  {registry : License.Registry} {documents : List Document} {project : Int}
  {versions versions' : OrderedMap Int Version} {projects projects' : OrderedMap Int Project}

namespace Found

variable (hf : Found s size versions projects)
  (hf' : Found (s.without project) size' versions' projects')
  (hsize : Loading.Interchangeable size' size)
  (hids : (s.versions.map Store.VersionRow.id).Nodup)

include hf hf' hsize hids

theorem find?_version_without {v : Store.VersionRow} (hv : v ∈ s.versions)
    (hother : v.projectId ≠ project) : versions'.find? v.id = versions.find? v.id := by
  have hvisible : v.id ∈ (visibleVersions (s.without project).visibleRows).map (·.versionId) ↔
      v.id ∈ (visibleVersions s.visibleRows).map (·.versionId) := by
    rw [Store.visibleVersions_without hids]
    refine ⟨fun h => (List.filter_sublist.map _).subset h, fun h => ?_⟩
    obtain ⟨e, he, hid⟩ := List.mem_map.1 h
    obtain ⟨w, hw, -, -, -, hwid, hwproject⟩ := Store.exists_visible_of_mem he
    obtain rfl : w = v := List.inj_on_of_nodup_map hids hw hv (hwid.trans hid)
    exact List.mem_map.2 ⟨e, List.mem_filter.2 ⟨he, decide_eq_true (hwproject ▸ hother)⟩, hid⟩
  have hrecords := (s.sharesTables_without project).versionRecords_eq
    (Store.sameVersion_without hids hv hother)
  have hstored : Loading.stored (s.without project).versionRecords size' v.id =
      Loading.stored s.versionRecords size v.id := by
    rw [hsize.stored, Loading.stored, Loading.stored, hrecords]
  rw [hf.findsVersions, hf'.findsVersions, hstored]
  exact if_congr hvisible rfl rfl

theorem find?_project_without {e : VisibleVersion} (he : e ∈ visibleVersions s.visibleRows)
    (hother : e.projectId ≠ project) :
    projects'.find? e.projectId = projects.find? e.projectId := by
  have he' : e ∈ visibleVersions (s.without project).visibleRows := by
    rw [Store.visibleVersions_without hids]
    exact List.mem_filter.2 ⟨he, decide_eq_true hother⟩
  have hstored : Loading.stored (s.without project).projectRecords size' e.projectId =
      Loading.stored s.projectRecords size e.projectId := by
    rw [hsize.stored, Loading.stored, Loading.stored, Store.projectRecords_without hids hother]
  rw [hf.findsProjects, hf'.findsProjects, hstored, if_pos (List.mem_map_of_mem he'),
    if_pos (List.mem_map_of_mem he)]

theorem resolve?_without {e : VisibleVersion} (he : e ∈ visibleVersions s.visibleRows)
    (hother : e.projectId ≠ project) :
    e.resolve? versions' projects' = e.resolve? versions projects := by
  obtain ⟨v, hv, -, -, -, hid, hproject⟩ := Store.exists_visible_of_mem he
  rw [VisibleVersion.resolve?, VisibleVersion.resolve?, ← hid,
    hf.find?_version_without hf' hsize hids hv (hproject ▸ hother),
    hf.find?_project_without hf' hsize hids he hother]

theorem resolved_without :
    (visibleVersions (s.without project).visibleRows).filterMap
        (·.resolve? versions' projects') =
      ((visibleVersions s.visibleRows).filterMap (·.resolve? versions projects)).filter
        fun r => r.project.id ≠ project := by
  rw [Store.visibleVersions_without hids, List.filterMap_filter, List.filter_filterMap]
  refine List.filterMap_congr fun e he => ?_
  have hproject {r : Resolved} (hr : e.resolve? versions projects = some r) :
      r.project.id = e.projectId := hf.project_id (VisibleVersion.resolve?_eq_some.1 hr).1
  by_cases hother : e.projectId = project
  · cases hr : e.resolve? versions projects with
    | none => simp [hother]
    | some r => simp [Option.filter_some, hproject hr, hother]
  · rw [hf.resolve?_without hf' hsize hids he hother]
    cases hr : e.resolve? versions projects with
    | none => simp
    | some r => simp [Option.filter_some, hproject hr, hother]

/-- The documents of a project depend on the versions of no other one. -/
theorem build_without {e : VisibleVersion} {r : Resolved}
    (hr : e.resolve? versions projects = some r) (hother : r.project.id ≠ project) :
    r.build registry versions' = r.build registry versions := by
  obtain ⟨row, -, hrow⟩ := List.mem_map.1
    (hf.findsProjects.mem (VisibleVersion.resolve?_eq_some.1 hr).1).2
  refine Document.build_congr (fun id hid => ?_) r.version r.owner
  rw [← hrow] at hid hother
  obtain ⟨v, hv, howner, rfl⟩ := s.mem_versionIds_projectOf.1 hid
  exact hf.find?_version_without hf' hsize hids hv (howner ▸ hother)

end Found

theorem Ready.without (h : Ready s size) (hids : (s.versions.map Store.VersionRow.id).Nodup) :
    Ready (s.without project) size := by
  have hsub (key : VisibleVersion → Int) :
      ((visibleVersions s.visibleRows).filter fun e => e.projectId ≠ project).map key ⊆
        (visibleVersions s.visibleRows).map key := (List.filter_sublist.map key).subset
  constructor
  · rw [Store.visibleVersions_without hids]
    refine (h.versions.subset (hsub _)).imp fun id hid htyped => ?_
    obtain ⟨e, he, rfl⟩ := List.mem_map.1 hid
    obtain ⟨he, hother⟩ := List.mem_filter.1 he
    obtain ⟨v, hv, -, -, -, hid, hproject⟩ := Store.exists_visible_of_mem he
    have hsame : Store.SameVersion s (s.without project) v.id :=
      Store.sameVersion_without hids hv (hproject ▸ of_decide_eq_true hother)
    rw [← hid] at htyped ⊢
    exact ((s.sharesTables_without project).forall_typed_iff hsame).2 htyped
  · rw [Store.visibleVersions_without hids]
    exact h.projects.subset (hsub _)

/-- Without a project the documents are the same and in the same order, but for those of the
project, whatever the sizes of the batches. -/
theorem projects_separate (hids : (s.versions.map Store.VersionRow.id).Nodup)
    (hsize : 1 ≤ settings.loadBatchSize) (hsize' : 1 ≤ settings'.loadBatchSize) (project : Int)
    (hrun : Attempt.Yields s (run settings false registry) (.ok documents)) :
    Attempt.Yields (s.without project) (run settings' false registry)
      (.ok (documents.filter fun d => (Base62.encode project).toOption ≠ some d.projectId)) := by
  obtain ⟨hready, versions, projects, hg⟩ := gathered_of_yields hrun
  have hsizes : Loading.Interchangeable settings'.loadBatchSize settings.loadBatchSize :=
    .inr ⟨by omega, by omega⟩
  have hready' : Ready (s.without project) settings'.loadBatchSize :=
    (hready.without hids).of_interchangeable hsizes.symm
  obtain ⟨versions', projects', hf', hyields⟩ := hready'.exists_found
  refine hyields (assemble_eq_ok_iff.2 ?_)
  rw [hg.resolved_without hf' hsizes hids]
  have hpublic {r : Resolved} {d : Document} (hd : r.build registry versions = .ok d) :
      r.project.id = project ↔ (Base62.encode project).toOption = some d.projectId := by
    have hid := (Document.madeOf_of_build hd).projectId
    rw [Base62.toOption_encode]
    exact ⟨fun h => h ▸ hid, Base62.encode_inj hid⟩
  have hkept := List.rel_filter (R := fun r d => Resolved.build registry versions r = .ok d)
    (p := fun r => r.project.id ≠ project)
    (q := fun d => (Base62.encode project).toOption ≠ some d.projectId)
    (fun r d hd => by simpa using not_congr (hpublic hd)) (assemble_eq_ok_iff.1 hg.assembled)
  refine ((List.forall₂_and_left _ _).2 ⟨fun r hr => hr, hkept⟩).imp ?_
  rintro r d ⟨hr, hd⟩
  obtain ⟨hr, hother⟩ := List.mem_filter.1 hr
  obtain ⟨e, -, hr⟩ := List.mem_filterMap.1 hr
  rw [hg.build_without hf' hsizes hids hr (of_decide_eq_true hother)]
  exact hd

/-- Without one project of the store, read in batches of another size. -/
theorem projects_separate_sample :
    (Store.sample.versions.map Store.VersionRow.id).Nodup ∧
      1 ≤ Settings.default.loadBatchSize ∧ ∃ documents,
        Attempt.Yields .sample (run .default false .sample) (.ok documents) ∧
        Attempt.Yields (Store.sample.without 101)
          (run { Settings.default with loadBatchSize := 1 } false .sample)
          (.ok (documents.filter fun d => (Base62.encode 101).toOption ≠ some d.projectId)) ∧
        documents.map Document.projectId = ["1d", "1c", "1c"] ∧
        (documents.filter fun d => (Base62.encode 101).toOption ≠ some d.projectId).map
          Document.projectId = ["1c", "1c"] := by
  have hids : (Store.sample.versions.map Store.VersionRow.id).Nodup := by decide
  have hsize : 1 ≤ Settings.default.loadBatchSize := by decide
  obtain ⟨documents, hrun, hprojects⟩ := Attempt.exists_yields_of_settled? (s := .sample)
    (a := run .default false .sample) (f := List.map Document.projectId)
    (b := ["1d", "1c", "1c"]) (by decide +kernel)
  refine ⟨hids, hsize, documents, hrun,
    projects_separate hids hsize (Int.le_refl 1) 101 hrun, hprojects, ?_⟩
  have hmap : (documents.filter fun d => (Base62.encode 101).toOption ≠ some d.projectId).map
      Document.projectId = (documents.map Document.projectId).filter fun id =>
        (Base62.encode 101).toOption ≠ some id := by
    rw [List.filter_map]
    rfl
  rw [hmap, hprojects]
  decide +kernel

end Indexing

end CatalogSearch
