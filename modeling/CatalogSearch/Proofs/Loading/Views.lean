import CatalogSearch.Proofs.Loading.Parts

/-!
# Projects and versions agree

Projects and versions are hydrated by different queries, which agree: the versions that the record
of a project lists are those whose records name the project, and its project types are theirs
(`viewsAgree_projectOf`).
-/

namespace CatalogSearch.Store

variable {s : Store}

/-- Some batch of versions is hydrated with the record for the id. -/
def HydratesTo (s : Store) (id : Int) (v : Version) : Prop :=
  ∃ ids versions, Attempt.Yields s (Hydration.versions ids) (.ok versions) ∧ v ∈ versions ∧ v.id = id

/-- The record of a project and the records of versions tell the same. -/
structure ViewsAgree (s : Store) (p : Project) : Prop where
  hydrated : ∀ ids, ∃ versions, Attempt.Yields s (Hydration.versions ids) (.ok versions) ∧
    ∀ id ∈ ids, id ∈ p.versionIds → ∃ v ∈ versions, v.id = id ∧ v.projectId = p.id
  mem_versionIds : ∀ id, id ∈ p.versionIds ↔ ∃ v, s.HydratesTo id v ∧ v.projectId = p.id
  mem_versionIds_iff : (s.versions.map VersionRow.id).Nodup → ∀ id v, s.HydratesTo id v →
    (id ∈ p.versionIds ↔ v.projectId = p.id)
  increasing : p.projectTypes.Pairwise (· < ·)
  mem_projectTypes : ∀ name, name ∈ p.projectTypes ↔
    ∃ id ∈ p.versionIds, ∃ v, s.HydratesTo id v ∧ name ∈ v.projectTypes
  increasing_versions : ∀ id ∈ p.versionIds, ∀ v, s.HydratesTo id v →
    v.projectTypes.Pairwise (· < ·)

/-! ### Hydrated versions -/

theorem hydratesTo_iff (hs : s.ValidFieldTypes) {id : Int} {v : Version} :
    s.HydratesTo id v ↔ ∃ r ∈ s.versions, r.id = id ∧ s.versionOf r = v := by
  constructor
  · rintro ⟨ids, versions, hy, hv, hid⟩
    obtain ⟨-, rfl⟩ := s.yields_versions.1 hy
    obtain ⟨r, hr, rfl⟩ := List.mem_map.1 hv
    exact ⟨r, (s.mem_versionsOf.1 hr).1, hid, rfl⟩
  · rintro ⟨r, hr, rfl, rfl⟩
    refine ⟨[r.id], _, s.yields_versions.2 ⟨fun r _ => hs.typed r.id, rfl⟩, ?_, rfl⟩
    exact List.mem_map_of_mem (s.mem_versionsOf.2 ⟨hr, List.mem_singleton_self r.id⟩)

/-! ### Names in order -/

theorem nodup_namesOf {id : Int} {l : List NameOf} (h : l.Nodup) :
    (Hydration.namesOf id l).Nodup := by
  apply List.Nodup.map_on _ (h.filter _)
  rintro ⟨owner, name⟩ hx ⟨owner', name'⟩ hy rfl
  obtain rfl : owner = id := of_decide_eq_true (List.mem_filter.1 hx).2
  obtain rfl : owner' = owner := of_decide_eq_true (List.mem_filter.1 hy).2
  rfl

/-- Distinct names of one owner increase when they are sorted. -/
theorem pairwise_namesOf (id : Int) (l : List NameOf) :
    (Hydration.namesOf id (sortBy nameLe (distinct l))).Pairwise (· < ·) := by
  apply pairwise_lt_of_nodup
  · apply List.pairwise_map.2
    apply pairwise_next ((pairwise_sortBy totalPreorder_nameLe _).sublist List.filter_sublist)
    intro x hx
    exact of_decide_eq_true (List.mem_filter.1 hx).2
  · exact nodup_namesOf ((sortBy_perm _ _).nodup_iff.2 (nodup_distinct l))

/-! ### Project types -/

theorem mem_projectTypes_versionOf {r : VersionRow} {name : String} :
    name ∈ (s.versionOf r).projectTypes ↔
      ∃ l ∈ s.loaderIds r.id, name ∈ s.projectTypeNames l := by
  change name ∈ Hydration.namesOf r.id (s.projectTypesOfVersions [r.id]) ↔ _
  rw [Hydration.mem_namesOf, projectTypesOfVersions, mem_sortBy, mem_distinct,
    filter_contains_singleton, List.mem_flatMap]
  constructor
  · rintro ⟨vl, hvl, hname⟩
    obtain ⟨n, hn, heq⟩ := List.mem_map.1 hname
    obtain rfl : n = name := congrArg NameOf.name heq
    exact ⟨vl.loaderId, List.mem_map_of_mem hvl, hn⟩
  · rintro ⟨l, hl, hname⟩
    obtain ⟨vl, hvl, rfl⟩ := List.mem_map.1 hl
    have hid : vl.versionId = r.id := of_decide_eq_true (List.mem_filter.1 hvl).2
    exact ⟨vl, hvl, List.mem_map.2 ⟨name, hname, by rw [hid]⟩⟩

theorem mem_projectTypes_projectOf {r : ProjectRow} {name : String} :
    name ∈ (s.projectOf r).projectTypes ↔ ∃ v ∈ s.versions, v.projectId = r.id ∧
      name ∈ (s.versionOf v).projectTypes := by
  rw [projectTypes_projectOf, Hydration.mem_namesOf, namesOfProjects, mem_sortBy, mem_distinct,
    filter_contains_singleton, List.mem_flatMap]
  constructor
  · rintro ⟨v, hv, hname⟩
    obtain ⟨hv, hid⟩ := List.mem_filter.1 hv
    obtain ⟨l, hl, hname⟩ := List.mem_flatMap.1 hname
    obtain ⟨n, hn, heq⟩ := List.mem_map.1 hname
    obtain rfl : n = name := congrArg NameOf.name heq
    exact ⟨v, hv, of_decide_eq_true hid, mem_projectTypes_versionOf.2 ⟨l, hl, hn⟩⟩
  · rintro ⟨v, hv, hid, hname⟩
    obtain ⟨l, hl, hn⟩ := mem_projectTypes_versionOf.1 hname
    refine ⟨v, List.mem_filter.2 ⟨hv, decide_eq_true hid⟩, List.mem_flatMap.2 ⟨l, hl, ?_⟩⟩
    exact List.mem_map.2 ⟨name, hn, by rw [hid]⟩

/-! ### Both views -/

theorem viewsAgree_projectOf (hs : s.ValidFieldTypes) (r : ProjectRow) :
    s.ViewsAgree (s.projectOf r) where
  hydrated ids := by
    refine ⟨_, s.yields_versions.2 ⟨fun v _ => hs.typed v.id, rfl⟩, ?_⟩
    intro id hid hlisted
    obtain ⟨v, hv, hproject, rfl⟩ := s.mem_versionIds_projectOf.1 hlisted
    exact ⟨s.versionOf v, List.mem_map_of_mem (s.mem_versionsOf.2 ⟨hv, hid⟩), rfl, hproject⟩
  mem_versionIds id := by
    simp only [s.mem_versionIds_projectOf, hydratesTo_iff hs]
    constructor
    · rintro ⟨v, hv, hproject, rfl⟩
      exact ⟨s.versionOf v, ⟨v, hv, rfl, rfl⟩, hproject⟩
    · rintro ⟨_, ⟨v, hv, rfl, rfl⟩, hproject⟩
      exact ⟨v, hv, hproject, rfl⟩
  mem_versionIds_iff hids id v hv := by
    obtain ⟨row, hrow, rfl, rfl⟩ := (hydratesTo_iff hs).1 hv
    rw [s.mem_versionIds_projectOf]
    constructor
    · rintro ⟨row', hrow', hproject, hid⟩
      obtain rfl := List.inj_on_of_nodup_map hids hrow' hrow hid
      exact hproject
    · intro hproject
      exact ⟨row, hrow, hproject, rfl⟩
  increasing := pairwise_namesOf r.id _
  mem_projectTypes name := by
    simp only [mem_projectTypes_projectOf, s.mem_versionIds_projectOf, hydratesTo_iff hs]
    constructor
    · rintro ⟨v, hv, hproject, hname⟩
      exact ⟨v.id, ⟨v, hv, hproject, rfl⟩, s.versionOf v, ⟨v, hv, rfl, rfl⟩, hname⟩
    · rintro ⟨_, ⟨v, hv, hproject, rfl⟩, _, ⟨v', hv', hid, rfl⟩, hname⟩
      refine ⟨v, hv, hproject, ?_⟩
      rw [mem_projectTypes_versionOf] at hname ⊢
      exact hid ▸ hname
  increasing_versions id _ v hv := by
    obtain ⟨row, -, rfl, rfl⟩ := (hydratesTo_iff hs).1 hv
    exact pairwise_namesOf row.id _

/-- Projects are hydrated in agreement with versions: whatever the batch, its records have the
versions that name them and the project types of these. -/
theorem hydrated_viewsAgree (hs : s.ValidFieldTypes) (ids : List Int) :
    ∃ projects, Attempt.Yields s (Hydration.projects ids) (.ok projects) ∧
      OneEach (s.projects.filter fun r => r.id ∈ ids) (fun r p => p.id = r.id ∧ s.ViewsAgree p)
        projects :=
  exists_projects (fun r => ⟨rfl, viewsAgree_projectOf hs r⟩) ids

/-- A store whose versions share loaders and whose loaders share project types. The draft of one
project has a loader that no other version of the project has. -/
def crossed : Store :=
  { sample with
    loaders := [⟨1, "quilt"⟩, ⟨2, "paper"⟩, ⟨3, "fabric"⟩]
    versionLoaders := [⟨1, 7⟩, ⟨3, 7⟩, ⟨2, 8⟩, ⟨3, 11⟩, ⟨2, 9⟩, ⟨1, 9⟩]
    projectTypes := [⟨1, "plugin"⟩, ⟨2, "mod"⟩, ⟨3, "datapack"⟩]
    loaderProjectTypes := [⟨1, 2⟩, ⟨3, 2⟩, ⟨3, 3⟩, ⟨2, 1⟩, ⟨2, 3⟩] }

theorem hydrated_viewsAgree_crossed : crossed.ValidFieldTypes ∧
    ∃ projects, Attempt.Yields crossed (Hydration.projects [101, 100]) (.ok projects) ∧
      OneEach (crossed.projects.filter fun r => r.id ∈ [101, 100])
        (fun r p => p.id = r.id ∧ crossed.ViewsAgree p) projects :=
  have hs : crossed.ValidFieldTypes := by decide +kernel
  ⟨hs, hydrated_viewsAgree hs [101, 100]⟩

example : (crossed.projectOf (sampleProject 100 10 none "approved")).projectTypes =
    ["datapack", "mod", "plugin"] := by
  decide

end CatalogSearch.Store
