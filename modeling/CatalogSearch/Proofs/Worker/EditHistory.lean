import CatalogSearch.Proofs.Indexing.Lineage
import CatalogSearch.Proofs.Worker.Steady

/-!
# Histories of edits

The worker with a cache, over histories in which the store changes. The documents of a run are made
of records of the store as it is and of earlier ones (`consistent_of_editHistory`). The record of a
project that was kept since before a version was added makes a document of this version that is not
consistent with it.
-/

namespace CatalogSearch.Worker

open Cache

variable {s : Store} {stores past : List Store} {settings : Settings} {cached : Bool}
  {registry : License.Registry} {c c' : Contents} {connections connections' : Connections}

/-- The stores that there have been, the latest first, and what a cache can hold that was empty at
first, while the store is edited in any way and the worker indexes, in any order. A run may be
broken off between two requests; the cache drifts. -/
inductive EditHistory : List Store → Contents → Prop where
  | start (s : Store) : EditHistory [s] .empty
  | edit {stores : List Store} {c : Contents} (s : Store) :
    EditHistory stores c → EditHistory (s :: stores) c
  | drift {stores : List Store} {c c' : Contents} :
    EditHistory stores c → c.Drifts c' → EditHistory stores c'
  | index {s : Store} {past : List Store} {c c' : Contents} {settings : Settings} {cached : Bool}
    {registry : License.Registry} {connections : Connections}
    {rest : Work (Except IndexingError (List Document) × Connections)} :
    EditHistory (s :: past) c →
      Dialogue.Reaches s.cachedWorld ((index settings cached registry).run connections) c rest c' →
        EditHistory (s :: past) c'

theorem ensures_indexStems (hc : c.StemsFrom (s :: past)) (settings : Settings) (cached : Bool)
    (registry : License.Registry) (connections : Connections) :
    Ensures s.cachedWorld (Contents.StemsFrom (s :: past))
      (fun documents _ _ => ∀ d ∈ documents, ∃ e p v, Indexing.Descends s (s :: past) d e p v)
      (fun _ _ _ => True) (index settings cached registry) connections c := by
  refine ensures_bind.2 (ensures_get.2 (ensures_ofAttempt.2 ?_))
  exact (Indexing.ensures_runStems hc settings _ registry).mono (fun _ _ h => h.2)
    fun _ _ _ => trivial

/-- At every point of a history what can be read from the cache comes from one of the stores. -/
theorem stemsFrom_of_editHistory (h : EditHistory stores c) : c.StemsFrom stores := by
  induction h with
  | start s => exact Contents.stemsFrom_empty [s]
  | edit s _ ih => exact ih.cons s
  | drift _ hdrift ih => exact ih.drift hdrift
  | index _ hr ih => exact (ensures_indexStems ih _ _ _ _).invariant ih hr

/-- After any history, a document of a run belongs to a visible version, which the store has, and is
made of a record of its project and one of the version, each of which the store has or had. It is
consistent with the version iff the version was one of the project in the store that the project's
record comes from. -/
theorem consistent_of_editHistory (h : EditHistory (s :: past) c) {documents : List Document}
    (hr : Dialogue.Reaches s.cachedWorld ((index settings cached registry).run connections) c
      (.done (.ok documents, connections')) c') {d : Document} (hd : d ∈ documents) :
    ∃ e ∈ visibleVersions s.visibleRows, s.HasVersion e.versionId e.projectId ∧
      ∃ s₁ ∈ s :: past, ∃ p ∈ s₁.projectRecords [e.projectId],
      ∃ s₂ ∈ s :: past, ∃ v ∈ s₂.versionRecords [e.versionId],
        d.MadeOf p v e.owner ∧ d.displayCategories = p.categories ++ v.loaders ∧
          (d.Consistent v ↔ s₁.HasVersion e.versionId e.projectId) := by
  have hpost := (ensures_indexStems (stemsFrom_of_editHistory h) settings cached registry
    connections).rest hr
  obtain ⟨e, p, v, hdescends⟩ := hpost d hd
  obtain ⟨s₁, hs₁, hp⟩ := hdescends.project
  obtain ⟨s₂, hs₂, hv⟩ := hdescends.version
  refine ⟨e, hdescends.visible, Store.hasVersion_of_visible hdescends.visible, s₁, hs₁, p, hp, s₂,
    hs₂, v, hv, hdescends.madeOf, hdescends.displayCategories, ?_⟩
  rw [hdescends.consistent_iff, Store.mem_versionIds hp]

/-! ### A version added between two runs -/

/-- The sample store with a further version of the first project, for another loader. -/
def withForge : Store :=
  { Store.sample with
    versions := Store.sample.versions ++ [⟨12, 100, "Four", "1.3", "listed", .epoch⟩]
    loaders := Store.sample.loaders ++ [⟨2, "forge"⟩]
    versionLoaders := Store.sample.versionLoaders ++ [⟨2, 12⟩] }

/-- The record of the first project before. -/
def firstProject : Project :=
  Store.sample.projectOf (Store.sampleProject 100 10 none "approved")

/-- A cache that has this record and nothing else. -/
def firstProjectOnly : Contents :=
  Contents.empty.set (RecordKind.projects.cacheKey 100) (RecordKind.projects.text firstProject)

theorem ready_of_validFieldTypes (h : s.ValidFieldTypes) :
    Indexing.Ready s Settings.default.loadBatchSize :=
  ⟨⟨fun _ => by decide, fun _ _ _ _ _ => h.typed _⟩, ⟨fun _ => by decide, fun _ _ _ => trivial⟩⟩

/-- A run that finds the cache empty writes the record to it. -/
theorem written_firstProject :
    (((index .default true .sample).run ⟨true, false⟩).run (remember .sample) .empty).2
      (RecordKind.projects.cacheKey 100) = some (RecordKind.projects.text firstProject) := by
  have htypes : Store.sample.ValidFieldTypes := by decide +kernel
  have hsome : ((((index .default true .sample).run ⟨true, false⟩).run (remember .sample)
      .empty).2 (RecordKind.projects.cacheKey 100)).isSome := by decide +kernel
  have hstored : Loading.stored Store.sample.projectRecords Settings.default.loadBatchSize 100 =
      some firstProject := by decide +kernel
  obtain ⟨text, htext⟩ := Option.isSome_iff_exists.1 hsome
  have hrun := Dialogue.reaches_run (steadyWorld_remember .sample)
    ((index .default true .sample).run ⟨true, false⟩) .empty
  obtain ⟨-, hrefreshes⟩ :=
    settlesPreferred_of_reaches (ready_of_validFieldTypes htypes) rfl hrun
  obtain ⟨p, hp, rfl⟩ := hrefreshes.exists_project rfl htext
  rw [htext, Option.some.inj (hp.symm.trans hstored)]

/-- The record is kept from a run before the version was added, all others are lost since. -/
theorem editHistory_withForge : EditHistory [withForge, .sample] firstProjectOnly := by
  have hrun := Dialogue.reaches_run (cachedWorld_remember .sample)
    ((index .default true .sample).run ⟨true, false⟩) .empty
  refine .edit _ (.drift (.index (.start _) hrun) fun key => ?_)
  rw [firstProjectOnly, Contents.set]
  split
  · next h => exact .inl (h ▸ written_firstProject.symm)
  · exact .inr (.inl rfl)

theorem record?_firstProjectOnly :
    firstProjectOnly.record? .projects 100 = some firstProject := by
  rw [Contents.record?, firstProjectOnly, Contents.set, if_pos rfl, Option.bind_some]
  exact RecordKind.ofText?_text (Project.restores firstProject) (by decide +kernel)

/-- The documents of the records that count after it was added: those of the store, but for the
record of the first project. -/
def documentsWithForge : Except IndexingError (List Document) :=
  (assemble .sample
    (.ofList (Loading.entriesOf .versions withForge.versionRecords
      (slices 1000 ((visibleVersions withForge.visibleRows).map (·.versionId)))))
    ((OrderedMap.ofList (Loading.entriesOf .projects withForge.projectRecords
      (slices 1000 ((visibleVersions withForge.visibleRows).map (·.projectId))))).insert 100
        firstProject)
    (visibleVersions withForge.visibleRows)).mapError .assembly

theorem reaches_withForge : ∃ connections' c', Dialogue.Reaches withForge.cachedWorld
    ((index .default true .sample).run ⟨true, false⟩) firstProjectOnly
      (.done (documentsWithForge, connections')) c' := by
  have htypes : withForge.ValidFieldTypes := by decide +kernel
  have hversions (id : Int) : firstProjectOnly.record? .versions id = none := by
    rw [Contents.record?, firstProjectOnly, Contents.set, if_neg (RecordKind.cacheKey_ne _ _)]
    rfl
  have hprojects (id : Int) (hid : id ≠ 100) : firstProjectOnly.record? .projects id = none := by
    have hkey : RecordKind.projects.cacheKey id ≠ RecordKind.projects.cacheKey 100 :=
      fun h => hid (RecordKind.cacheKey_inj h)
    rw [Contents.record?, firstProjectOnly, Contents.set, if_neg hkey]
    rfl
  obtain ⟨⟨result, connections'⟩, c', hr, hsteady⟩ := Dialogue.exists_reaches_both
    (cachedWorld_remember withForge) (steadyWorld_remember withForge)
    ((index .default true .sample).run ⟨true, false⟩) firstProjectOnly
  have hresult := (settlesPreferred_of_reaches (ready_of_validFieldTypes htypes) rfl
    hsteady).1.eq_assemble
    (Loading.prefers_fetched (o := Indexing.loadOptions .default true none none)
      withForge.fetches_versions hversions)
    (Loading.prefers_insert (o := Indexing.loadOptions .default true none none)
      withForge.fetches_projects (by decide +kernel) record?_firstProjectOnly hprojects)
  refine ⟨connections', c', ?_⟩
  rw [documentsWithForge]
  exact hresult ▸ hr

/-- The document of the new version lists the versions that there were before, and their loaders. -/
theorem exists_documentWithForge : ∃ documents d, documentsWithForge = .ok documents ∧
    d ∈ documents ∧ d.versionId = "C" ∧ d.versions = ["7", "8", "B"] ∧
      d.displayCategories = ["utility", "forge"] ∧ d.loaders = ["fabric"] := by
  have hdocuments : (documentsWithForge.map (List.map fun d =>
      (d.versionId, d.versions, d.displayCategories, d.loaders))).toOption = some [
        ("9", ["9"], ["fabric"], ["fabric"]),
        ("C", ["7", "8", "B"], ["utility", "forge"], ["fabric"]),
        ("B", ["7", "8", "B"], ["utility"], ["fabric"]),
        ("7", ["7", "8", "B"], ["utility", "fabric"], ["fabric"])] := by decide +kernel
  obtain ⟨documents, hok, hmap⟩ := exists_of_toOption_map hdocuments
  obtain ⟨d₁, rest, rfl, -, hrest⟩ := List.map_eq_cons_iff.1 hmap
  obtain ⟨d, rest, rfl, hd, -⟩ := List.map_eq_cons_iff.1 hrest
  simp only [Prod.mk.injEq] at hd
  exact ⟨_, d, hok, by simp, hd⟩

/-- The document of the new version after such a history. -/
theorem consistent_withForge : ∃ documents d connections' c',
    EditHistory [withForge, .sample] firstProjectOnly ∧
    Dialogue.Reaches withForge.cachedWorld ((index .default true .sample).run ⟨true, false⟩)
      firstProjectOnly (.done (.ok documents, connections')) c' ∧
    d ∈ documents ∧
    ∃ e ∈ visibleVersions withForge.visibleRows, withForge.HasVersion e.versionId e.projectId ∧
      ∃ s₁ ∈ [withForge, .sample], ∃ p ∈ s₁.projectRecords [e.projectId],
      ∃ s₂ ∈ [withForge, .sample], ∃ v ∈ s₂.versionRecords [e.versionId],
        d.MadeOf p v e.owner ∧ d.displayCategories = p.categories ++ v.loaders ∧
          (d.Consistent v ↔ s₁.HasVersion e.versionId e.projectId) := by
  obtain ⟨documents, d, hok, hd, -⟩ := exists_documentWithForge
  obtain ⟨connections', c', hr⟩ := reaches_withForge
  rw [hok] at hr
  exact ⟨documents, d, connections', c', editHistory_withForge, hr, hd,
    consistent_of_editHistory editHistory_withForge hr hd⟩

/-- A run need not give documents that are consistent with the version that they have the id of. -/
theorem not_consistent_withForge :
    ¬ ∀ (s : Store) (past : List Store) (settings : Settings) (cached : Bool)
        (registry : License.Registry) (connections connections' : Connections) (c c' : Contents)
        (documents : List Document),
      EditHistory (s :: past) c →
        Dialogue.Reaches s.cachedWorld ((index settings cached registry).run connections) c
          (.done (.ok documents, connections')) c' →
            ∀ d ∈ documents, ∃ s' ∈ s :: past, ∃ v ∈ s'.versions.map s'.versionOf,
              Base62.encode v.id = .ok d.versionId ∧ d.Consistent v := by
  intro hall
  obtain ⟨documents, d, hok, hd, hid, hversions, -⟩ := exists_documentWithForge
  obtain ⟨connections', c', hr⟩ := reaches_withForge
  rw [hok] at hr
  obtain ⟨_, _, v, _, _, hconsistent⟩ := hall _ _ _ _ _ _ _ _ _ _ editHistory_withForge hr d hd
  have hlists := hconsistent.lists
  rw [hid, hversions] at hlists
  revert hlists
  decide

end CatalogSearch.Worker
