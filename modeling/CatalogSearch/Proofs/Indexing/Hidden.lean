import CatalogSearch.Proofs.Document.Faults
import CatalogSearch.Proofs.Indexing.Documents
import CatalogSearch.Proofs.Store.Frame

/-!
# What search shows of hidden versions

Versions that are not visible count among the versions of their projects, and their loaders give
project types and games to the projects; nothing else of them is seen (`hidden_versions_unseen`).
-/

namespace CatalogSearch

namespace Store

/-- A version of the id is visible. -/
def ShowsVersion (s : Store) (id : Int) : Prop :=
  ∃ v ∈ s.versions, ∃ p ∈ s.projects, v.VisibleIn p ∧ v.id = id

instance (v : VersionRow) (p : ProjectRow) : Decidable (v.VisibleIn p) :=
  inferInstanceAs (Decidable (_ ∧ _ ∧ _))

instance (s : Store) (id : Int) : Decidable (s.ShowsVersion id) :=
  inferInstanceAs (Decidable (∃ v ∈ s.versions, ∃ p ∈ s.projects, v.VisibleIn p ∧ v.id = id))

/-- The row of a version may be replaced by one with another name, number and status, unless the
version is shown. -/
def VersionRow.KeptIf (shown : Prop) (v w : VersionRow) : Prop :=
  w = { v with name := w.name, number := w.number, status := w.status } ∧ (shown → w = v)

/-- The stores differ only in what is known of versions that neither of them shows: their names,
numbers and statuses, their loaders and the values of their fields. -/
structure SameButHidden (s t : Store) : Prop where
  rest : t = { s with
    versions := t.versions
    versionLoaders := t.versionLoaders
    versionFields := t.versionFields }
  versions : List.Forall₂ (fun v => v.KeptIf (s.ShowsVersion v.id ∨ t.ShowsVersion v.id))
    s.versions t.versions
  loaders : ∀ id, s.ShowsVersion id →
    (t.versionLoaders.filter fun l => l.versionId = id) =
      s.versionLoaders.filter fun l => l.versionId = id
  fields : ∀ id, s.ShowsVersion id →
    (t.versionFields.filter fun f => f.versionId = id) =
      s.versionFields.filter fun f => f.versionId = id

variable {s t : Store} {id : Int}

/-- A row without what may be replaced in it. -/
def VersionRow.blank (v : VersionRow) : VersionRow :=
  { v with name := "", number := "", status := "" }

theorem VersionRow.KeptIf.id_eq {shown : Prop} {v w : VersionRow} (h : v.KeptIf shown w) :
    w.id = v.id := by
  rw [h.1]

theorem mem_of_forall₂ {α β : Type} {R : α → β → Prop} {l : List α} {l' : List β}
    (h : List.Forall₂ R l l') : List.Forall₂ (fun a b => a ∈ l ∧ b ∈ l' ∧ R a b) l l' :=
  List.forall₂_iff_zip.2 ⟨h.length_eq, fun hab =>
    ⟨(List.of_mem_zip hab).1, (List.of_mem_zip hab).2, List.forall₂_zip h hab⟩⟩

theorem flatMap_filter_eq {α β : Type} {R : α → α → Prop} {p : α → Bool} {f : α → List β}
    {l l' : List α} (h : List.Forall₂ R l l')
    (hR : ∀ a b, R a b → (if p a then f a else []) = if p b then f b else []) :
    (l.filter p).flatMap f = (l'.filter p).flatMap f := by
  have hcons (a : α) (l : List α) : ((a :: l).filter p).flatMap f =
      (if p a then f a else []) ++ (l.filter p).flatMap f := by
    rw [List.filter_cons]
    split <;> rfl
  induction h with
  | nil => rfl
  | cons hab _ ih => rw [hcons, hcons, hR _ _ hab, ih]

/-- A version that is listed but not shown belongs to no project that search may show. -/
theorem searchable_eq_nil {v : VersionRow} (hv : v ∈ s.versions) (hid : ¬ s.ShowsVersion v.id)
    (hlisted : v.isListed) :
    (s.projects.filter fun p => p.id = v.projectId && p.isSearchable) = [] := by
  refine List.filter_eq_nil_iff.2 fun p hp hsearchable => hid ⟨v, hv, p, hp, ?_, rfl⟩
  obtain ⟨hproject, hsearchable⟩ := Bool.and_eq_true_iff.1 hsearchable
  exact ⟨isListed_iff.1 hlisted, of_decide_eq_true hproject, isSearchable_iff.1 hsearchable⟩

theorem showsVersion_of_mem {e : VisibleVersion} (he : e ∈ visibleVersions s.visibleRows) :
    s.ShowsVersion e.versionId := by
  obtain ⟨v, hv, p, hp, hvisible, hid, -⟩ := exists_visible_of_mem he
  exact ⟨v, hv, p, hp, hvisible, hid⟩

namespace SameButHidden

theorem sharesTables (h : SameButHidden s t) : s.SharesTables t := by
  rw [SharesTables, h.rest]

theorem sameProject (h : SameButHidden s t) (id : Int) : SameProject s t id := by
  constructor
  all_goals rw [h.rest]

theorem visibleRows_eq (h : SameButHidden s t) : t.visibleRows = s.visibleRows := by
  have hprojects : t.projects = s.projects := by rw [h.rest]
  rw [visibleRows, visibleRows, h.sharesTables.ownerRows_eq, hprojects]
  refine congrArg (fun l => sortBy ownerRowLe (distinct l)) (Eq.symm ?_)
  refine flatMap_filter_eq (mem_of_forall₂ h.versions) ?_
  rintro v w ⟨hv, hw, hkept⟩
  by_cases hid : s.ShowsVersion v.id ∨ t.ShowsVersion v.id
  · rw [hkept.2 hid]
  · -- A version that is not shown gives no rows, whatever its status is.
    obtain ⟨hs, ht⟩ := not_or.1 hid
    have hnone : v.isListed → (s.projects.filter fun p =>
        p.id = v.projectId && p.isSearchable).flatMap (s.ownerRows v) = [] := fun hlisted => by
      rw [searchable_eq_nil hv hs hlisted, List.flatMap_nil]
    have hnone' : w.isListed → (s.projects.filter fun p =>
        p.id = w.projectId && p.isSearchable).flatMap (s.ownerRows w) = [] := fun hlisted => by
      rw [← hprojects, searchable_eq_nil hw (hkept.id_eq ▸ ht) hlisted, List.flatMap_nil]
    rw [ite_eq_right_iff.2 hnone, ite_eq_right_iff.2 hnone']

theorem sameVersion (h : SameButHidden s t) (hid : s.ShowsVersion id) : SameVersion s t id where
  rows := by
    have hrows {l l' : List VersionRow} (hl : List.Forall₂ (fun v =>
        v.KeptIf (s.ShowsVersion v.id ∨ t.ShowsVersion v.id)) l l') :
        (l'.filter fun v => v.id = id) = l.filter fun v => v.id = id := by
      induction hl with
      | nil => rfl
      | @cons v w _ _ hkept _ ih =>
        by_cases hv : v.id = id
        · rw [hkept.2 (.inl (hv ▸ hid)), List.filter_cons, List.filter_cons, ih]
        · rw [List.filter_cons_of_neg (by simpa [hkept.id_eq] using hv),
            List.filter_cons_of_neg (by simpa using hv), ih]
    exact hrows h.versions
  loaders := h.loaders id hid
  fields := h.fields id hid

/-- Hidden versions stay where they were among the versions of their projects. -/
theorem versionIds_eq (h : SameButHidden s t) (ids : List Int) :
    (t.versionsOfProjects ids).map VersionRow.id =
      (s.versionsOfProjects ids).map VersionRow.id := by
  have hrows : t.versions.map VersionRow.blank = s.versions.map VersionRow.blank := by
    symm
    rw [← List.forall₂_eq_eq_eq, List.forall₂_map_left_iff, List.forall₂_map_right_iff]
    refine h.versions.imp fun v w hkept => ?_
    rw [hkept.1, VersionRow.blank, VersionRow.blank]
  have hblank (s : Store) : (s.versionsOfProjects ids).map VersionRow.blank =
      sortBy (lexLe (byKey VersionRow.projectId intLe) <|
        lexLe (byKey VersionRow.published Moment.wallLe) (byKey VersionRow.id intLe))
          ((s.versions.map VersionRow.blank).filter (ids.contains ·.projectId)) := by
    rw [List.filter_map, ← map_sortBy (f := VersionRow.blank) fun _ _ => rfl]
    rfl
  have hid (l : List VersionRow) :
      (l.map VersionRow.blank).map VersionRow.id = l.map VersionRow.id := List.map_map
  rw [← hid, hblank, hrows, ← hblank, hid]

end SameButHidden

end Store

/-- The document has other project types and games at most. -/
def Document.SameButLoaderNames (d d' : Document) : Prop :=
  d' = { d with projectTypes := d'.projectTypes, games := d'.games }

/-- The project has other project types and games at most. -/
def Project.SameButLoaderNames (p p' : Project) : Prop :=
  p' = { p with projectTypes := p'.projectTypes, games := p'.games }

/-- The resolved version has other project types and games of its project at most. -/
structure Resolved.SameButLoaderNames (r r' : Resolved) : Prop where
  project : r.project.SameButLoaderNames r'.project
  version : r'.version = r.version
  owner : r'.owner = r.owner

theorem Resolved.SameButLoaderNames.build {registry : License.Registry}
    {versions versions' : OrderedMap Int Version} {r r' : Resolved} {d : Document}
    (h : r.SameButLoaderNames r') (hv : ∀ id, versions'.find? id = versions.find? id)
    (hd : r.build registry versions = .ok d) :
    ∃ d', r'.build registry versions' = .ok d' ∧ d.SameButLoaderNames d' := by
  refine ⟨{ d with
    projectTypes := r'.project.projectTypes
    games := r'.project.games }, ?_, rfl⟩
  rw [Resolved.build, h.version, h.owner, Document.build_congr fun id _ => hv id, h.project]
  exact Document.build_withLoaderNames hd _ _

/-- If related elements make related results, so do lists of them. -/
theorem exists_forall₂ {α α' β β' : Type} {R : α → α' → Prop} {B : α → β → Prop}
    {B' : α' → β' → Prop} {S : β → β' → Prop}
    (hstep : ∀ {a a' b}, R a a' → B a b → ∃ b', B' a' b' ∧ S b b') {l : List α} {l' : List α'}
    {m : List β} (hl : List.Forall₂ R l l') (hm : List.Forall₂ B l m) :
    ∃ m', List.Forall₂ B' l' m' ∧ List.Forall₂ S m m' := by
  induction hl generalizing m with
  | nil => cases hm; exact ⟨[], .nil, .nil⟩
  | cons hab _ ih =>
    cases hm with
    | cons hb hrest =>
      obtain ⟨b', hb', hs⟩ := hstep hab hb
      obtain ⟨m', hm', hss⟩ := ih hrest
      exact ⟨b' :: m', .cons hb' hm', .cons hs hss⟩

namespace Indexing

variable {s t : Store} {settings : Settings} {size : Int} {registry : License.Registry}
  {documents : List Document} {versions versions' : OrderedMap Int Version}
  {projects projects' : OrderedMap Int Project}

theorem Found.versions_eq (hf : Found s size versions projects) (h : s.SameButHidden t)
    (hf' : Found t size versions' projects') (id : Int) :
    versions'.find? id = versions.find? id := by
  rw [hf.findsVersions, hf'.findsVersions, h.visibleRows_eq]
  split
  · next hid =>
    obtain ⟨e, he, rfl⟩ := List.mem_map.1 hid
    have hrecords := h.sharesTables.versionRecords_eq
      (h.sameVersion (Store.showsVersion_of_mem he))
    rw [Loading.stored, Loading.stored, hrecords]
  · rfl

theorem Found.projects_rel (hf : Found s size versions projects) (h : s.SameButHidden t)
    (hf' : Found t size versions' projects') (id : Int) :
    Option.Rel Project.SameButLoaderNames (projects.find? id) (projects'.find? id) := by
  rw [hf.findsProjects, hf'.findsProjects, h.visibleRows_eq]
  split
  · rw [Loading.stored, Loading.stored, Store.projectRecords, Store.projectRecords,
      Store.SharesTables.projectsOf_eq (h.sameProject id), List.getLast?_map, List.getLast?_map]
    split
    · cases (s.projectsOf [id]).getLast? with
      | none => exact .none
      | some r =>
        exact .some (h.sharesTables.projectOf_eq (h.sameProject r.id) (h.versionIds_eq [r.id]))
    · exact .none
  · exact .none

theorem resolve?_rel (hv : ∀ id, versions'.find? id = versions.find? id)
    (hp : ∀ id, Option.Rel Project.SameButLoaderNames (projects.find? id) (projects'.find? id))
    (e : VisibleVersion) :
    Option.Rel Resolved.SameButLoaderNames (e.resolve? versions projects)
      (e.resolve? versions' projects') := by
  rw [VisibleVersion.resolve?, VisibleVersion.resolve?, hv]
  have hproject := hp e.projectId
  generalize projects.find? e.projectId = project, projects'.find? e.projectId = project'
    at hproject
  cases hproject with
  | none => exact .none
  | some hproject =>
    cases versions.find? e.versionId with
    | none => exact .none
    | some version => exact .some ⟨hproject, rfl, rfl⟩

/-- If stores differ only in versions that neither shows, a run without a cache returns as many
documents from one as from the other, and in each place they differ only in the project types and
the games of their project. -/
theorem hidden_versions_unseen (h : s.SameButHidden t)
    (hrun : Attempt.Yields s (run settings false registry) (.ok documents)) :
    ∃ documents', Attempt.Yields t (run settings false registry) (.ok documents') ∧
      List.Forall₂ Document.SameButLoaderNames documents documents' := by
  obtain ⟨hready, versions, projects, hg⟩ := gathered_of_yields hrun
  have hready' : Ready t settings.loadBatchSize := by
    refine ⟨?_, h.visibleRows_eq ▸ hready.projects⟩
    rw [h.visibleRows_eq]
    refine hready.versions.imp fun id hid htyped => ?_
    obtain ⟨e, he, rfl⟩ := List.mem_map.1 hid
    exact (h.sharesTables.forall_typed_iff (h.sameVersion (Store.showsVersion_of_mem he))).2 htyped
  obtain ⟨versions', projects', hf', hyields⟩ := hready'.exists_found
  have hv := hg.versions_eq h hf'
  have hresolved : List.Forall₂ Resolved.SameButLoaderNames
      ((visibleVersions s.visibleRows).filterMap (·.resolve? versions projects))
      ((visibleVersions t.visibleRows).filterMap (·.resolve? versions' projects')) := by
    rw [h.visibleRows_eq]
    refine List.rel_filterMap (R := Eq) ?_ (List.forall₂_refl _)
    rintro e _ rfl
    exact resolve?_rel hv (hg.projects_rel h hf') e
  obtain ⟨documents', hdocuments', hsame⟩ := exists_forall₂ (fun hr hd => hr.build hv hd) hresolved
    (assemble_eq_ok_iff.1 hg.assembled)
  exact ⟨documents', hyields (assemble_eq_ok_iff.2 hdocuments'), hsame⟩

/-- A store with a draft of an approved project. -/
def drafted : Store :=
  { Store.sample with
    loaders := Store.sample.loaders ++ [⟨2, "paper"⟩]
    projectTypes := Store.sample.projectTypes ++ [⟨2, "plugin"⟩]
    loaderProjectTypes := Store.sample.loaderProjectTypes ++ [⟨2, 2⟩] }

/-- The store after the draft was renamed and scheduled, and got a loader and a game version. -/
def redrafted : Store :=
  { drafted with
    versions := drafted.versions.map fun v =>
      if v.id = 8 then { v with name := "Two again", status := "scheduled" } else v
    versionLoaders := drafted.versionLoaders ++ [⟨2, 8⟩]
    versionFields := drafted.versionFields ++ [⟨2, 8, 1, none, none, some 1⟩] }

theorem sameButHidden_redrafted : drafted.SameButHidden redrafted where
  rest := rfl
  versions := by
    rw [redrafted, List.forall₂_map_right_iff]
    refine List.forall₂_same.2 fun v hv => ?_
    split
    · next h =>
      refine ⟨rfl, fun hshown => absurd hshown ?_⟩
      rw [h]
      decide
    · exact ⟨rfl, fun _ => rfl⟩
  loaders id hid := by
    have hne : (8 : Int) ≠ id := fun h => absurd (h ▸ hid) (by decide)
    simp [redrafted, List.filter_append, hne]
  fields id hid := by
    have hne : (8 : Int) ≠ id := fun h => absurd (h ▸ hid) (by decide)
    simp [redrafted, List.filter_append, hne]

/-- The loader of a draft makes a project type of its project, and nothing else changes. -/
theorem hidden_versions_unseen_redrafted :
    drafted.SameButHidden redrafted ∧ ∃ documents documents',
      Attempt.Yields drafted (run .default false .sample) (.ok documents) ∧
        Attempt.Yields redrafted (run .default false .sample) (.ok documents') ∧
          List.Forall₂ Document.SameButLoaderNames documents documents' ∧
            documents.map Document.projectTypes = [["mod"], ["mod"], ["mod"]] ∧
              documents'.map Document.projectTypes =
                [["mod"], ["mod", "plugin"], ["mod", "plugin"]] := by
  obtain ⟨documents, hrun, htypes⟩ := Attempt.exists_yields_of_settled? (s := drafted)
    (a := run .default false .sample) (f := List.map Document.projectTypes)
    (b := [["mod"], ["mod"], ["mod"]]) (by decide +kernel)
  obtain ⟨documents', hrun', hsame⟩ := hidden_versions_unseen sameButHidden_redrafted hrun
  obtain ⟨_, hredrafted, htypes'⟩ := Attempt.exists_yields_of_settled? (s := redrafted)
    (a := run .default false .sample) (f := List.map Document.projectTypes)
    (b := [["mod"], ["mod", "plugin"], ["mod", "plugin"]]) (by decide +kernel)
  cases hrun'.unique hredrafted
  exact ⟨sameButHidden_redrafted, documents, documents', hrun, hrun', hsame, htypes, htypes'⟩

end Indexing

end CatalogSearch
