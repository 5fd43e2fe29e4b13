import CatalogSearch.Proofs.Cache.Contents
import CatalogSearch.Proofs.Document.Consistency
import CatalogSearch.Proofs.Visibility.Selection

/-!
# Where records come from

Where the records of a document come from when the store has changed under the cache: each of them
from the store as it is or from an earlier one, the project's not always from the same as the
version's (`ensures_runStems`). The document is consistent with its version iff the version was one
of the project in the store that the project's record comes from (`descends_of_assemble`).
-/

namespace CatalogSearch

open Cache

variable {ρ : Type} {s : Store} {stores : List Store} {c c' : Contents}

/-! ### Versions of a project -/

/-- The store has the version, as one of the project. -/
def Store.HasVersion (s : Store) (versionId projectId : Int) : Prop :=
  ∃ r ∈ s.versions, r.projectId = projectId ∧ r.id = versionId

namespace Store

theorem mem_versionIds {id projectId : Int} {p : Project} (hp : p ∈ s.projectRecords [projectId]) :
    id ∈ p.versionIds ↔ s.HasVersion id projectId := by
  obtain ⟨r, -, rfl, rfl⟩ := s.mem_projectRecords.1 hp
  exact s.mem_versionIds_projectOf

theorem hasVersion_of_visible {e : VisibleVersion} (he : e ∈ visibleVersions s.visibleRows) :
    s.HasVersion e.versionId e.projectId := by
  obtain ⟨v, hv, -, -, -, hid, hproject⟩ := exists_visible_of_mem he
  exact ⟨v, hv, hproject, hid⟩

end Store

/-! ### Records of several stores -/

/-- One of the stores has the record for the id. -/
def OneHas (records : Store → List Int → List ρ) (stores : List Store) (id : Int) (r : ρ) : Prop :=
  ∃ s ∈ stores, r ∈ records s [id]

theorem OneHas.cons {records : Store → List Int → List ρ} {id : Int} {r : ρ}
    (h : OneHas records stores id r) (s : Store) : OneHas records (s :: stores) id r := by
  obtain ⟨s', hs', hr⟩ := h
  exact ⟨s', List.mem_cons_of_mem s hs', hr⟩

namespace Cache.Contents

/-- Whatever is read as a record from the cache is one that one of the stores has. -/
structure StemsFrom (stores : List Store) (c : Contents) : Prop where
  versions : c.Within .versions (OneHas Store.versionRecords stores)
  projects : c.Within .projects (OneHas Store.projectRecords stores)

theorem stemsFrom_empty (stores : List Store) : empty.StemsFrom stores :=
  ⟨within_empty, within_empty⟩

theorem StemsFrom.cons (h : c.StemsFrom stores) (s : Store) : c.StemsFrom (s :: stores) where
  versions := h.versions.mono fun _ _ hr => hr.cons s
  projects := h.projects.mono fun _ _ hr => hr.cons s

theorem StemsFrom.drift (h : c.StemsFrom stores) (hc : c.Drifts c') : c'.StemsFrom stores where
  versions := h.versions.drift hc fun id _ hspoilt => hspoilt.version id rfl
  projects := h.projects.drift hc fun id _ hspoilt => hspoilt.project id rfl

end Cache.Contents

/-- Records of a kind that some store has can be read from such caches and written to them. -/
structure RecordKind.Stems (k : RecordKind ρ) (records : Store → List Int → List ρ) : Prop where
  within : ∀ {stores : List Store} {c : Contents},
    c.StemsFrom stores → c.Within k (OneHas records stores)
  set : ∀ {stores : List Store} {c : Contents} {id : Int} {r : ρ}, c.StemsFrom stores →
    OneHas records stores id r → (c.set (k.cacheKey id) (k.text r)).StemsFrom stores

theorem stems_versions : RecordKind.versions.Stems Store.versionRecords where
  within h := h.versions
  set h hr := by
    obtain ⟨s, hs, hmem⟩ := hr
    exact
      { versions := h.versions.set_self (s.readsBack_versionRecords _ _ hmem) ⟨s, hs, hmem⟩
        projects := h.projects.set_of_ne (fun _ => (RecordKind.cacheKey_ne _ _).symm) _ }

theorem stems_projects : RecordKind.projects.Stems Store.projectRecords where
  within h := h.projects
  set h hr :=
    { versions := h.versions.set_of_ne (fun _ => RecordKind.cacheKey_ne _ _) _
      projects := h.projects.set_self (Store.readsBack_project _) hr }

namespace Loading

/-- A load from the store as it is and such a cache finds records that some store has. -/
theorem rules_stems {k : RecordKind ρ} {records : Store → List Int → List ρ} {fit : Int → Prop}
    (h : k.Fetches s (records s) fit) (hk : k.Stems records) (o : LoadOptions) :
    Rules s.cachedWorld (Contents.StemsFrom (s :: stores)) (OneHas records (s :: stores))
      (fun _ => True) k o where
  read {ids c c' x} hc hx := by
    obtain ⟨_, ⟨rfl, hanswer⟩, hdrift⟩ := hx
    refine ⟨hc.drift hdrift, ?_, fun _ _ => trivial⟩
    rintro texts rfl
    rcases hanswer with ⟨message, hanswer⟩ | ⟨_, hanswer, htexts⟩
    · cases hanswer
    · cases hanswer
      intro id r hr
      exact ((hk.within hc).holds_validRecords htexts id r hr).2
  fetch hc := by
    refine ensures_fetch_answered h (fun _ _ _ _ hc hx => ⟨hx.1, hc.drift hx.2⟩) ?_
      (fun _ _ => trivial) hc
    intro id r hr
    exact ⟨s, List.mem_cons_self, hr⟩
  write hc hr hx := by
    obtain ⟨after, ⟨hafter, -⟩, hdrift⟩ := hx
    refine ⟨Contents.StemsFrom.drift ?_ hdrift, fun _ _ => trivial⟩
    rcases hafter with rfl | rfl
    · exact hc
    · exact hk.set hc hr

end Loading

/-! ### Indexing -/

namespace Indexing

/-- A document of a visible version, made of records that the stores have. -/
structure Descends (s : Store) (stores : List Store) (d : Document) (e : VisibleVersion)
    (p : Project) (v : Version) : Prop where
  visible : e ∈ visibleVersions s.visibleRows
  project : OneHas Store.projectRecords stores e.projectId p
  version : OneHas Store.versionRecords stores e.versionId v
  madeOf : d.MadeOf p v e.owner
  displayCategories : d.displayCategories = p.categories ++ v.loaders
  consistent_iff : d.Consistent v ↔ e.versionId ∈ p.versionIds

theorem descends_of_assemble {registry : License.Registry} {versions : OrderedMap Int Version}
    {projects : OrderedMap Int Project} {documents : List Document}
    (hv : Loading.Holds (OneHas Store.versionRecords stores) versions)
    (hp : Loading.Holds (OneHas Store.projectRecords stores) projects)
    (h : assemble registry versions projects (visibleVersions s.visibleRows) = .ok documents)
    {d : Document} (hd : d ∈ documents) : ∃ e p v, Descends s stores d e p v := by
  obtain ⟨e, he, p, v, hproject, hversion, hbuilt⟩ := exists_build_of_mem h hd
  obtain ⟨s', hs', hmem⟩ := hv _ _ hversion
  have hid : v.id = e.versionId :=
    List.mem_singleton.1 (s'.fetches_versions.isLocal.key_mem hmem)
  have hgathers := Document.gathers_of_build hbuilt
  exact ⟨e, p, v,
    { visible := he
      project := hp _ _ hproject
      version := ⟨s', hs', hmem⟩
      madeOf := Document.madeOf_of_build hbuilt
      displayCategories := hgathers.displayCategories
      consistent_iff := hid ▸ hgathers.consistent_iff (hid.symm ▸ hversion) }⟩

/-- A run leaves in the cache only records that a store has, and its documents are made of such. -/
theorem ensures_runStems (hc : c.StemsFrom (s :: stores)) (settings : Settings) (cached : Bool)
    (registry : License.Registry) :
    Attempt.Ensures s.cachedWorld (Contents.StemsFrom (s :: stores))
      (fun documents c' => c'.StemsFrom (s :: stores) ∧
        ∀ d ∈ documents, ∃ e p v, Descends s (s :: stores) d e p v)
      (fun _ c' => c'.StemsFrom (s :: stores)) (run settings cached registry) c := by
  have hselect : Attempt.Yields s select (.ok (visibleVersions s.visibleRows)) :=
    yields_select.2 rfl
  refine Attempt.ensures_bind.2 (hselect.ensures (J := Contents.StemsFrom (s :: stores))
    (fun _ _ _ _ hc hx => ⟨hx.1, hc.drift hx.2⟩) hc (fun _ hc => hc) ?_)
  intro c₁ hc₁
  have hload := Loading.ensures_loadBoth_of
    (Loading.rules_stems s.fetches_versions stems_versions (loadOptions settings cached none none))
    (Loading.rules_stems s.fetches_projects stems_projects _) hc₁
  refine Attempt.ensures_bind.2 (Attempt.ensures_withError.2 ((hload _ _).mono ?_ ?_))
  · rintro ⟨versions, projects⟩ c₂ ⟨hc₂, hversions, hprojects⟩
    refine Attempt.ensures_mk_done.2 ?_
    cases hr : assemble registry versions projects (visibleVersions s.visibleRows) with
    | ok documents => exact ⟨hc₂, fun d hd => descends_of_assemble hversions hprojects hr hd⟩
    | error e => exact hc₂
  · rintro e c₂ ⟨hc₂, -⟩
    exact hc₂

end Indexing

end CatalogSearch
