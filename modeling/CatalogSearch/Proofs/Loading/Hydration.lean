import CatalogSearch.Loading.Hydration
import CatalogSearch.Proofs.Data.OneEach
import CatalogSearch.Proofs.Service.Yields
import CatalogSearch.Proofs.Store.Queries

/-!
# Records by rows

What hydration gives for one id does not depend on the batch. `Store.projectOf` and
`Store.versionOf` make the record of a row from what the store has for this row alone, and a batch
is the records of its rows (`yields_projects`, `yields_versions`). A batch of versions fails iff a
field of one of them has an unknown type (`settled_versions`).
-/

namespace CatalogSearch

open Hydration

/-! ### Names and typed values -/

namespace Hydration

theorem mem_namesOf {id : Int} {name : String} {l : List Store.NameOf} :
    name ∈ namesOf id l ↔ ⟨id, name⟩ ∈ l := by
  rw [namesOf, List.mem_map]
  constructor
  · rintro ⟨⟨_, _⟩, hx, rfl⟩
    obtain ⟨hx, hid⟩ := List.mem_filter.1 hx
    exact of_decide_eq_true hid ▸ hx
  · intro h
    exact ⟨_, List.mem_filter.2 ⟨h, decide_eq_true rfl⟩, rfl⟩

/-- The typed value of a row whose field has a known type, if the row holds one. -/
def typedValue? (v : Store.FieldValue) : Option TypedValue :=
  (FieldType.ofName? v.fieldType).bind fun t =>
    (payload? t v).map fun p => ⟨v.versionId, v.fieldId, v.fieldName, t, p⟩

theorem typedValues_eq_ok {l : List Store.FieldValue}
    (h : ∀ v ∈ l, (FieldType.ofName? v.fieldType).isSome) :
    typedValues l = .ok (l.filterMap typedValue?) := by
  induction l with
  | nil => rfl
  | cons v rest ih =>
    obtain ⟨hv, hrest⟩ := List.forall_mem_cons.1 h
    obtain ⟨t, ht⟩ := Option.isSome_iff_exists.1 hv
    have htype : FieldType.ofName v.fieldType = .ok t := by rw [FieldType.ofName, ht]
    have hvalue : typedValue? v =
        (payload? t v).map fun p => ⟨v.versionId, v.fieldId, v.fieldName, t, p⟩ := by
      rw [typedValue?, ht]
      rfl
    rw [typedValues, htype, ih hrest, List.filterMap_cons, hvalue]
    dsimp only [Bind.bind, Except.bind]
    cases payload? t v <;> rfl

theorem isSome_of_typedValues {l : List Store.FieldValue} {values : List TypedValue}
    (h : typedValues l = .ok values) : ∀ v ∈ l, (FieldType.ofName? v.fieldType).isSome := by
  induction l generalizing values with
  | nil => exact fun v hv => nomatch hv
  | cons v rest ih =>
    cases ht : FieldType.ofName? v.fieldType with
    | none =>
      rw [typedValues, FieldType.ofName, ht] at h
      cases h
    | some t =>
      cases hr : typedValues rest with
      | error e =>
        rw [typedValues, FieldType.ofName, ht, hr] at h
        cases h
      | ok values => exact List.forall_mem_cons.2 ⟨by rw [ht]; rfl, ih hr⟩

theorem filter_filterMap_typedValue? (l : List Store.FieldValue) (id : Int) :
    (l.filterMap typedValue?).filter (fun v => decide (v.versionId = id)) =
      (l.filter fun v => decide (v.versionId = id)).filterMap typedValue? := by
  rw [List.filter_filterMap, List.filterMap_filter]
  refine congrArg (List.filterMap · l) (funext fun v => ?_)
  cases hv : typedValue? v with
  | none => simp
  | some value =>
    obtain ⟨t, -, hp⟩ := Option.bind_eq_some_iff.1 hv
    obtain ⟨p, -, rfl⟩ := Option.map_eq_some_iff.1 hp
    rfl

end Hydration

namespace Store

variable (s : Store)

/-! ### Versions -/

/-- The fields of the version with the id all have known types. -/
def Typed (id : Int) : Prop :=
  ∀ v ∈ s.fieldValuesOf [id], (FieldType.ofName? v.fieldType).isSome

/-- All fields have known types. -/
def ValidFieldTypes : Prop := ∀ f ∈ s.fields, ∃ t : FieldType, f.type = t.name

instance : Decidable s.ValidFieldTypes :=
  decidable_of_iff (∀ f ∈ s.fields, (FieldType.ofName? f.type).isSome)
    (forall₂_congr fun _ _ => FieldType.isSome_ofName?)

theorem ValidFieldTypes.typed {s : Store} (h : s.ValidFieldTypes) (id : Int) : s.Typed id := by
  intro v hv
  obtain ⟨vf, -, hv⟩ := List.mem_flatMap.1 ((mem_sortBy ..).1 hv)
  obtain ⟨f, hf, hv⟩ := List.mem_flatMap.1 hv
  obtain ⟨e, -, rfl⟩ := List.mem_map.1 hv
  exact FieldType.isSome_ofName?.2 (h f (List.mem_filter.1 hf).1)

/-- The record of the row of a version. -/
def versionOf (r : VersionRow) : Version :=
  Hydration.version (s.loadersOf [r.id]) (s.projectTypesOfVersions [r.id])
    ((s.fieldValuesOf [r.id]).filterMap typedValue?) r

theorem namesOf_congr {query : List Int → List NameOf} (h : Local NameOf.ownerId query) {id : Int}
    {ids : List Int} (hid : id ∈ ids) : namesOf id (query ids) = namesOf id (query [id]) := by
  rw [namesOf, namesOf, h.filter_eq hid, h.filter_self]

theorem version_eq_versionOf {r : VersionRow} {ids : List Int} (hr : r.id ∈ ids) :
    Hydration.version (s.loadersOf ids) (s.projectTypesOfVersions ids)
      ((s.fieldValuesOf ids).filterMap typedValue?) r = s.versionOf r := by
  have hfields : Hydration.fields ((s.fieldValuesOf ids).filterMap typedValue?) r.id =
      Hydration.fields ((s.fieldValuesOf [r.id]).filterMap typedValue?) r.id := by
    rw [Hydration.fields, Hydration.fields, filter_filterMap_typedValue?,
      filter_filterMap_typedValue?, s.local_fieldValuesOf.filter_eq hr,
      s.local_fieldValuesOf.filter_self]
  rw [versionOf, Hydration.version, Hydration.version, namesOf_congr s.local_loadersOf hr,
    namesOf_congr s.local_projectTypesOfVersions hr, hfields]

theorem yields_ask_bind {β : Type} {q : Query} {f : q.Answer → Attempt FetchError β} {b : β} :
    Attempt.Yields s (Hydration.ask q >>= f) (.ok b) ↔
      Attempt.Yields s (f (s.answer q)) (.ok b) := by
  simp only [Hydration.ask, Attempt.yields_bind, Attempt.yields_withError_ok,
    Attempt.yields_askStore, exists_eq_left']

/-- A batch of versions is fetched iff the fields of all of them have known types, and then it is
the records of its rows. -/
theorem yields_versions {ids : List Int} {versions : List Version} :
    Attempt.Yields s (Hydration.versions ids) (.ok versions) ↔
      (∀ r ∈ s.versionsOf ids, s.Typed r.id) ∧ (s.versionsOf ids).map s.versionOf = versions := by
  rw [Hydration.versions]
  split
  · next hids =>
    rw [List.isEmpty_iff.1 hids, s.local_versionsOf.nil, Attempt.yields_pure]
    simp
  rw [yields_ask_bind]
  change Attempt.Yields s (if (s.versionsOf ids).isEmpty then _ else _) _ ↔ _
  split
  · next hrows =>
    rw [List.isEmpty_iff.1 hrows, Attempt.yields_pure]
    simp
  have hmap : (s.versionsOf ids).map (Hydration.version
      (s.loadersOf ((s.versionsOf ids).map (·.id)))
      (s.projectTypesOfVersions ((s.versionsOf ids).map (·.id)))
      ((s.fieldValuesOf ((s.versionsOf ids).map (·.id))).filterMap typedValue?)) =
      (s.versionsOf ids).map s.versionOf :=
    List.map_congr_left fun r hr => s.version_eq_versionOf (List.mem_map_of_mem hr)
  have htyped : (∀ r ∈ s.versionsOf ids, s.Typed r.id) ↔
      ∀ v ∈ s.fieldValuesOf ((s.versionsOf ids).map (·.id)),
        (FieldType.ofName? v.fieldType).isSome := by
    rw [s.local_fieldValuesOf.forall_mem_iff, List.forall_mem_map]
    rfl
  rw [yields_ask_bind, yields_ask_bind, yields_ask_bind]
  simp only [answer]
  split
  · next values hvalues =>
    have hknown := isSome_of_typedValues hvalues
    rw [typedValues_eq_ok hknown] at hvalues
    cases hvalues
    rw [Attempt.yields_pure, hmap]
    exact (and_iff_right (htyped.2 hknown)).symm
  · next e he =>
    refine iff_of_false Attempt.not_yields_throw fun h => ?_
    rw [typedValues_eq_ok (htyped.1 h.1)] at he
    cases he

/-! ### Projects -/

/-- The record of the row of a project. -/
def projectOf (r : ProjectRow) : Project :=
  Hydration.project ⟨s.categoriesOf [r.id], s.versionsOfProjects [r.id], s.galleryOf [r.id],
    s.linksOf [r.id], s.namesOfProjects s.projectTypeNames [r.id],
    s.namesOfProjects s.gameNames [r.id]⟩ r

theorem project_eq_projectOf {r : ProjectRow} {ids : List Int} (hr : r.id ∈ ids) :
    Hydration.project ⟨s.categoriesOf ids, s.versionsOfProjects ids, s.galleryOf ids,
      s.linksOf ids, s.namesOfProjects s.projectTypeNames ids,
      s.namesOfProjects s.gameNames ids⟩ r = s.projectOf r := by
  simp only [projectOf, Hydration.project, namesOf_congr (s.local_namesOfProjects _) hr,
    s.local_categoriesOf.filter_eq hr, s.local_categoriesOf.filter_self,
    s.local_versionsOfProjects.filter_eq hr, s.local_versionsOfProjects.filter_self,
    s.local_galleryOf.filter_eq hr, s.local_galleryOf.filter_self,
    s.local_linksOf.filter_eq hr, s.local_linksOf.filter_self]

theorem versionIds_projectOf (r : ProjectRow) :
    (s.projectOf r).versionIds = (s.versionsOfProjects [r.id]).map VersionRow.id := by
  rw [projectOf, Hydration.project, s.local_versionsOfProjects.filter_self]

theorem mem_versionIds_projectOf {r : ProjectRow} {id : Int} :
    id ∈ (s.projectOf r).versionIds ↔ ∃ v ∈ s.versions, v.projectId = r.id ∧ v.id = id := by
  simp [versionIds_projectOf, versionsOfProjects, mem_sortBy, and_assoc]

/-- A batch of projects is the records of its rows. -/
theorem yields_projects {ids : List Int} {projects : List Project} :
    Attempt.Yields s (Hydration.projects ids) (.ok projects) ↔
      (s.projectsOf ids).map s.projectOf = projects := by
  rw [Hydration.projects]
  split
  · next hids =>
    rw [List.isEmpty_iff.1 hids, s.local_projectsOf.nil, Attempt.yields_pure, List.map_nil]
  rw [yields_ask_bind]
  change Attempt.Yields s (if (s.projectsOf ids).isEmpty then _ else _) _ ↔ _
  split
  · next hrows => rw [List.isEmpty_iff.1 hrows, Attempt.yields_pure, List.map_nil]
  rw [yields_ask_bind, yields_ask_bind, yields_ask_bind, yields_ask_bind, yields_ask_bind,
    yields_ask_bind]
  simp only [answer]
  rw [Attempt.yields_pure, List.map_congr_left fun r hr =>
    s.project_eq_projectOf (List.mem_map_of_mem (f := ProjectRow.id) hr)]

/-! ### One record for each row -/

variable {s}

theorem oneEach_of_sortBy {ρ α : Type} {le : ρ → ρ → Bool} {id : ρ → Int} {make : ρ → α}
    {makes : ρ → α → Prop} (h : ∀ r, makes r (make r)) (rows : List ρ) (ids : List Int) :
    OneEach (rows.filter fun r => id r ∈ ids) makes
      ((sortBy le (rows.filter fun r => ids.contains (id r))).map make) := by
  simp only [List.contains_eq_mem]
  have hmade : OneEach (rows.filter fun r => id r ∈ ids) makes
      ((rows.filter fun r => id r ∈ ids).map make) :=
    OneEach.of_map fun r _ => h r
  exact hmade.perm ((sortBy_perm le _).symm.map make)

/-- Versions whose fields have known types are hydrated, with one record for each row. -/
theorem exists_versions (hs : s.ValidFieldTypes) {makes : VersionRow → Version → Prop}
    (h : ∀ r, makes r (s.versionOf r)) (ids : List Int) :
    ∃ versions, Attempt.Yields s (Hydration.versions ids) (.ok versions) ∧
      OneEach (s.versions.filter fun r => r.id ∈ ids) makes versions :=
  ⟨_, s.yields_versions.2 ⟨fun r _ => hs.typed r.id, rfl⟩, oneEach_of_sortBy h _ _⟩

/-- Projects are hydrated, with one record for each row. -/
theorem exists_projects {makes : ProjectRow → Project → Prop} (h : ∀ r, makes r (s.projectOf r))
    (ids : List Int) :
    ∃ projects, Attempt.Yields s (Hydration.projects ids) (.ok projects) ∧
      OneEach (s.projects.filter fun r => r.id ∈ ids) makes projects :=
  ⟨_, s.yields_projects.2 rfl, oneEach_of_sortBy h _ _⟩

variable (s)

/-! ### Fetching asks only the store -/

theorem settled_ask (q : Query) : Attempt.Settled s (Hydration.ask q) :=
  Attempt.settled_askStore.withError

theorem settled_versions (ids : List Int) : Attempt.Settled s (Hydration.versions ids) := by
  rw [Hydration.versions]
  split
  · exact Attempt.settled_pure
  refine (s.settled_ask _).bind fun rows => ?_
  split
  · exact Attempt.settled_pure
  refine (s.settled_ask _).bind fun loaders => (s.settled_ask _).bind fun projectTypes =>
    (s.settled_ask _).bind fun values => ?_
  split
  · exact Attempt.settled_pure
  · exact Attempt.settled_throw

theorem settled_projects (ids : List Int) : Attempt.Settled s (Hydration.projects ids) := by
  rw [Hydration.projects]
  split
  · exact Attempt.settled_pure
  refine (s.settled_ask _).bind fun rows => ?_
  split
  · exact Attempt.settled_pure
  exact (s.settled_ask _).bind fun categories => (s.settled_ask _).bind fun versions =>
    (s.settled_ask _).bind fun gallery => (s.settled_ask _).bind fun links =>
    (s.settled_ask _).bind fun projectTypes => (s.settled_ask _).bind fun games =>
    Attempt.settled_pure

end Store

end CatalogSearch
