import CatalogSearch.Proofs.Document.Consistency
import CatalogSearch.Proofs.Document.LoaderFields
import CatalogSearch.Proofs.Json.Key

/-!
# Assembly is exact

Assembly makes one document of each resolved version, in their order, or ends with the fault of the
first that has one (`assemble_exact`). What a document takes from its two records and the owner is
said by `Document.MadeOf`, `Document.Gathers` and `Document.Copies`. The values that are compared in
between all have keys if the fields of the records are within the limits of records.
-/

namespace CatalogSearch

namespace Document

/-- All that a document copies from the record of its project. -/
def Copies (project : Project) (d : Document) : Prop :=
  d = { d with
    name := project.name
    summary := project.summary
    follows := project.follows
    downloads := project.downloads
    iconUrl := project.iconUrl
    dateCreated := project.approvedAt.getD project.publishedAt
    dateModified := project.updatedAt
    licenseUrl := project.licenseUrl
    slug := project.slug
    projectTypes := project.projectTypes
    color := project.color
    monetizationStatus := some project.monetizationStatus
    datePublished := project.publishedAt
    dateQueued := project.queuedAt
    status := project.status
    requestedStatus := project.requestedStatus
    games := project.games
    links := project.links
    galleryItems := project.galleryItems }

theorem copies_of_build {registry : License.Registry} {versions : OrderedMap Int Version}
    {project : Project} {version : Version} {owner : String} {d : Document}
    (h : build registry versions project version owner = .ok d) : d.Copies project := by
  rw [build] at h
  obtain ⟨views, -, h⟩ := bind_eq_ok.1 h
  obtain ⟨versionId, -, h⟩ := bind_eq_ok.1 h
  obtain ⟨projectId, -, h⟩ := bind_eq_ok.1 h
  obtain ⟨teamId, -, h⟩ := bind_eq_ok.1 h
  obtain ⟨organizationId, -, h⟩ := bind_eq_ok.1 h
  obtain ⟨threadId, -, h⟩ := bind_eq_ok.1 h
  obtain ⟨versionIds, -, h⟩ := bind_eq_ok.1 h
  cases h
  rfl

end Document

/-! ### Keys of the values of fields -/

namespace LoaderField

variable {f : LoaderField} {levels : Nat} {v : Json} {vs : List Json}

theorem printable_elements (h : Json.Printable levels v) (hvs : elements v = .ok vs) :
    ∀ x ∈ vs, Json.Printable levels x := by
  unfold elements at hvs
  split at hvs
  · cases h with
    | null => cases hvs; exact nofun
    | bool | int | float => cases hvs
    | str s =>
      cases hvs
      exact List.forall_mem_map.2 fun c _ => .str _
    | arr hvs' =>
      cases hvs
      exact fun x hx => (hvs' x hx).mono (Nat.le_succ _)
    | obj hms =>
      cases hvs
      exact List.forall_mem_map.2 fun m _ => .str _
  · cases hvs
    exact nofun

theorem printable_contribution (h : Json.Printable levels v) :
    ∀ x ∈ FieldViews.contribution v, Json.Printable levels x := by
  cases h with
  | arr hvs => exact fun x hx => (hvs x hx).mono (Nat.le_succ _)
  | null => exact List.forall_mem_singleton.2 .null
  | bool b => exact List.forall_mem_singleton.2 (.bool b)
  | int hn => exact List.forall_mem_singleton.2 (.int hn)
  | float x => exact List.forall_mem_singleton.2 (.float x)
  | str s => exact List.forall_mem_singleton.2 (.str s)
  | obj hms => exact List.forall_mem_singleton.2 (.obj hms)

/-- The values that a field adds are printable if its own value is. -/
theorem printable_values (h : Json.Printable levels f.value) :
    ∀ x ∈ f.values, Json.Printable levels x := by
  cases hs : f.serialized with
  | error e =>
    have hnil : f.values = [] := by rw [values, hs]
    rw [hnil]
    exact List.forall_mem_nil _
  | ok v =>
    rw [values_eq hs]
    rw [serialized] at hs
    by_cases harray : f.type.isArray = true
    · rw [if_pos harray] at hs
      cases hvs : elements f.value with
      | error e => rw [hvs] at hs; cases hs
      | ok vs =>
        rw [hvs] at hs
        obtain rfl := Except.ok.inj hs
        have hcontribution (l : List Json) : FieldViews.contribution (.arr l) = l := rfl
        rw [hcontribution]
        split
        · exact List.forall_mem_map.2 fun v _ => .bool _
        · exact printable_elements h hvs
    · rw [if_neg harray] at hs
      obtain rfl := Except.ok.inj hs
      refine printable_contribution ?_
      split
      · exact .bool _
      · exact h

end LoaderField

variable {registry : License.Registry} {versions : OrderedMap Int Version}
  {projects : OrderedMap Int Project}

/-- The documents are those of the resolved versions, in their order, each made of its two records
and its owner; parts of the list can be assembled apart, and versions that are not resolved count
for nothing. Assembly fails with the fault of the first resolved version that has one, and only
then. The values of fields that are within the limits of records have keys. -/
theorem assemble_exact (registry : License.Registry) (versions : OrderedMap Int Version)
    (projects : OrderedMap Int Project) (visible more : List VisibleVersion) :
    (∀ documents, assemble registry versions projects visible = .ok documents ↔
      List.Forall₂ (fun r d => Document.build registry versions r.project r.version r.owner = .ok d)
        (visible.filterMap (·.resolve? versions projects)) documents) ∧
    (∀ documents, assemble registry versions projects visible = .ok documents →
      List.Forall₂ (fun r d => d.MadeOf r.project r.version r.owner ∧
          d.Gathers versions r.project r.version ∧ d.Copies r.project)
        (visible.filterMap (·.resolve? versions projects)) documents) ∧
    (assemble registry versions projects (visible ++ more) = do
      let documents ← assemble registry versions projects visible
      return documents ++ (← assemble registry versions projects more)) ∧
    assemble registry versions projects
        (visible.filter fun e => (e.resolve? versions projects).isSome) =
      assemble registry versions projects visible ∧
    (∀ e, assemble registry versions projects visible = .error e ↔
      (visible.filterMap (·.resolve? versions projects)).findSome? Resolved.fault? = some e) ∧
    ((∃ e, assemble registry versions projects visible = .error e) ↔
      ∃ r ∈ visible.filterMap (·.resolve? versions projects),
        (∃ f ∈ r.version.fields,
          f.type.isArray = true ∧ f.value.truthy = true ∧ ¬ f.value.HasElements) ∨
        ∃ n ∈ r.numbers, n < 0) ∧
    ∀ levels, Json.Limits.narrow.depth < levels →
      ∀ r ∈ visible.filterMap (·.resolve? versions projects), ∀ f ∈ r.version.fields,
        Json.Within Json.Limits.narrow.depth f.value →
          ∀ v ∈ f.values, ∃ s, v.key levels = .ok s := by
  have herrs := errs_assemble registry versions projects visible
  refine ⟨fun documents => assemble_eq_ok_iff, fun documents h => ?_, ?_, ?_, herrs, ?_, ?_⟩
  · refine (assemble_eq_ok_iff.1 h).imp fun r d hd => ?_
    exact ⟨Document.madeOf_of_build hd, Document.gathers_of_build hd, Document.copies_of_build hd⟩
  · simp only [assemble_eq_mapM, List.filterMap_append, List.mapM_append]
  · rw [assemble_eq_mapM, assemble_eq_mapM, List.filterMap_filter]
    refine congrArg (List.mapM _) (congrArg (List.filterMap · visible) (funext fun e => ?_))
    cases e.resolve? versions projects <;> rfl
  · calc (∃ e, assemble registry versions projects visible = .error e)
      _ ↔ ((visible.filterMap (·.resolve? versions projects)).findSome?
            Resolved.fault?).isSome = true := by
        rw [Option.isSome_iff_exists]
        exact exists_congr herrs
      _ ↔ _ := by
        rw [List.isSome_findSome?, List.any_eq_true]
        simp only [Resolved.isSome_fault?]
  · intro levels hlevels r _ f _ hwithin v hv
    exact Json.exists_key_iff.2 (LoaderField.printable_values (hwithin.printable hlevels) v hv)

end CatalogSearch
