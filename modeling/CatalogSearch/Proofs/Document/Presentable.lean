import CatalogSearch.Proofs.Document.Faults

/-!
# Presentable records

Which records documents can be made of (`exists_assemble`). A number that becomes a public id must
not be negative, and the value of a field of a list type must be empty or have elements; nothing
else can go wrong.
-/

namespace CatalogSearch

/-- The value is fit for the type of the field. -/
def LoaderField.Presentable (f : LoaderField) : Prop :=
  f.type.isArray = true → f.value.truthy = true → f.value.HasElements

/-- A document can be made of the version. -/
structure Version.Presentable (v : Version) : Prop where
  id : 0 ≤ v.id
  fields : ∀ f ∈ v.fields, f.Presentable

/-- A document can be made of the project. -/
structure Project.Presentable (p : Project) : Prop where
  id : 0 ≤ p.id
  teamId : 0 ≤ p.teamId
  organizationId : ∀ id, p.organizationId = some id → 0 ≤ id
  threadId : 0 ≤ p.threadId
  versionIds : ∀ id ∈ p.versionIds, 0 ≤ id

theorem LoaderField.unlistable?_eq_none {f : LoaderField} :
    f.unlistable? = none ↔ f.Presentable := by
  rw [← Option.not_isSome_iff_eq_none, isSome_unlistable?, Presentable]
  simp only [not_and, not_not]

namespace Resolved

variable {r : Resolved}

theorem numbers_nonneg : (∀ n ∈ r.numbers, 0 ≤ n) ↔ 0 ≤ r.version.id ∧ 0 ≤ r.project.id ∧
    0 ≤ r.project.teamId ∧ (∀ id, r.project.organizationId = some id → 0 ≤ id) ∧
      0 ≤ r.project.threadId ∧ ∀ id ∈ r.project.versionIds, 0 ≤ id := by
  simp only [numbers, List.forall_mem_cons, List.forall_mem_append, Option.mem_toList]

/-- The resolved versions without a fault are those of presentable records. -/
theorem fault?_eq_none : r.fault? = none ↔ r.version.Presentable ∧ r.project.Presentable := by
  have hnumbers : r.numbers.find? (· < 0) = none ↔ ∀ n ∈ r.numbers, 0 ≤ n := by
    simp
  rw [fault?, Option.or_eq_none_iff, Option.map_eq_none_iff, Option.map_eq_none_iff,
    List.findSome?_eq_none_iff, hnumbers, numbers_nonneg]
  simp only [LoaderField.unlistable?_eq_none]
  constructor
  · rintro ⟨hfields, hid, hproject, hteam, horganization, hthread, hversions⟩
    exact ⟨⟨hid, hfields⟩, hproject, hteam, horganization, hthread, hversions⟩
  · rintro ⟨⟨hid, hfields⟩, hproject, hteam, horganization, hthread, hversions⟩
    exact ⟨hfields, hid, hproject, hteam, horganization, hthread, hversions⟩

end Resolved

/-- If both records of a visible version were loaded, a document can be made of them. -/
def VisibleVersion.Presentable (versions : OrderedMap Int Version)
    (projects : OrderedMap Int Project) (e : VisibleVersion) : Prop :=
  ∀ project version, projects.find? e.projectId = some project →
    versions.find? e.versionId = some version → version.Presentable ∧ project.Presentable

/-- Assembly comes to an end iff a document can be made of all records that were loaded. -/
theorem exists_assemble (registry : License.Registry) {versions : OrderedMap Int Version}
    {projects : OrderedMap Int Project} {visible : List VisibleVersion} :
    (∃ documents, assemble registry versions projects visible = .ok documents) ↔
      ∀ e ∈ visible, e.Presentable versions projects := by
  rw [(errs_assemble registry versions projects visible).exists_ok, List.findSome?_eq_none_iff]
  constructor
  · intro h e he project version hp hv
    have hresolve : e.resolve? versions projects = some ⟨project, version, e.owner⟩ :=
      VisibleVersion.resolve?_eq_some.2 ⟨hp, hv, rfl⟩
    exact Resolved.fault?_eq_none.1 (h _ (List.mem_filterMap.2 ⟨e, he, hresolve⟩))
  · intro h r hr
    obtain ⟨e, he, hresolve⟩ := List.mem_filterMap.1 hr
    obtain ⟨hp, hv, -⟩ := VisibleVersion.resolve?_eq_some.1 hresolve
    exact Resolved.fault?_eq_none.2 (h e he _ _ hp hv)

end CatalogSearch
