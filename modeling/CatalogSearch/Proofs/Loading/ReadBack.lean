import CatalogSearch.Loading.Batch
import CatalogSearch.Proofs.Loading.Hydration
import CatalogSearch.Proofs.Number.Decimal
import CatalogSearch.Proofs.Record.ReadBack

/-!
# Cached records are read back

What the cache keeps of the records of the store. The text of a record is read as nothing but this
record (`ofText?_text`), and each record of either kind has a key of its own (`cacheKey_inj`,
`cacheKey_ne`).
-/

namespace CatalogSearch

namespace RecordKind

variable {ρ : Type}

/-- The text of a record is read as no other record. -/
def ReadsBack (k : RecordKind ρ) (r : ρ) : Prop := ∀ r', k.ofText? (k.text r) = some r' → r' = r

theorem readsBack_of_restores {k : RecordKind ρ} {r : ρ}
    (h : Schema.Restores k.ofJson k.toJson r) : k.ReadsBack r := by
  intro r' hr'
  rw [ofText?] at hr'
  cases hread : Schema.ofText k.ofJson (k.text r) with
  | ok a =>
    rw [hread] at hr'
    cases hr'
    exact h.of_text hread
  | wrong places =>
    rw [hread] at hr'
    cases hr'

/-- The text of a record within the limits is read as the record. -/
theorem ofText?_text {k : RecordKind ρ} {r : ρ} (h : Schema.Restores k.ofJson k.toJson r)
    (hfits : Json.fits .narrow Json.Limits.narrow.depth (k.toJson r) = true) :
    k.ofText? (k.text r) = some r := by
  rw [ofText?, text, h.ofText_print hfits]
  rfl

theorem cacheKey_inj {k : RecordKind ρ} {id id' : Int} (h : k.cacheKey id = k.cacheKey id') :
    id = id' :=
  Decimal.text_inj ((String.append_right_inj _).1 h)

theorem cacheKey_ne (id id' : Int) : versions.cacheKey id ≠ projects.cacheKey id' := by
  intro h
  have hhead := congrArg (fun s : String => s.toList.head?) h
  simp [cacheKey, versions, projects] at hhead

end RecordKind

namespace Hydration

theorem plain_of_payload? {t : FieldType} {v : Store.FieldValue} {p : Json}
    (h : payload? t v = some p) : p.Plain := by
  rw [payload?] at h
  split at h <;> obtain ⟨x, -, rfl⟩ := Option.map_eq_some_iff.1 h
  · exact Json.plain_bool _
  · exact Json.plain_int x
  · exact Json.plain_str x
  · exact Json.plain_str x

theorem plain_payload {l : List Store.FieldValue} :
    ∀ v ∈ l.filterMap typedValue?, v.payload.Plain := by
  intro v hv
  obtain ⟨row, -, hrow⟩ := List.mem_filterMap.1 hv
  obtain ⟨t, -, hp⟩ := Option.bind_eq_some_iff.1 hrow
  obtain ⟨p, hpayload, rfl⟩ := Option.map_eq_some_iff.1 hp
  exact plain_of_payload? hpayload

/-- Fields made of plain values are plain, whether single or lists. -/
theorem plain_fields {values : List TypedValue} (h : ∀ v ∈ values, v.payload.Plain) (id : Int) :
    ∀ f ∈ fields values id, f.value.Plain := by
  have hown : ∀ v ∈ values.filter (fun v => decide (v.versionId = id)), v.payload.Plain :=
    fun v hv => h v (List.mem_filter.1 hv).1
  intro f hf
  obtain ⟨first, hfirst, rfl⟩ := List.mem_map.1 hf
  rw [field]
  dsimp only
  split
  · exact Json.plain_arr (List.forall_mem_map.2 fun v hv => hown v (List.mem_filter.1 hv).1)
  · exact hown first ((distinctBy_sublist _ _).mem hfirst)

end Hydration

namespace Store

variable (s : Store)

theorem readsBack_versionRecords (ids : List Int) :
    ∀ v ∈ (s.versionsOf ids).map s.versionOf, RecordKind.versions.ReadsBack v := by
  intro v hv
  obtain ⟨r, -, rfl⟩ := List.mem_map.1 hv
  exact RecordKind.readsBack_of_restores
    (Version.restores (Hydration.plain_fields Hydration.plain_payload r.id))

theorem readsBack_project (p : Project) : RecordKind.projects.ReadsBack p :=
  RecordKind.readsBack_of_restores (Project.restores p)

end Store

end CatalogSearch
