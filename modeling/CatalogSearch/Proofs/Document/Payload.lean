import CatalogSearch.Document.Payload
import CatalogSearch.Proofs.Data.OrderedMap

/-!
# Fields of a payload

A payload keeps the fields of its document whatever loader fields there are beside them
(`find?_payload`).
-/

namespace CatalogSearch

theorem Payload.find?_default {p : Payload} {k : String} {v : Json} (h : p.find? k = some v)
    (name : String) (w : Json) : (p.default name w).find? k = some v := by
  rw [Payload.default]
  split
  · exact h
  · next hname =>
    have hne : name ≠ k := fun hk => hname (by rw [hk, OrderedMap.contains, h]; rfl)
    rw [OrderedMap.find?_insert, if_neg hne, h]

theorem Payload.find?_defaults {p : Payload} {k : String} {v : Json} (h : p.find? k = some v)
    (l : List (String × Json)) : (p.defaults l).find? k = some v := by
  induction l generalizing p with
  | nil => exact h
  | cons e rest ih => exact ih (find?_default h e.1 e.2)

namespace Document

theorem nodup_fields (d : Document) : (d.fields.map Prod.fst).Nodup := by
  have hnames : d.fields.map Prod.fst = ["version_id", "project_id", "name", "summary",
      "categories", "display_categories", "follows", "downloads", "icon_url", "author",
      "date_created", "created_timestamp", "date_modified", "modified_timestamp", "license",
      "license_url", "open_source", "slug", "project_types", "gallery", "featured_gallery",
      "color", "loader_fields", "monetization_status", "team_id", "organization_id",
      "thread_id", "versions", "date_published", "date_queued", "status", "requested_status",
      "games", "links", "gallery_items", "loaders"] := rfl
  rw [hnames]
  decide

/-- The fields of a document are members of its payload. -/
theorem find?_payload {d : Document} {k : String} {v : Json} (h : (k, v) ∈ d.fields) :
    d.payload.find? k = some v := by
  refine Payload.find?_defaults (OrderedMap.mem_entries.1 ?_) _
  rw [OrderedMap.entries_ofList d.nodup_fields]
  exact h

end Document

end CatalogSearch
