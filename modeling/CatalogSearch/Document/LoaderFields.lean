import CatalogSearch.Document.Collapse
import CatalogSearch.Record.LoaderField

/-!
# Loader fields in search

The loader fields of a version as search sees them, put together by `FieldViews.reconcile`. Fields
of one name are merged into one list; beside it the value of the last field of each name is kept as
it is.
-/

namespace CatalogSearch

/-- The two views of the loader fields of a version, by name. -/
structure FieldViews where
  merged : OrderedMap String (List Json)
  raw : OrderedMap String Json
deriving DecidableEq

namespace FieldViews

/-- No fields. -/
def empty : FieldViews := ⟨∅, ∅⟩

/-- What a serialized value adds to a merged list: a list its elements, any other value itself. -/
def contribution : Json → List Json
  | .arr vs => vs
  | v => [v]

/-- The views with a serialized value added. -/
def add (views : FieldViews) (name : String) (v : Json) : FieldViews :=
  ⟨views.merged.insert name ((views.merged.find? name).getD [] ++ contribution v),
    views.raw.insert name v⟩

/-- The views with fields added one after the other, nothing collapsed yet. -/
def addFields (views : FieldViews) : List LoaderField → Except LoaderField.NotIterable FieldViews
  | [] => .ok views
  | f :: rest =>
    match f.serialized with
    | .ok v => addFields (views.add f.name v) rest
    | .error e => .error e

/-- The views of a version's fields, runs of equal values collapsed. -/
def reconcile (fields : List LoaderField) : Except LoaderField.NotIterable FieldViews :=
  (addFields empty fields).map fun views =>
    { views with merged := views.merged.mapValues Json.collapse }

end FieldViews

end CatalogSearch
