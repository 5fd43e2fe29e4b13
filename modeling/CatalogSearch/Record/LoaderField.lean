import CatalogSearch.Record.FieldType
import CatalogSearch.Schema.Scalar

/-!
# Loader fields

Loader fields of a version: typed, named values. Nothing ties the value of a record to its type, so
turning it into the value that search sees can fail: what is not empty and cannot be listed has no
`elements`.
-/

namespace CatalogSearch

/-- A typed value of a loader field. -/
structure LoaderField where
  fieldId : Int
  name : String
  type : FieldType
  value : Json
deriving DecidableEq

namespace LoaderField

/-- Reads a field type. -/
def readType : Json → Checked FieldType
  | .str s => .ofOption (FieldType.ofName? s)
  | _ => .refused

/-- Reads a loader field. -/
def ofJson : Json → Checked LoaderField :=
  Schema.object fun v =>
    LoaderField.mk
      <$> Schema.required v "field_id" Schema.integer
      <*> Schema.required v "field_name" Schema.text
      <*> Schema.required v "field_type" readType
      <*> Schema.required v "value" Schema.any

/-- Writes a loader field. -/
def toJson (f : LoaderField) : Json :=
  .obj [
    ("field_id", .int f.fieldId),
    ("field_name", .str f.name),
    ("field_type", .str f.type.name),
    ("value", f.value)]

/-- The kinds of values without elements. -/
inductive NotIterable where
  | bool
  | int
  | float
deriving DecidableEq

/-- The text that reports that a value has no elements. -/
def NotIterable.message : NotIterable → String
  | .bool => "'bool' object is not iterable"
  | .int => "'int' object is not iterable"
  | .float => "'float' object is not iterable"

/-- The elements of a value: of a list its elements, of a text its characters, of an object its
keys. What is empty or false has none. -/
def elements (v : Json) : Except NotIterable (List Json) :=
  if v.truthy then
    match v with
    | .arr vs => .ok vs
    | .str s => .ok (s.toList.map (fun c => .str (String.singleton c)))
    | .obj ms => .ok (ms.map (fun m => .str m.1))
    | .bool _ => .error .bool
    | .int _ => .error .int
    | .float _ => .error .float
    | .null => .ok []
  else .ok []

/-- The value that search sees: by its type a list or a single value, truth values for booleans. -/
def serialized (f : LoaderField) : Except NotIterable Json :=
  if f.type.isArray then
    (elements f.value).map fun vs =>
      .arr (if f.type.isBoolean then vs.map (fun v => .bool v.truthy) else vs)
  else .ok (if f.type.isBoolean then .bool f.value.truthy else f.value)

end LoaderField

end CatalogSearch
