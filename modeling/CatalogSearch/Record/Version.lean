import CatalogSearch.Record.LoaderField

/-!
# Version records

Versions of a project, with what hangs on them gathered into one record.
-/

namespace CatalogSearch

/-- A version with its loaders, the project types they make it fit for, and its loader fields. -/
structure Version where
  id : Int
  projectId : Int
  status : String
  loaders : List String
  projectTypes : List String
  fields : List LoaderField
deriving DecidableEq

namespace Version

/-- Reads a version. -/
def ofJson : Json → Checked Version :=
  Schema.object fun v =>
    Version.mk
      <$> Schema.required v "id" Schema.integer
      <*> Schema.required v "project_id" Schema.integer
      <*> Schema.required v "status" Schema.text
      <*> Schema.optional v "loaders" [] (Schema.list Schema.text)
      <*> Schema.optional v "project_types" [] (Schema.list Schema.text)
      <*> Schema.optional v "version_fields" [] (Schema.list LoaderField.ofJson)

/-- Writes a version. -/
def toJson (v : Version) : Json :=
  .obj [
    ("id", .int v.id),
    ("project_id", .int v.projectId),
    ("status", .str v.status),
    ("loaders", Schema.ofTexts v.loaders),
    ("project_types", Schema.ofTexts v.projectTypes),
    ("version_fields", Schema.ofList LoaderField.toJson v.fields)]

end Version

end CatalogSearch
