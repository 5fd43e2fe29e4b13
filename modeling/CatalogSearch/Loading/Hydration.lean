import CatalogSearch.Record.Project
import CatalogSearch.Record.Version
import CatalogSearch.Service.Request

/-!
# Hydration

Fetching projects and versions from the store with all that hangs on them. One batch of ids takes
one query for the rows themselves and, if there are any, one for each kind of thing that hangs on
them. Ids without a row are left out; the records come in the order of their ids.
-/

namespace CatalogSearch

/-- Why records cannot be fetched. -/
inductive FetchError where
  | store (cause : Store.Failure)
  | fieldType (cause : FieldType.Unknown)
deriving DecidableEq

namespace Hydration

/-- Asks the store for something to fetch. -/
def ask (q : Store.Query) : Attempt FetchError q.Answer := (askStore q).withError .store

/-- The names that belong to one project or version. -/
def namesOf (id : Int) (l : List Store.NameOf) : List String :=
  (l.filter (·.ownerId = id)).map (·.name)

/-- An image as its row has it. -/
def image (r : Store.GalleryRow) : GalleryImage :=
  ⟨r.imageUrl, r.featured, r.name, r.description, r.created, r.ordering⟩

/-- What hangs on the projects of a batch. -/
structure ProjectParts where
  categories : List Store.CategoryOf
  versions : List Store.VersionRow
  gallery : List Store.GalleryRow
  links : List Store.LinkOf
  projectTypes : List Store.NameOf
  games : List Store.NameOf

/-- The record of a project: its row, and of the parts those that belong to it. -/
def project (parts : ProjectParts) (r : Store.ProjectRow) : Project :=
  let categories := parts.categories.filter (·.projectId = r.id)
  { id := r.id
    name := r.name
    summary := r.summary
    slug := r.slug
    categories := (categories.filter (fun c => !c.isAdditional)).map (·.name)
    additionalCategories := (categories.filter (·.isAdditional)).map (·.name)
    license := r.license
    licenseUrl := r.licenseUrl
    iconUrl := r.iconUrl
    color := r.color
    teamId := r.teamId
    organizationId := r.organizationId
    threadId := r.threadId
    status := r.status
    requestedStatus := r.requestedStatus
    follows := r.follows
    downloads := r.downloads
    approvedAt := r.approved
    publishedAt := r.published
    updatedAt := r.updated
    queuedAt := r.queued
    monetizationStatus := r.monetizationStatus
    projectTypes := namesOf r.id parts.projectTypes
    games := namesOf r.id parts.games
    links := OrderedMap.ofList
      ((parts.links.filter (·.projectId = r.id)).map (fun l => (l.platform, l.url)))
    galleryItems := (parts.gallery.filter (·.projectId = r.id)).map image
    versionIds := (parts.versions.filter (·.projectId = r.id)).map (·.id) }

/-- Fetches the projects of a batch of ids. -/
def projects (ids : List Int) : Attempt FetchError (List Project) := do
  if ids.isEmpty then return [] else
  let rows ← ask (.projects ids)
  if rows.isEmpty then return [] else
  let found := rows.map (·.id)
  let categories ← ask (.categories found)
  let versions ← ask (.versionIds found)
  let gallery ← ask (.gallery found)
  let links ← ask (.links found)
  let projectTypes ← ask (.projectTypes found)
  let games ← ask (.games found)
  return rows.map (project ⟨categories, versions, gallery, links, projectTypes, games⟩)

/-- What a row holds for a field of a type, if anything: an integer, whether it is not zero, the
text of an enumeration value, or a text. -/
def payload? (t : FieldType) (v : Store.FieldValue) : Option Json :=
  match t.kind with
  | .boolean => v.intValue.map (fun n => .bool (n ≠ 0))
  | .integer => v.intValue.map .int
  | .enum => v.enumValue.map .str
  | .text => v.textValue.map .str

/-- A value that a version has for a field. -/
structure TypedValue where
  versionId : Int
  fieldId : Int
  name : String
  type : FieldType
  payload : Json

/-- The values that rows hold, in their order; the first row whose field has an unknown type
spoils them all. -/
def typedValues : List Store.FieldValue → Except FieldType.Unknown (List TypedValue)
  | [] => .ok []
  | v :: rest => do
    let t ← FieldType.ofName v.fieldType
    let values ← typedValues rest
    match payload? t v with
    | some p => return ⟨v.versionId, v.fieldId, v.fieldName, t, p⟩ :: values
    | none => return values

/-- The record of the field of a value: of a list all values of its field, else the first one. -/
def field (values : List TypedValue) (first : TypedValue) : LoaderField :=
  { fieldId := first.fieldId
    name := first.name
    type := first.type
    value :=
      if first.type.isArray then
        .arr ((values.filter (·.fieldId = first.fieldId)).map (·.payload))
      else first.payload }

/-- The records of the fields of a version, each where its first value stands. -/
def fields (values : List TypedValue) (versionId : Int) : List LoaderField :=
  let own := values.filter (·.versionId = versionId)
  (distinctBy TypedValue.fieldId own).map (field own)

/-- The record of a version: its row, and of the parts those that belong to it. -/
def version (loaders projectTypes : List Store.NameOf) (values : List TypedValue)
    (r : Store.VersionRow) : Version :=
  { id := r.id
    projectId := r.projectId
    status := r.status
    loaders := namesOf r.id loaders
    projectTypes := namesOf r.id projectTypes
    fields := fields values r.id }

/-- Fetches the versions of a batch of ids. -/
def versions (ids : List Int) : Attempt FetchError (List Version) := do
  if ids.isEmpty then return [] else
  let rows ← ask (.versions ids)
  if rows.isEmpty then return [] else
  let found := rows.map (·.id)
  let loaders ← ask (.loaders found)
  let projectTypes ← ask (.versionProjectTypes found)
  let values ← ask (.fieldValues found)
  match typedValues values with
  | .ok values => return rows.map (version loaders projectTypes values)
  | .error e => throw (.fieldType e)

end Hydration

end CatalogSearch
