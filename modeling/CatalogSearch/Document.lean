import CatalogSearch.Record.GalleryImage

/-!
# Search documents

There is one document for each visible version, with all that search shows or filters by.
`Document.toJson` writes what `Document.written` has of it, and `Document.ofJson` reads it.
-/

namespace CatalogSearch

/-- What search holds of one version of a project. Ids are public ids; each timestamp is the same
instant as the moment before it. -/
structure Document where
  versionId : String
  projectId : String
  name : String
  summary : String
  categories : List String
  displayCategories : List String
  follows : Int
  downloads : Int
  iconUrl : Option String
  author : String
  dateCreated : Moment
  createdTimestamp : Int
  dateModified : Moment
  modifiedTimestamp : Int
  license : String
  licenseUrl : Option String
  openSource : Bool
  slug : Option String
  projectTypes : List String
  gallery : List String
  featuredGallery : Option String
  color : Option Int
  loaderFields : OrderedMap String (List Json)
  monetizationStatus : Option String
  teamId : String
  organizationId : Option String
  threadId : String
  versions : List String
  datePublished : Moment
  dateQueued : Option Moment
  status : String
  requestedStatus : Option String
  games : List String
  links : OrderedMap String String
  galleryItems : List GalleryImage
  loaders : List String
deriving DecidableEq

namespace Document

/-- Reads a document. -/
def ofJson : Json → Checked Document :=
  Schema.object fun v =>
    Document.mk
      <$> Schema.required v "version_id" Schema.text
      <*> Schema.required v "project_id" Schema.text
      <*> Schema.required v "name" Schema.text
      <*> Schema.required v "summary" Schema.text
      <*> Schema.required v "categories" (Schema.list Schema.text)
      <*> Schema.required v "display_categories" (Schema.list Schema.text)
      <*> Schema.required v "follows" Schema.integer
      <*> Schema.required v "downloads" Schema.integer
      <*> Schema.optional v "icon_url" none (Schema.nullable Schema.text)
      <*> Schema.required v "author" Schema.text
      <*> Schema.required v "date_created" Schema.moment
      <*> Schema.required v "created_timestamp" Schema.integer
      <*> Schema.required v "date_modified" Schema.moment
      <*> Schema.required v "modified_timestamp" Schema.integer
      <*> Schema.required v "license" Schema.text
      <*> Schema.optional v "license_url" none (Schema.nullable Schema.text)
      <*> Schema.required v "open_source" Schema.boolean
      <*> Schema.optional v "slug" none (Schema.nullable Schema.text)
      <*> Schema.required v "project_types" (Schema.list Schema.text)
      <*> Schema.required v "gallery" (Schema.list Schema.text)
      <*> Schema.optional v "featured_gallery" none (Schema.nullable Schema.text)
      <*> Schema.optional v "color" none (Schema.nullable Schema.integer)
      <*> Schema.optional v "loader_fields" ∅ (Schema.dictionary (Schema.list Schema.any))
      <*> Schema.optional v "monetization_status" none (Schema.nullable Schema.text)
      <*> Schema.required v "team_id" Schema.text
      <*> Schema.optional v "organization_id" none (Schema.nullable Schema.text)
      <*> Schema.required v "thread_id" Schema.text
      <*> Schema.required v "versions" (Schema.list Schema.text)
      <*> Schema.required v "date_published" Schema.moment
      <*> Schema.optional v "date_queued" none (Schema.nullable Schema.moment)
      <*> Schema.required v "status" Schema.text
      <*> Schema.optional v "requested_status" none (Schema.nullable Schema.text)
      <*> Schema.required v "games" (Schema.list Schema.text)
      <*> Schema.required v "links" (Schema.dictionary Schema.text)
      <*> Schema.required v "gallery_items" (Schema.list GalleryImage.ofJson)
      <*> Schema.required v "loaders" (Schema.list Schema.text)

/-- The document with null in its loader fields for numbers that are not finite. No other field has
such numbers. -/
def written (d : Document) : Document :=
  { d with loaderFields := d.loaderFields.mapValues (List.map Json.written) }

/-- The fields of a document as they are written. -/
def fields (d : Document) : List (String × Json) := [
  ("version_id", .str d.versionId),
  ("project_id", .str d.projectId),
  ("name", .str d.name),
  ("summary", .str d.summary),
  ("categories", Schema.ofTexts d.categories),
  ("display_categories", Schema.ofTexts d.displayCategories),
  ("follows", .int d.follows),
  ("downloads", .int d.downloads),
  ("icon_url", Schema.ofNullable .str d.iconUrl),
  ("author", .str d.author),
  ("date_created", Schema.ofMoment d.dateCreated),
  ("created_timestamp", .int d.createdTimestamp),
  ("date_modified", Schema.ofMoment d.dateModified),
  ("modified_timestamp", .int d.modifiedTimestamp),
  ("license", .str d.license),
  ("license_url", Schema.ofNullable .str d.licenseUrl),
  ("open_source", .bool d.openSource),
  ("slug", Schema.ofNullable .str d.slug),
  ("project_types", Schema.ofTexts d.projectTypes),
  ("gallery", Schema.ofTexts d.gallery),
  ("featured_gallery", Schema.ofNullable .str d.featuredGallery),
  ("color", Schema.ofNullable .int d.color),
  ("loader_fields", Schema.ofDictionary .arr d.written.loaderFields),
  ("monetization_status", Schema.ofNullable .str d.monetizationStatus),
  ("team_id", .str d.teamId),
  ("organization_id", Schema.ofNullable .str d.organizationId),
  ("thread_id", .str d.threadId),
  ("versions", Schema.ofTexts d.versions),
  ("date_published", Schema.ofMoment d.datePublished),
  ("date_queued", Schema.ofNullable Schema.ofMoment d.dateQueued),
  ("status", .str d.status),
  ("requested_status", Schema.ofNullable .str d.requestedStatus),
  ("games", Schema.ofTexts d.games),
  ("links", Schema.ofDictionary .str d.links),
  ("gallery_items", Schema.ofList GalleryImage.toJson d.galleryItems),
  ("loaders", Schema.ofTexts d.loaders)]

/-- Writes a document. -/
def toJson (d : Document) : Json := .obj d.fields

end Document

end CatalogSearch
