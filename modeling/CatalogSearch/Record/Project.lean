import CatalogSearch.Record.GalleryImage

/-!
# Project records

Projects, with what hangs on them gathered into one record.
-/

namespace CatalogSearch

/-- A project with its categories, links, images and the ids of all its versions, whatever their
status. Project types and games are those of the loaders of its versions. -/
structure Project where
  id : Int
  name : String
  summary : String
  slug : Option String
  categories : List String
  additionalCategories : List String
  license : String
  licenseUrl : Option String
  iconUrl : Option String
  color : Option Int
  teamId : Int
  organizationId : Option Int
  threadId : Int
  status : String
  requestedStatus : Option String
  follows : Int
  downloads : Int
  approvedAt : Option Moment
  publishedAt : Moment
  updatedAt : Moment
  queuedAt : Option Moment
  monetizationStatus : String
  projectTypes : List String
  games : List String
  links : OrderedMap String String
  galleryItems : List GalleryImage
  versionIds : List Int
deriving DecidableEq

namespace Project

/-- Reads a project. -/
def ofJson : Json → Checked Project :=
  Schema.object fun v =>
    Project.mk
      <$> Schema.required v "id" Schema.integer
      <*> Schema.required v "name" Schema.text
      <*> Schema.optional v "summary" "" Schema.text
      <*> Schema.optional v "slug" none (Schema.nullable Schema.text)
      <*> Schema.optional v "categories" [] (Schema.list Schema.text)
      <*> Schema.optional v "additional_categories" [] (Schema.list Schema.text)
      <*> Schema.required v "license" Schema.text
      <*> Schema.optional v "license_url" none (Schema.nullable Schema.text)
      <*> Schema.optional v "icon_url" none (Schema.nullable Schema.text)
      <*> Schema.optional v "color" none (Schema.nullable Schema.integer)
      <*> Schema.required v "team_id" Schema.integer
      <*> Schema.optional v "organization_id" none (Schema.nullable Schema.integer)
      <*> Schema.required v "thread_id" Schema.integer
      <*> Schema.required v "status" Schema.text
      <*> Schema.optional v "requested_status" none (Schema.nullable Schema.text)
      <*> Schema.optional v "follows" 0 Schema.integer
      <*> Schema.optional v "downloads" 0 Schema.integer
      <*> Schema.optional v "approved_at" none (Schema.nullable Schema.moment)
      <*> Schema.required v "published_at" Schema.moment
      <*> Schema.required v "updated_at" Schema.moment
      <*> Schema.optional v "queued_at" none (Schema.nullable Schema.moment)
      <*> Schema.required v "monetization_status" Schema.text
      <*> Schema.optional v "project_types" [] (Schema.list Schema.text)
      <*> Schema.optional v "games" [] (Schema.list Schema.text)
      <*> Schema.optional v "links" ∅ (Schema.dictionary Schema.text)
      <*> Schema.optional v "gallery_items" [] (Schema.list GalleryImage.ofJson)
      <*> Schema.optional v "version_ids" [] (Schema.list Schema.integer)

/-- Writes a project. -/
def toJson (p : Project) : Json :=
  .obj [
    ("id", .int p.id),
    ("name", .str p.name),
    ("summary", .str p.summary),
    ("slug", Schema.ofNullable .str p.slug),
    ("categories", Schema.ofTexts p.categories),
    ("additional_categories", Schema.ofTexts p.additionalCategories),
    ("license", .str p.license),
    ("license_url", Schema.ofNullable .str p.licenseUrl),
    ("icon_url", Schema.ofNullable .str p.iconUrl),
    ("color", Schema.ofNullable .int p.color),
    ("team_id", .int p.teamId),
    ("organization_id", Schema.ofNullable .int p.organizationId),
    ("thread_id", .int p.threadId),
    ("status", .str p.status),
    ("requested_status", Schema.ofNullable .str p.requestedStatus),
    ("follows", .int p.follows),
    ("downloads", .int p.downloads),
    ("approved_at", Schema.ofNullable Schema.ofMoment p.approvedAt),
    ("published_at", Schema.ofMoment p.publishedAt),
    ("updated_at", Schema.ofMoment p.updatedAt),
    ("queued_at", Schema.ofNullable Schema.ofMoment p.queuedAt),
    ("monetization_status", .str p.monetizationStatus),
    ("project_types", Schema.ofTexts p.projectTypes),
    ("games", Schema.ofTexts p.games),
    ("links", Schema.ofDictionary .str p.links),
    ("gallery_items", Schema.ofList GalleryImage.toJson p.galleryItems),
    ("version_ids", Schema.ofList .int p.versionIds)]

end Project

end CatalogSearch
