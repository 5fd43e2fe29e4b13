import CatalogSearch.Store.Cell

/-!
# Rows

The rows of the store's tables. Rows refer to one another by number; nothing makes sure that what a
number refers to is there.
-/

namespace CatalogSearch.Store

/-- A user. -/
structure UserRow where
  id : Int
  name : String
deriving DecidableEq

instance : Row UserRow where
  columns := [
    ⟨"id", .int, .null⟩,
    ⟨"username", .text, .null⟩]
  cells r := [.int r.id, .text r.name]
  ofCells?
    | [id, name] => do
      return ⟨← id.toInt?, ← name.toText?⟩
    | _ => none
  keys := [["id"]]

/-- A team of users. -/
structure TeamRow where
  id : Int
deriving DecidableEq

instance : Row TeamRow where
  columns := [
    ⟨"id", .int, .null⟩]
  cells r := [.int r.id]
  ofCells?
    | [id] => do
      return ⟨← id.toInt?⟩
    | _ => none
  keys := [["id"]]

/-- The membership of a user in a team. -/
structure TeamMemberRow where
  id : Int
  teamId : Int
  userId : Int
  isOwner : Bool
  accepted : Bool
deriving DecidableEq

instance : Row TeamMemberRow where
  columns := [
    ⟨"id", .int, .null⟩,
    ⟨"team_id", .int, .null⟩,
    ⟨"user_id", .int, .null⟩,
    ⟨"is_owner", .bool, .value (.bool false)⟩,
    ⟨"accepted", .bool, .value (.bool false)⟩]
  cells r := [.int r.id, .int r.teamId, .int r.userId, .bool r.isOwner, .bool r.accepted]
  ofCells?
    | [id, teamId, userId, isOwner, accepted] => do
      return ⟨← id.toInt?, ← teamId.toInt?, ← userId.toInt?, ← isOwner.toBool?, ← accepted.toBool?⟩
    | _ => none
  keys := [["id"]]

/-- An organization, which owns projects through its team. -/
structure OrganizationRow where
  id : Int
  slug : String
  name : String
  teamId : Int
deriving DecidableEq

instance : Row OrganizationRow where
  columns := [
    ⟨"id", .int, .null⟩,
    ⟨"slug", .text, .null⟩,
    ⟨"name", .text, .null⟩,
    ⟨"team_id", .int, .null⟩]
  cells r := [.int r.id, .text r.slug, .text r.name, .int r.teamId]
  ofCells?
    | [id, slug, name, teamId] => do
      return ⟨← id.toInt?, ← slug.toText?, ← name.toText?, ← teamId.toInt?⟩
    | _ => none
  keys := [["id"], ["slug"]]

/-- A project. -/
structure ProjectRow where
  id : Int
  name : String
  summary : String
  slug : Option String
  license : String
  licenseUrl : Option String
  iconUrl : Option String
  color : Option Int
  teamId : Int
  organizationId : Option Int
  threadId : Int
  status : String
  requestedStatus : Option String
  follows : Int
  downloads : Int
  approved : Option Moment
  published : Moment
  updated : Moment
  queued : Option Moment
  monetizationStatus : String
deriving DecidableEq

instance : Row ProjectRow where
  columns := [
    ⟨"id", .int, .null⟩,
    ⟨"name", .text, .null⟩,
    ⟨"summary", .text, .value (.text "")⟩,
    ⟨"slug", .text, .null⟩,
    ⟨"license", .text, .value (.text "LicenseRef-All-Rights-Reserved")⟩,
    ⟨"license_url", .text, .null⟩,
    ⟨"icon_url", .text, .null⟩,
    ⟨"color", .int, .null⟩,
    ⟨"team_id", .int, .null⟩,
    ⟨"organization_id", .int, .null⟩,
    ⟨"thread_id", .int, .null⟩,
    ⟨"status", .text, .null⟩,
    ⟨"requested_status", .text, .null⟩,
    ⟨"follows", .int, .value (.int 0)⟩,
    ⟨"downloads", .int, .value (.int 0)⟩,
    ⟨"approved", .moment, .null⟩,
    ⟨"published", .moment, .value (.moment .epoch)⟩,
    ⟨"updated", .moment, .value (.moment .epoch)⟩,
    ⟨"queued", .moment, .null⟩,
    ⟨"monetization_status", .text, .value (.text "monetized")⟩]
  cells r := [.int r.id, .text r.name, .text r.summary, Cell.ofOption .text r.slug, .text r.license,
    Cell.ofOption .text r.licenseUrl, Cell.ofOption .text r.iconUrl, Cell.ofOption .int r.color,
    .int r.teamId, Cell.ofOption .int r.organizationId, .int r.threadId, .text r.status,
    Cell.ofOption .text r.requestedStatus, .int r.follows, .int r.downloads,
    Cell.ofOption .moment r.approved, .moment r.published, .moment r.updated,
    Cell.ofOption .moment r.queued, .text r.monetizationStatus]
  ofCells?
    | [id, name, summary, slug, license, licenseUrl, iconUrl, color, teamId, organizationId,
        threadId, status, requestedStatus, follows, downloads, approved, published, updated, queued,
        monetizationStatus] => do
      return ⟨← id.toInt?, ← name.toText?, ← summary.toText?, ← slug.nullable Cell.toText?,
        ← license.toText?, ← licenseUrl.nullable Cell.toText?, ← iconUrl.nullable Cell.toText?,
        ← color.nullable Cell.toInt?, ← teamId.toInt?, ← organizationId.nullable Cell.toInt?,
        ← threadId.toInt?, ← status.toText?, ← requestedStatus.nullable Cell.toText?,
        ← follows.toInt?, ← downloads.toInt?, ← approved.nullable Cell.toMoment?,
        ← published.toMoment?, ← updated.toMoment?, ← queued.nullable Cell.toMoment?,
        ← monetizationStatus.toText?⟩
    | _ => none
  keys := [["id"], ["slug"]]

/-- A category. -/
structure CategoryRow where
  id : Int
  name : String
deriving DecidableEq

instance : Row CategoryRow where
  columns := [
    ⟨"id", .int, .null⟩,
    ⟨"category", .text, .null⟩]
  cells r := [.int r.id, .text r.name]
  ofCells?
    | [id, name] => do
      return ⟨← id.toInt?, ← name.toText?⟩
    | _ => none
  keys := [["id"], ["category"]]

/-- A category of a project; additional ones are searched by but not shown. -/
structure ProjectCategoryRow where
  projectId : Int
  categoryId : Int
  isAdditional : Bool
deriving DecidableEq

instance : Row ProjectCategoryRow where
  columns := [
    ⟨"joining_mod_id", .int, .null⟩,
    ⟨"joining_category_id", .int, .null⟩,
    ⟨"is_additional", .bool, .value (.bool false)⟩]
  cells r := [.int r.projectId, .int r.categoryId, .bool r.isAdditional]
  ofCells?
    | [projectId, categoryId, isAdditional] => do
      return ⟨← projectId.toInt?, ← categoryId.toInt?, ← isAdditional.toBool?⟩
    | _ => none
  keys := [["joining_mod_id", "joining_category_id"]]

/-- An image of a project. -/
structure GalleryRow where
  id : Int
  projectId : Int
  imageUrl : String
  featured : Bool
  name : Option String
  description : Option String
  created : Moment
  ordering : Int
deriving DecidableEq

instance : Row GalleryRow where
  columns := [
    ⟨"id", .int, .null⟩,
    ⟨"mod_id", .int, .null⟩,
    ⟨"image_url", .text, .null⟩,
    ⟨"featured", .bool, .value (.bool false)⟩,
    ⟨"name", .text, .null⟩,
    ⟨"description", .text, .null⟩,
    ⟨"created", .moment, .value (.moment .epoch)⟩,
    ⟨"ordering", .int, .value (.int 0)⟩]
  cells r := [.int r.id, .int r.projectId, .text r.imageUrl, .bool r.featured,
    Cell.ofOption .text r.name, Cell.ofOption .text r.description, .moment r.created,
    .int r.ordering]
  ofCells?
    | [id, projectId, imageUrl, featured, name, description, created, ordering] => do
      return ⟨← id.toInt?, ← projectId.toInt?, ← imageUrl.toText?, ← featured.toBool?,
        ← name.nullable Cell.toText?, ← description.nullable Cell.toText?, ← created.toMoment?,
        ← ordering.toInt?⟩
    | _ => none
  keys := [["id"]]

/-- A kind of place that projects link to. -/
structure LinkPlatformRow where
  id : Int
  name : String
deriving DecidableEq

instance : Row LinkPlatformRow where
  columns := [
    ⟨"id", .int, .null⟩,
    ⟨"name", .text, .null⟩]
  cells r := [.int r.id, .text r.name]
  ofCells?
    | [id, name] => do
      return ⟨← id.toInt?, ← name.toText?⟩
    | _ => none
  keys := [["id"], ["name"]]

/-- A link of a project. -/
structure LinkRow where
  projectId : Int
  platformId : Int
  url : String
deriving DecidableEq

instance : Row LinkRow where
  columns := [
    ⟨"joining_mod_id", .int, .null⟩,
    ⟨"joining_platform_id", .int, .null⟩,
    ⟨"url", .text, .null⟩]
  cells r := [.int r.projectId, .int r.platformId, .text r.url]
  ofCells?
    | [projectId, platformId, url] => do
      return ⟨← projectId.toInt?, ← platformId.toInt?, ← url.toText?⟩
    | _ => none
  keys := [["joining_mod_id", "joining_platform_id"]]

/-- A version of a project. -/
structure VersionRow where
  id : Int
  projectId : Int
  name : String
  number : String
  status : String
  published : Moment
deriving DecidableEq

instance : Row VersionRow where
  columns := [
    ⟨"id", .int, .null⟩,
    ⟨"mod_id", .int, .null⟩,
    ⟨"name", .text, .value (.text "")⟩,
    ⟨"version_number", .text, .value (.text "")⟩,
    ⟨"status", .text, .null⟩,
    ⟨"date_published", .moment, .value (.moment .epoch)⟩]
  cells r := [.int r.id, .int r.projectId, .text r.name, .text r.number, .text r.status,
    .moment r.published]
  ofCells?
    | [id, projectId, name, number, status, published] => do
      return ⟨← id.toInt?, ← projectId.toInt?, ← name.toText?, ← number.toText?, ← status.toText?,
        ← published.toMoment?⟩
    | _ => none
  keys := [["id"]]

/-- A loader, which versions run on. -/
structure LoaderRow where
  id : Int
  name : String
deriving DecidableEq

instance : Row LoaderRow where
  columns := [
    ⟨"id", .int, .null⟩,
    ⟨"loader", .text, .null⟩]
  cells r := [.int r.id, .text r.name]
  ofCells?
    | [id, name] => do
      return ⟨← id.toInt?, ← name.toText?⟩
    | _ => none
  keys := [["id"], ["loader"]]

/-- A loader that a version runs on. -/
structure VersionLoaderRow where
  loaderId : Int
  versionId : Int
deriving DecidableEq

instance : Row VersionLoaderRow where
  columns := [
    ⟨"loader_id", .int, .null⟩,
    ⟨"version_id", .int, .null⟩]
  cells r := [.int r.loaderId, .int r.versionId]
  ofCells?
    | [loaderId, versionId] => do
      return ⟨← loaderId.toInt?, ← versionId.toInt?⟩
    | _ => none
  keys := [["loader_id", "version_id"]]

/-- A project type. -/
structure ProjectTypeRow where
  id : Int
  name : String
deriving DecidableEq

instance : Row ProjectTypeRow where
  columns := [
    ⟨"id", .int, .null⟩,
    ⟨"name", .text, .null⟩]
  cells r := [.int r.id, .text r.name]
  ofCells?
    | [id, name] => do
      return ⟨← id.toInt?, ← name.toText?⟩
    | _ => none
  keys := [["id"], ["name"]]

/-- A project type that a loader makes a version fit for. -/
structure LoaderProjectTypeRow where
  loaderId : Int
  projectTypeId : Int
deriving DecidableEq

instance : Row LoaderProjectTypeRow where
  columns := [
    ⟨"joining_loader_id", .int, .null⟩,
    ⟨"joining_project_type_id", .int, .null⟩]
  cells r := [.int r.loaderId, .int r.projectTypeId]
  ofCells?
    | [loaderId, projectTypeId] => do
      return ⟨← loaderId.toInt?, ← projectTypeId.toInt?⟩
    | _ => none
  keys := [["joining_loader_id", "joining_project_type_id"]]

/-- A game. -/
structure GameRow where
  id : Int
  slug : String
deriving DecidableEq

instance : Row GameRow where
  columns := [
    ⟨"id", .int, .null⟩,
    ⟨"slug", .text, .null⟩]
  cells r := [.int r.id, .text r.slug]
  ofCells?
    | [id, slug] => do
      return ⟨← id.toInt?, ← slug.toText?⟩
    | _ => none
  keys := [["id"], ["slug"]]

/-- A game that a loader belongs to. -/
structure LoaderGameRow where
  loaderId : Int
  gameId : Int
deriving DecidableEq

instance : Row LoaderGameRow where
  columns := [
    ⟨"loader_id", .int, .null⟩,
    ⟨"game_id", .int, .null⟩]
  cells r := [.int r.loaderId, .int r.gameId]
  ofCells?
    | [loaderId, gameId] => do
      return ⟨← loaderId.toInt?, ← gameId.toInt?⟩
    | _ => none
  keys := [["loader_id", "game_id"]]

/-- A loader field; its type is a text that need not name one. -/
structure FieldRow where
  id : Int
  name : String
  type : String
  enumType : Option Int
deriving DecidableEq

instance : Row FieldRow where
  columns := [
    ⟨"id", .int, .null⟩,
    ⟨"field", .text, .null⟩,
    ⟨"field_type", .text, .null⟩,
    ⟨"enum_type", .int, .null⟩]
  cells r := [.int r.id, .text r.name, .text r.type, Cell.ofOption .int r.enumType]
  ofCells?
    | [id, name, type, enumType] => do
      return ⟨← id.toInt?, ← name.toText?, ← type.toText?, ← enumType.nullable Cell.toInt?⟩
    | _ => none
  keys := [["id"]]

/-- A value of an enumeration. -/
structure EnumValueRow where
  id : Int
  enumId : Int
  value : String
  ordering : Option Int
deriving DecidableEq

instance : Row EnumValueRow where
  columns := [
    ⟨"id", .int, .null⟩,
    ⟨"enum_id", .int, .null⟩,
    ⟨"value", .text, .null⟩,
    ⟨"ordering", .int, .null⟩]
  cells r := [.int r.id, .int r.enumId, .text r.value, Cell.ofOption .int r.ordering]
  ofCells?
    | [id, enumId, value, ordering] => do
      return ⟨← id.toInt?, ← enumId.toInt?, ← value.toText?, ← ordering.nullable Cell.toInt?⟩
    | _ => none
  keys := [["id"]]

/-- One value of a loader field of a version, in the column that the type of the field asks for. -/
structure VersionFieldRow where
  id : Int
  versionId : Int
  fieldId : Int
  intValue : Option Int
  textValue : Option String
  enumValue : Option Int
deriving DecidableEq

instance : Row VersionFieldRow where
  columns := [
    ⟨"id", .int, .nextNumber⟩,
    ⟨"version_id", .int, .null⟩,
    ⟨"field_id", .int, .null⟩,
    ⟨"int_value", .int, .null⟩,
    ⟨"string_value", .text, .null⟩,
    ⟨"enum_value", .int, .null⟩]
  cells r := [.int r.id, .int r.versionId, .int r.fieldId, Cell.ofOption .int r.intValue,
    Cell.ofOption .text r.textValue, Cell.ofOption .int r.enumValue]
  ofCells?
    | [id, versionId, fieldId, intValue, textValue, enumValue] => do
      return ⟨← id.toInt?, ← versionId.toInt?, ← fieldId.toInt?, ← intValue.nullable Cell.toInt?,
        ← textValue.nullable Cell.toText?, ← enumValue.nullable Cell.toInt?⟩
    | _ => none
  keys := [["id"]]

end CatalogSearch.Store
