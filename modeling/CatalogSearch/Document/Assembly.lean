import CatalogSearch.Document
import CatalogSearch.Document.Categories
import CatalogSearch.Document.LoaderFields
import CatalogSearch.Document.SideTypes
import CatalogSearch.License
import CatalogSearch.Number.Base62
import CatalogSearch.Record.Project
import CatalogSearch.Record.Version
import CatalogSearch.Visibility

/-!
# Assembly of documents

`assemble` builds one document for each visible version whose two records were both loaded and skips
the others; it stops at the first record that cannot be turned into a document. `Document.build`
makes a single one.
-/

namespace CatalogSearch

/-- Why a record cannot be turned into a document. -/
inductive AssemblyError where
  | field (cause : LoaderField.NotIterable)
  | id (cause : Base62.EncodeError)
deriving DecidableEq

/-- The text that reports it. -/
def AssemblyError.message : AssemblyError → String
  | .field cause => cause.message
  | .id cause => cause.message

/-- The loaders of the versions with the given ids, as far as they were loaded, each once and in
order. -/
def aggregateLoaders (ids : List Int) (versions : OrderedMap Int Version) : List String :=
  sortBy textLe (distinct (ids.flatMap fun id => ((versions.find? id).map (·.loaders)).getD []))

namespace Document

/-- The public id of a number in a record. -/
def publicId (n : Int) : Except AssemblyError String :=
  (Base62.encode n).mapError .id

/-- The public ids of numbers in a record. -/
def publicIds : List Int → Except AssemblyError (List String)
  | [] => .ok []
  | n :: rest => do return (← publicId n) :: (← publicIds rest)

/-- The public id of a number that may be missing. -/
def publicId? : Option Int → Except AssemblyError (Option String)
  | none => .ok none
  | some n => do return some (← publicId n)

/-- The merged fields with the sides of the version in place of any fields of those names. -/
def withSides (fields : OrderedMap String (List Json)) (sides : Sides) :
    OrderedMap String (List Json) :=
  (fields.insert "client_side" [.str sides.client.name]).insert
    "server_side" [.str sides.server.name]

/-- The document of a version of a project. -/
def build (registry : License.Registry) (versions : OrderedMap Int Version) (project : Project)
    (version : Version) (owner : String) : Except AssemblyError Document := do
  let views ← (FieldViews.reconcile version.fields).mapError .field
  let sides := Sides.ofFields views.raw (some (mainProjectType version.projectTypes))
  let license := License.primary project.license
  let (gallery, featured) := GalleryImage.split project.galleryItems
  let created := project.approvedAt.getD project.publishedAt
  let versionId ← publicId version.id
  let projectId ← publicId project.id
  let teamId ← publicId project.teamId
  let organizationId ← publicId? project.organizationId
  let threadId ← publicId project.threadId
  let versionIds ← publicIds project.versionIds
  return {
    versionId := versionId
    projectId := projectId
    name := project.name
    summary := project.summary
    categories := Categories.withModpackLoaders
      (Categories.searched project.categories version.loaders project.additionalCategories)
      views.merged
    displayCategories := Categories.displayed project.categories version.loaders
    follows := project.follows
    downloads := project.downloads
    iconUrl := project.iconUrl
    author := owner
    dateCreated := created
    createdTimestamp := created.epochSeconds
    dateModified := project.updatedAt
    modifiedTimestamp := project.updatedAt.epochSeconds
    license := license
    licenseUrl := project.licenseUrl
    openSource := License.isOpenSource registry license
    slug := project.slug
    projectTypes := project.projectTypes
    gallery := gallery
    featuredGallery := featured
    color := project.color
    loaderFields := withSides views.merged sides
    monetizationStatus := some project.monetizationStatus
    teamId := teamId
    organizationId := organizationId
    threadId := threadId
    versions := versionIds
    datePublished := project.publishedAt
    dateQueued := project.queuedAt
    status := project.status
    requestedStatus := project.requestedStatus
    games := project.games
    links := project.links
    galleryItems := project.galleryItems
    loaders := aggregateLoaders project.versionIds versions }

end Document

/-- The documents of the visible versions whose records were loaded, in their order. -/
def assemble (registry : License.Registry) (versions : OrderedMap Int Version)
    (projects : OrderedMap Int Project) :
    List VisibleVersion → Except AssemblyError (List Document)
  | [] => .ok []
  | e :: rest =>
    match projects.find? e.projectId, versions.find? e.versionId with
    | some project, some version => do
      let document ← Document.build registry versions project version e.owner
      return document :: (← assemble registry versions projects rest)
    | _, _ => assemble registry versions projects rest

end CatalogSearch
