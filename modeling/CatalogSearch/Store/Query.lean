import CatalogSearch.Store
import CatalogSearch.Visibility

/-!
# Queries

The queries that indexing asks the store, and their answers. A query is a nested loop over the
tables it joins; its answer is in a fixed order, where an absent value comes before any other.
-/

namespace CatalogSearch.Store

/-- A category of a project. -/
structure CategoryOf where
  projectId : Int
  name : String
  isAdditional : Bool
deriving DecidableEq

/-- A link of a project. -/
structure LinkOf where
  projectId : Int
  platform : String
  url : String
deriving DecidableEq

/-- A name that belongs to a project or a version. -/
structure NameOf where
  ownerId : Int
  name : String
deriving DecidableEq

/-- A value of a loader field of a version, with the text of its enumeration value. -/
structure FieldValue where
  versionId : Int
  fieldId : Int
  rowId : Int
  fieldName : String
  fieldType : String
  intValue : Option Int
  textValue : Option String
  enumValue : Option String
deriving DecidableEq

/-- A query. All but the first ask for what belongs to certain projects or versions. -/
inductive Query where
  | visible
  | projects (ids : List Int)
  | categories (projectIds : List Int)
  | versionIds (projectIds : List Int)
  | gallery (projectIds : List Int)
  | links (projectIds : List Int)
  | projectTypes (projectIds : List Int)
  | games (projectIds : List Int)
  | versions (ids : List Int)
  | loaders (versionIds : List Int)
  | versionProjectTypes (versionIds : List Int)
  | fieldValues (versionIds : List Int)
deriving DecidableEq

/-- The answer to a query. -/
abbrev Query.Answer : Query → Type
  | .visible => List OwnerRow
  | .projects _ => List ProjectRow
  | .categories _ => List CategoryOf
  | .versionIds _ => List VersionRow
  | .gallery _ => List GalleryRow
  | .links _ => List LinkOf
  | .projectTypes _ => List NameOf
  | .games _ => List NameOf
  | .versions _ => List VersionRow
  | .loaders _ => List NameOf
  | .versionProjectTypes _ => List NameOf
  | .fieldValues _ => List FieldValue

/-- The matches of an outer join: a single missing one if there is none. -/
def orMissing {α : Type} (l : List α) : List (Option α) := if l.isEmpty then [none] else l.map some

variable (s : Store)

/-- The names of the accepted owners of a team, each of them missing if the user is not there; one
missing name if the team has no owner. -/
def ownerNames (teamId : Int) : List (Option String) :=
  let owners := s.teamMembers.filter fun m => m.teamId = teamId && m.isOwner && m.accepted
  (orMissing owners).flatMap fun
    | some m => (orMissing (s.users.filter (·.id = m.userId))).map (Option.map (·.name))
    | none => [none]

/-- The names of the accepted owners of the team of a project's organization. -/
def organizationOwnerNames (p : ProjectRow) : List (Option String) :=
  (orMissing (s.organizations.filter fun o => some o.id = p.organizationId)).flatMap fun
    | some o => s.ownerNames o.teamId
    | none => [none]

/-- The rows of a version of a project, one for each pair of owners. -/
def ownerRows (v : VersionRow) (p : ProjectRow) : List OwnerRow :=
  (s.ownerNames p.teamId).flatMap fun teamOwner =>
    (s.organizationOwnerNames p).map fun organizationOwner =>
      ⟨v.id, p.id, teamOwner, organizationOwner⟩

/-- The order of owner rows: projects and versions from the latest to the first, then owners by
name. -/
def ownerRowLe : OwnerRow → OwnerRow → Bool :=
  lexLe (byKey OwnerRow.projectId (descending intLe)) <|
  lexLe (byKey OwnerRow.versionId (descending intLe)) <|
  lexLe (byKey OwnerRow.teamOwner (absentFirst textLe)) <|
  byKey OwnerRow.organizationOwner (absentFirst textLe)

/-- Whether a version is not hidden. -/
def VersionRow.isListed (v : VersionRow) : Bool := !VersionStatus.hidden.contains v.status

/-- Whether a project may appear in search. -/
def ProjectRow.isSearchable (p : ProjectRow) : Bool := ProjectStatus.searchable.contains p.status

/-- The visible versions with the owners of their projects. -/
def visibleRows : List OwnerRow :=
  sortBy ownerRowLe <| distinct <|
    (s.versions.filter VersionRow.isListed).flatMap fun v =>
      (s.projects.filter fun p => p.id = v.projectId && p.isSearchable).flatMap (s.ownerRows v)

/-- The order of named things: by whom they belong to, then by name. -/
def nameLe : NameOf → NameOf → Bool :=
  lexLe (byKey NameOf.ownerId intLe) (byKey NameOf.name textLe)

/-- The projects of the ids, by id. -/
def projectsOf (ids : List Int) : List ProjectRow :=
  sortBy (byKey ProjectRow.id intLe) (s.projects.filter (ids.contains ·.id))

/-- The categories of projects, by name. -/
def categoriesOf (ids : List Int) : List CategoryOf :=
  sortBy (lexLe (byKey CategoryOf.projectId intLe) (byKey CategoryOf.name textLe)) <|
    (s.projectCategories.filter (ids.contains ·.projectId)).flatMap fun pc =>
      (s.categories.filter (·.id = pc.categoryId)).map fun c =>
        ⟨pc.projectId, c.name, pc.isAdditional⟩

/-- All versions of projects, the oldest first. -/
def versionsOfProjects (ids : List Int) : List VersionRow :=
  sortBy (lexLe (byKey VersionRow.projectId intLe) <|
      lexLe (byKey VersionRow.published Moment.wallLe) (byKey VersionRow.id intLe)) <|
    s.versions.filter (ids.contains ·.projectId)

/-- The images of projects, in their places. -/
def galleryOf (ids : List Int) : List GalleryRow :=
  sortBy (lexLe (byKey GalleryRow.projectId intLe) <|
      lexLe (byKey GalleryRow.ordering intLe) (byKey GalleryRow.id intLe)) <|
    s.gallery.filter (ids.contains ·.projectId)

/-- The links of projects, by platform. -/
def linksOf (ids : List Int) : List LinkOf :=
  sortBy (lexLe (byKey LinkOf.projectId intLe) (byKey LinkOf.platform textLe)) <|
    (s.links.filter (ids.contains ·.projectId)).flatMap fun l =>
      (s.linkPlatforms.filter (·.id = l.platformId)).map fun p => ⟨l.projectId, p.name, l.url⟩

/-- The names of the project types that a loader makes versions fit for. -/
def projectTypeNames (loaderId : Int) : List String :=
  (s.loaderProjectTypes.filter (·.loaderId = loaderId)).flatMap fun lt =>
    (s.projectTypes.filter (·.id = lt.projectTypeId)).map (·.name)

/-- The names of the games of a loader. -/
def gameNames (loaderId : Int) : List String :=
  (s.loaderGames.filter (·.loaderId = loaderId)).flatMap fun lg =>
    (s.games.filter (·.id = lg.gameId)).map (·.slug)

/-- The ids of the loaders of a version. -/
def loaderIds (versionId : Int) : List Int :=
  (s.versionLoaders.filter (·.versionId = versionId)).map (·.loaderId)

/-- Names that the loaders of all versions of projects give to them, each once. -/
def namesOfProjects (names : Int → List String) (ids : List Int) : List NameOf :=
  sortBy nameLe <| distinct <|
    (s.versions.filter (ids.contains ·.projectId)).flatMap fun v =>
      (s.loaderIds v.id).flatMap fun l => (names l).map (⟨v.projectId, ·⟩)

/-- The versions of the ids, by id. -/
def versionsOf (ids : List Int) : List VersionRow :=
  sortBy (byKey VersionRow.id intLe) (s.versions.filter (ids.contains ·.id))

/-- The loaders of versions, by name. -/
def loadersOf (ids : List Int) : List NameOf :=
  sortBy nameLe <|
    (s.versionLoaders.filter (ids.contains ·.versionId)).flatMap fun vl =>
      (s.loaders.filter (·.id = vl.loaderId)).map fun l => ⟨vl.versionId, l.name⟩

/-- The project types of versions, each once and by name. -/
def projectTypesOfVersions (ids : List Int) : List NameOf :=
  sortBy nameLe <| distinct <|
    (s.versionLoaders.filter (ids.contains ·.versionId)).flatMap fun vl =>
      (s.projectTypeNames vl.loaderId).map (⟨vl.versionId, ·⟩)

/-- The values of the loader fields of versions, by field and then in the order of their rows. -/
def fieldValuesOf (ids : List Int) : List FieldValue :=
  sortBy (lexLe (byKey FieldValue.versionId intLe) <|
      lexLe (byKey FieldValue.fieldId intLe) (byKey FieldValue.rowId intLe)) <|
    (s.versionFields.filter (ids.contains ·.versionId)).flatMap fun vf =>
      (s.fields.filter (·.id = vf.fieldId)).flatMap fun f =>
        (orMissing (s.enumValues.filter fun e => some e.id = vf.enumValue)).map fun e =>
          ⟨vf.versionId, vf.fieldId, vf.id, f.name, f.type, vf.intValue, vf.textValue,
            e.map (·.value)⟩

/-- The answer of the store to a query. -/
def answer : (q : Query) → q.Answer
  | .visible => s.visibleRows
  | .projects ids => s.projectsOf ids
  | .categories ids => s.categoriesOf ids
  | .versionIds ids => s.versionsOfProjects ids
  | .gallery ids => s.galleryOf ids
  | .links ids => s.linksOf ids
  | .projectTypes ids => s.namesOfProjects s.projectTypeNames ids
  | .games ids => s.namesOfProjects s.gameNames ids
  | .versions ids => s.versionsOf ids
  | .loaders ids => s.loadersOf ids
  | .versionProjectTypes ids => s.projectTypesOfVersions ids
  | .fieldValues ids => s.fieldValuesOf ids

end CatalogSearch.Store
