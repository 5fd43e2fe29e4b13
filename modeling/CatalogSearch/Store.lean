import CatalogSearch.Store.Rows

/-!
# The store

The rows of twenty tables, each in the order in which they were written.
-/

namespace CatalogSearch

/-- The rows of all tables. -/
structure Store where
  users : List Store.UserRow
  teams : List Store.TeamRow
  teamMembers : List Store.TeamMemberRow
  organizations : List Store.OrganizationRow
  projects : List Store.ProjectRow
  categories : List Store.CategoryRow
  projectCategories : List Store.ProjectCategoryRow
  gallery : List Store.GalleryRow
  linkPlatforms : List Store.LinkPlatformRow
  links : List Store.LinkRow
  versions : List Store.VersionRow
  loaders : List Store.LoaderRow
  versionLoaders : List Store.VersionLoaderRow
  projectTypes : List Store.ProjectTypeRow
  loaderProjectTypes : List Store.LoaderProjectTypeRow
  games : List Store.GameRow
  loaderGames : List Store.LoaderGameRow
  fields : List Store.FieldRow
  enumValues : List Store.EnumValueRow
  versionFields : List Store.VersionFieldRow
deriving DecidableEq

namespace Store

/-- The store without rows. -/
def empty : Store :=
  ⟨[], [], [], [], [], [], [], [], [], [], [], [], [], [], [], [], [], [], [], []⟩

instance : Inhabited Store := ⟨empty⟩

/-- The tables. -/
inductive Table where
  | users
  | teams
  | teamMembers
  | organizations
  | projects
  | categories
  | projectCategories
  | gallery
  | linkPlatforms
  | links
  | versions
  | loaders
  | versionLoaders
  | projectTypes
  | loaderProjectTypes
  | games
  | loaderGames
  | fields
  | enumValues
  | versionFields
deriving DecidableEq

namespace Table

/-- All tables. -/
def all : List Table := [
  .users, .teams, .teamMembers, .organizations, .projects, .categories, .projectCategories,
  .gallery, .linkPlatforms, .links, .versions, .loaders, .versionLoaders, .projectTypes,
  .loaderProjectTypes, .games, .loaderGames, .fields, .enumValues, .versionFields]

/-- The name of a table. -/
def name : Table → String
  | .users => "users"
  | .teams => "teams"
  | .teamMembers => "team_members"
  | .organizations => "organizations"
  | .projects => "mods"
  | .categories => "categories"
  | .projectCategories => "mods_categories"
  | .gallery => "mods_gallery"
  | .linkPlatforms => "link_platforms"
  | .links => "mods_links"
  | .versions => "versions"
  | .loaders => "loaders"
  | .versionLoaders => "loaders_versions"
  | .projectTypes => "project_types"
  | .loaderProjectTypes => "loaders_project_types"
  | .games => "games"
  | .loaderGames => "loaders_games"
  | .fields => "loader_fields"
  | .enumValues => "loader_field_enum_values"
  | .versionFields => "version_fields"

/-- The table of a name. -/
def ofName? (s : String) : Option Table := all.find? (fun t => t.name == s)

/-- The kind of row that a table holds. -/
abbrev Rows : Table → Type
  | .users => UserRow
  | .teams => TeamRow
  | .teamMembers => TeamMemberRow
  | .organizations => OrganizationRow
  | .projects => ProjectRow
  | .categories => CategoryRow
  | .projectCategories => ProjectCategoryRow
  | .gallery => GalleryRow
  | .linkPlatforms => LinkPlatformRow
  | .links => LinkRow
  | .versions => VersionRow
  | .loaders => LoaderRow
  | .versionLoaders => VersionLoaderRow
  | .projectTypes => ProjectTypeRow
  | .loaderProjectTypes => LoaderProjectTypeRow
  | .games => GameRow
  | .loaderGames => LoaderGameRow
  | .fields => FieldRow
  | .enumValues => EnumValueRow
  | .versionFields => VersionFieldRow

instance (t : Table) : Row t.Rows :=
  match t with
  | .users => inferInstanceAs (Row (Rows .users))
  | .teams => inferInstanceAs (Row (Rows .teams))
  | .teamMembers => inferInstanceAs (Row (Rows .teamMembers))
  | .organizations => inferInstanceAs (Row (Rows .organizations))
  | .projects => inferInstanceAs (Row (Rows .projects))
  | .categories => inferInstanceAs (Row (Rows .categories))
  | .projectCategories => inferInstanceAs (Row (Rows .projectCategories))
  | .gallery => inferInstanceAs (Row (Rows .gallery))
  | .linkPlatforms => inferInstanceAs (Row (Rows .linkPlatforms))
  | .links => inferInstanceAs (Row (Rows .links))
  | .versions => inferInstanceAs (Row (Rows .versions))
  | .loaders => inferInstanceAs (Row (Rows .loaders))
  | .versionLoaders => inferInstanceAs (Row (Rows .versionLoaders))
  | .projectTypes => inferInstanceAs (Row (Rows .projectTypes))
  | .loaderProjectTypes => inferInstanceAs (Row (Rows .loaderProjectTypes))
  | .games => inferInstanceAs (Row (Rows .games))
  | .loaderGames => inferInstanceAs (Row (Rows .loaderGames))
  | .fields => inferInstanceAs (Row (Rows .fields))
  | .enumValues => inferInstanceAs (Row (Rows .enumValues))
  | .versionFields => inferInstanceAs (Row (Rows .versionFields))

end Table

/-- The rows of a table. -/
def rows (s : Store) : (t : Table) → List t.Rows
  | .users => s.users
  | .teams => s.teams
  | .teamMembers => s.teamMembers
  | .organizations => s.organizations
  | .projects => s.projects
  | .categories => s.categories
  | .projectCategories => s.projectCategories
  | .gallery => s.gallery
  | .linkPlatforms => s.linkPlatforms
  | .links => s.links
  | .versions => s.versions
  | .loaders => s.loaders
  | .versionLoaders => s.versionLoaders
  | .projectTypes => s.projectTypes
  | .loaderProjectTypes => s.loaderProjectTypes
  | .games => s.games
  | .loaderGames => s.loaderGames
  | .fields => s.fields
  | .enumValues => s.enumValues
  | .versionFields => s.versionFields

/-- The store with the rows of a table replaced. -/
def setRows (s : Store) : (t : Table) → List t.Rows → Store
  | .users, rows => { s with users := rows }
  | .teams, rows => { s with teams := rows }
  | .teamMembers, rows => { s with teamMembers := rows }
  | .organizations, rows => { s with organizations := rows }
  | .projects, rows => { s with projects := rows }
  | .categories, rows => { s with categories := rows }
  | .projectCategories, rows => { s with projectCategories := rows }
  | .gallery, rows => { s with gallery := rows }
  | .linkPlatforms, rows => { s with linkPlatforms := rows }
  | .links, rows => { s with links := rows }
  | .versions, rows => { s with versions := rows }
  | .loaders, rows => { s with loaders := rows }
  | .versionLoaders, rows => { s with versionLoaders := rows }
  | .projectTypes, rows => { s with projectTypes := rows }
  | .loaderProjectTypes, rows => { s with loaderProjectTypes := rows }
  | .games, rows => { s with games := rows }
  | .loaderGames, rows => { s with loaderGames := rows }
  | .fields, rows => { s with fields := rows }
  | .enumValues, rows => { s with enumValues := rows }
  | .versionFields, rows => { s with versionFields := rows }

end Store

end CatalogSearch
