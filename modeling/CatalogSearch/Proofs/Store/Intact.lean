import CatalogSearch.Proofs.Data.Sorting
import CatalogSearch.Store.Edit
import Mathlib.Data.List.Nodup

/-!
# Intact stores

No two rows of a table of an intact store agree on a key, and every reference between tables finds
its row. Writing keeps the keys of all tables apart but does not look after references.
-/

namespace CatalogSearch.Store

/-- What rows refer to is there; a row may refer to nothing. -/
def Refers {ρ τ : Type} (rows : List ρ) (reference : ρ → Option Int) (targets : List τ)
    (id : τ → Int) : Prop :=
  ∀ r ∈ rows, ∀ i ∈ reference r, i ∈ targets.map id

instance {ρ τ : Type} (rows : List ρ) (reference : ρ → Option Int) (targets : List τ)
    (id : τ → Int) : Decidable (Refers rows reference targets id) :=
  inferInstanceAs (Decidable (∀ r ∈ rows, ∀ i ∈ reference r, i ∈ targets.map id))

/-- All keys and references of a store hold. -/
structure Intact (s : Store) : Prop where
  keys : ∀ t, keysDiffer (s.rows t) = true
  memberTeam : Refers s.teamMembers (fun m => some m.teamId) s.teams TeamRow.id
  memberUser : Refers s.teamMembers (fun m => some m.userId) s.users UserRow.id
  organizationTeam : Refers s.organizations (fun o => some o.teamId) s.teams TeamRow.id
  projectTeam : Refers s.projects (fun p => some p.teamId) s.teams TeamRow.id
  projectOrganization :
    Refers s.projects ProjectRow.organizationId s.organizations OrganizationRow.id
  categoryProject :
    Refers s.projectCategories (fun c => some c.projectId) s.projects ProjectRow.id
  category : Refers s.projectCategories (fun c => some c.categoryId) s.categories CategoryRow.id
  galleryProject : Refers s.gallery (fun g => some g.projectId) s.projects ProjectRow.id
  linkProject : Refers s.links (fun l => some l.projectId) s.projects ProjectRow.id
  linkPlatform : Refers s.links (fun l => some l.platformId) s.linkPlatforms LinkPlatformRow.id
  versionProject : Refers s.versions (fun v => some v.projectId) s.projects ProjectRow.id
  loaderVersion : Refers s.versionLoaders (fun l => some l.versionId) s.versions VersionRow.id
  versionLoader : Refers s.versionLoaders (fun l => some l.loaderId) s.loaders LoaderRow.id
  typeLoader : Refers s.loaderProjectTypes (fun t => some t.loaderId) s.loaders LoaderRow.id
  loaderType :
    Refers s.loaderProjectTypes (fun t => some t.projectTypeId) s.projectTypes ProjectTypeRow.id
  gameLoader : Refers s.loaderGames (fun g => some g.loaderId) s.loaders LoaderRow.id
  loaderGame : Refers s.loaderGames (fun g => some g.gameId) s.games GameRow.id
  fieldVersion : Refers s.versionFields (fun f => some f.versionId) s.versions VersionRow.id
  field : Refers s.versionFields (fun f => some f.fieldId) s.fields FieldRow.id
  fieldEnumValue : Refers s.versionFields VersionFieldRow.enumValue s.enumValues EnumValueRow.id

variable {ρ : Type} [Row ρ] {rows : List ρ}

theorem nodup_filterMap_keyOf (h : keysDiffer rows = true) {columns : List String}
    (hc : columns ∈ Row.keys ρ) : (rows.filterMap (keyOf columns)).Nodup := by
  have hlen := beq_iff_eq.1 (List.all_eq_true.1 h columns hc)
  rw [← List.map_id (rows.filterMap _)]
  exact nodup_map_of_length_distinctBy hlen

/-- What the cells of a key are made of differs from row to row. -/
theorem nodup_map_of_keysDiffer {κ : Type} {key : ρ → κ} (h : keysDiffer rows = true)
    (columns : List String) (cells : κ → List Cell) (hc : columns ∈ Row.keys ρ)
    (hkey : ∀ r, keyOf columns r = some (cells (key r))) : (rows.map key).Nodup := by
  have hk := nodup_filterMap_keyOf h hc
  rw [show keyOf columns = some ∘ cells ∘ key from funext hkey, List.filterMap_eq_map,
    ← List.map_map] at hk
  exact List.Nodup.of_map _ hk

/-- Where the rows of a table have a number as a key, the numbers differ. -/
theorem nodup_numbers (h : keysDiffer rows = true) (column : String) {number : ρ → Int}
    (hc : [column] ∈ Row.keys ρ) (hn : ∀ r, keyOf [column] r = some [.int (number r)]) :
    (rows.map number).Nodup :=
  nodup_map_of_keysDiffer h [column] (fun n => [.int n]) hc hn

namespace Intact

variable {s : Store}

theorem nodup_organizations (h : s.Intact) : (s.organizations.map OrganizationRow.id).Nodup :=
  nodup_numbers (h.keys .organizations) "id" (by decide) fun _ => rfl

theorem nodup_projects (h : s.Intact) : (s.projects.map ProjectRow.id).Nodup :=
  nodup_numbers (h.keys .projects) "id" (by decide) fun _ => rfl

theorem nodup_versions (h : s.Intact) : (s.versions.map VersionRow.id).Nodup :=
  nodup_numbers (h.keys .versions) "id" (by decide) fun _ => rfl

end Intact

/-! ### An intact store -/

/-- A project with the given ids, status and, if any, organization. -/
def sampleProject (id teamId : Int) (organizationId : Option Int) (status : String) :
    ProjectRow where
  id := id
  name := "Lanterns"
  summary := "Light for caves."
  slug := none
  license := "MIT"
  licenseUrl := none
  iconUrl := none
  color := none
  teamId := teamId
  organizationId := organizationId
  threadId := 1
  status := status
  requestedStatus := none
  follows := 3
  downloads := 40
  approved := some .epoch
  published := .epoch
  updated := .epoch
  queued := none
  monetizationStatus := "monetized"

/-- A store with a project of two owners, one of an organization, whose own team has no accepted
owner, and a draft. -/
def sample : Store where
  users := [⟨1, "bea"⟩, ⟨2, "ann"⟩, ⟨3, "cy"⟩]
  teams := [⟨10⟩, ⟨11⟩, ⟨12⟩]
  teamMembers := [⟨1, 10, 1, true, true⟩, ⟨2, 10, 2, true, true⟩, ⟨3, 11, 3, true, true⟩,
    ⟨4, 12, 1, true, false⟩]
  organizations := [⟨5, "guild", "Guild", 11⟩]
  projects := [sampleProject 100 10 none "approved", sampleProject 101 12 (some 5) "archived",
    sampleProject 102 10 none "draft"]
  categories := [⟨1, "utility"⟩]
  projectCategories := [⟨100, 1, false⟩]
  gallery := [⟨1, 100, "lamp.png", true, none, none, .epoch, 0⟩]
  linkPlatforms := [⟨1, "source"⟩]
  links := [⟨100, 1, "git.example.org"⟩]
  versions := [⟨7, 100, "One", "1.0", "listed", .epoch⟩, ⟨8, 100, "Two", "1.1", "draft", .epoch⟩,
    ⟨9, 101, "One", "1.0", "custom", .epoch⟩, ⟨10, 102, "One", "1.0", "listed", .epoch⟩,
    ⟨11, 100, "Three", "1.2", "listed", .epoch⟩]
  loaders := [⟨1, "fabric"⟩]
  versionLoaders := [⟨1, 7⟩, ⟨1, 9⟩]
  projectTypes := [⟨1, "mod"⟩]
  loaderProjectTypes := [⟨1, 1⟩]
  games := [⟨1, "minecraft-java"⟩]
  loaderGames := [⟨1, 1⟩]
  fields := [⟨1, "game_versions", "array_enum", some 1⟩]
  enumValues := [⟨1, 1, "1.20", none⟩]
  versionFields := [⟨1, 7, 1, none, none, some 1⟩]

theorem intact_sample : sample.Intact where
  keys t := by cases t <;> decide
  memberTeam := by decide
  memberUser := by decide
  organizationTeam := by decide
  projectTeam := by decide
  projectOrganization := by decide
  categoryProject := by decide
  category := by decide
  galleryProject := by decide
  linkProject := by decide
  linkPlatform := by decide
  versionProject := by decide
  loaderVersion := by decide
  versionLoader := by decide
  typeLoader := by decide
  loaderType := by decide
  gameLoader := by decide
  loaderGame := by decide
  fieldVersion := by decide
  field := by decide
  fieldEnumValue := by decide

end CatalogSearch.Store
