import CatalogSearch.Document.Assembly
import Mathlib.Data.List.Forall2

/-!
# Assembly by ids

Assembly depends on records by their ids alone (`assemble_congr`), and where both records of each
visible version are there it makes one document of each, in their order (`assemble_eq_ok`).
-/

namespace CatalogSearch

theorem bind_eq_ok {ε α β : Type} {x : Except ε α} {f : α → Except ε β} {b : β} :
    x >>= f = .ok b ↔ ∃ a, x = .ok a ∧ f a = .ok b := by
  cases x with
  | error e => exact ⟨nofun, fun ⟨_, h, _⟩ => nomatch h⟩
  | ok a => exact ⟨fun h => ⟨a, rfl, h⟩, fun ⟨_, h, hb⟩ => by cases h; exact hb⟩

theorem mapError_eq_ok {ε ε' α : Type} {x : Except ε α} {f : ε → ε'} {a : α} :
    x.mapError f = .ok a ↔ x = .ok a := by
  cases x with
  | error e => exact ⟨nofun, nofun⟩
  | ok b => exact ⟨fun h => by cases h; rfl, fun h => by cases h; rfl⟩

theorem exists_of_toOption_map {ε α β : Type} {x : Except ε α} {f : α → β} {b : β}
    (h : (x.map f).toOption = some b) : ∃ a, x = .ok a ∧ f a = b := by
  cases x with
  | error e => cases h
  | ok a => exact ⟨a, rfl, Option.some.inj h⟩

/-- A registry that knows one license. -/
def License.Registry.sample : License.Registry := fun id => if id = "MIT" then some true else none

variable {registry : License.Registry} {versions versions' : OrderedMap Int Version}
  {projects projects' : OrderedMap Int Project}

namespace Document

/-- What a document is built from: its records and the views of the fields of its version. -/
structure BuiltFrom (versions : OrderedMap Int Version) (project : Project) (version : Version)
    (owner : String) (views : FieldViews) (d : Document) : Prop where
  reconciled : FieldViews.reconcile version.fields = .ok views
  versionId : publicId version.id = .ok d.versionId
  projectId : publicId project.id = .ok d.projectId
  versionIds : publicIds project.versionIds = .ok d.versions
  author : d.author = owner
  status : d.status = project.status
  displayCategories :
    d.displayCategories = Categories.displayed project.categories version.loaders
  categories : d.categories = Categories.withModpackLoaders
    (Categories.searched project.categories version.loaders project.additionalCategories)
    views.merged
  loaderFields : d.loaderFields = withSides views.merged
    (Sides.ofFields views.raw (some (mainProjectType version.projectTypes)))
  loaders : d.loaders = aggregateLoaders project.versionIds versions

theorem exists_builtFrom {project : Project} {version : Version} {owner : String} {d : Document}
    (h : build registry versions project version owner = .ok d) :
    ∃ views, d.BuiltFrom versions project version owner views := by
  rw [build] at h
  obtain ⟨views, hviews, h⟩ := bind_eq_ok.1 h
  obtain ⟨versionId, hversion, h⟩ := bind_eq_ok.1 h
  obtain ⟨projectId, hproject, h⟩ := bind_eq_ok.1 h
  obtain ⟨teamId, -, h⟩ := bind_eq_ok.1 h
  obtain ⟨organizationId, -, h⟩ := bind_eq_ok.1 h
  obtain ⟨threadId, -, h⟩ := bind_eq_ok.1 h
  obtain ⟨versionIds, hversions, h⟩ := bind_eq_ok.1 h
  cases h
  exact ⟨views, mapError_eq_ok.1 hviews, hversion, hproject, hversions, rfl, rfl, rfl, rfl, rfl,
    rfl⟩

/-- What a document takes from its records as it is. -/
structure MadeOf (project : Project) (version : Version) (owner : String) (d : Document) :
    Prop where
  versionId : Base62.encode version.id = .ok d.versionId
  projectId : Base62.encode project.id = .ok d.projectId
  author : d.author = owner
  status : d.status = project.status

theorem madeOf_of_build {project : Project} {version : Version} {owner : String} {d : Document}
    (h : build registry versions project version owner = .ok d) :
    d.MadeOf project version owner := by
  obtain ⟨views, hd⟩ := exists_builtFrom h
  exact ⟨mapError_eq_ok.1 hd.versionId, mapError_eq_ok.1 hd.projectId, hd.author, hd.status⟩

/-- Documents of one project differ in what comes from their own versions only. -/
theorem build_agree {project : Project} {version version' : Version} {owner : String}
    {d d' : Document} (h : build registry versions project version owner = .ok d)
    (h' : build registry versions project version' owner = .ok d') :
    d' = { d with
      versionId := d'.versionId
      categories := d'.categories
      displayCategories := d'.displayCategories
      loaderFields := d'.loaderFields } := by
  rw [build] at h h'
  obtain ⟨views, -, h⟩ := bind_eq_ok.1 h
  obtain ⟨versionId, -, h⟩ := bind_eq_ok.1 h
  obtain ⟨projectId, hproject, h⟩ := bind_eq_ok.1 h
  obtain ⟨teamId, hteam, h⟩ := bind_eq_ok.1 h
  obtain ⟨organizationId, horganization, h⟩ := bind_eq_ok.1 h
  obtain ⟨threadId, hthread, h⟩ := bind_eq_ok.1 h
  obtain ⟨versionIds, hversions, h⟩ := bind_eq_ok.1 h
  obtain ⟨views', -, h'⟩ := bind_eq_ok.1 h'
  obtain ⟨versionId', -, h'⟩ := bind_eq_ok.1 h'
  rw [hproject, hteam, horganization, hthread, hversions] at h'
  cases h
  cases h'
  rfl

/-- Of the other versions only those of the project count. -/
theorem build_congr {project : Project}
    (h : ∀ id ∈ project.versionIds, versions.find? id = versions'.find? id) (version : Version)
    (owner : String) :
    build registry versions project version owner =
      build registry versions' project version owner := by
  have hloaders : aggregateLoaders project.versionIds versions =
      aggregateLoaders project.versionIds versions' := by
    refine congrArg (fun l : List (List String) => sortBy textLe (distinct l.flatten)) ?_
    exact List.map_congr_left fun id hid => by rw [h id hid]
  simp only [build, hloaders]

/-- A document takes the project types and the games of its project as they are. -/
theorem build_withLoaderNames {project : Project} {version : Version} {owner : String}
    {d : Document} (h : build registry versions project version owner = .ok d)
    (projectTypes games : List String) :
    build registry versions { project with projectTypes := projectTypes, games := games } version
      owner = .ok { d with projectTypes := projectTypes, games := games } := by
  rw [build] at h ⊢
  obtain ⟨views, hviews, h⟩ := bind_eq_ok.1 h
  obtain ⟨versionId, hversion, h⟩ := bind_eq_ok.1 h
  obtain ⟨projectId, hproject, h⟩ := bind_eq_ok.1 h
  obtain ⟨teamId, hteam, h⟩ := bind_eq_ok.1 h
  obtain ⟨organizationId, horganization, h⟩ := bind_eq_ok.1 h
  obtain ⟨threadId, hthread, h⟩ := bind_eq_ok.1 h
  obtain ⟨versionIds, hversions, h⟩ := bind_eq_ok.1 h
  cases h
  rw [hviews, hversion, hproject, hteam, horganization, hthread, hversions]
  rfl

end Document

theorem assemble_congr (hv : ∀ id, versions.find? id = versions'.find? id)
    (hp : ∀ id, projects.find? id = projects'.find? id) (visible : List VisibleVersion) :
    assemble registry versions projects visible =
      assemble registry versions' projects' visible := by
  induction visible with
  | nil => rfl
  | cons e rest ih => simp only [assemble, hv, hp, ih, Document.build_congr fun id _ => hv id]

/-- Every document is that of a visible version with its records. -/
theorem exists_build_of_mem {visible : List VisibleVersion} {documents : List Document}
    (h : assemble registry versions projects visible = .ok documents) {d : Document}
    (hd : d ∈ documents) :
    ∃ e ∈ visible, ∃ project version, projects.find? e.projectId = some project ∧
      versions.find? e.versionId = some version ∧
        Document.build registry versions project version e.owner = .ok d := by
  induction visible generalizing documents with
  | nil => cases h; cases hd
  | cons e rest ih =>
    rw [assemble] at h
    split at h
    · next project version hproject hversion =>
      obtain ⟨d', hd', h⟩ := bind_eq_ok.1 h
      obtain ⟨ds, hds, h⟩ := bind_eq_ok.1 h
      cases h
      rcases List.mem_cons.1 hd with rfl | hd
      · exact ⟨e, List.mem_cons_self, project, version, hproject, hversion, hd'⟩
      · obtain ⟨e', he', hbuilt⟩ := ih hds hd
        exact ⟨e', List.mem_cons_of_mem _ he', hbuilt⟩
    · obtain ⟨e', he', hbuilt⟩ := ih h hd
      exact ⟨e', List.mem_cons_of_mem _ he', hbuilt⟩

/-- Both records of a visible version are there. -/
def HasRecords (versions : OrderedMap Int Version) (projects : OrderedMap Int Project)
    (e : VisibleVersion) : Prop :=
  (projects.find? e.projectId).isSome ∧ (versions.find? e.versionId).isSome

/-- No visible version whose records are there is skipped. -/
theorem assemble_eq_ok {visible : List VisibleVersion} {documents : List Document}
    (hrecords : ∀ e ∈ visible, HasRecords versions projects e)
    (h : assemble registry versions projects visible = .ok documents) :
    List.Forall₂ (fun e d => ∃ project version, projects.find? e.projectId = some project ∧
      versions.find? e.versionId = some version ∧ Document.MadeOf project version e.owner d)
      visible documents := by
  induction visible generalizing documents with
  | nil => cases h; exact .nil
  | cons e rest ih =>
    obtain ⟨⟨hproject, hversion⟩, hrest⟩ := List.forall_mem_cons.1 hrecords
    obtain ⟨project, hproject⟩ := Option.isSome_iff_exists.1 hproject
    obtain ⟨version, hversion⟩ := Option.isSome_iff_exists.1 hversion
    simp only [assemble, hproject, hversion] at h
    obtain ⟨d, hd, h⟩ := bind_eq_ok.1 h
    obtain ⟨ds, hds, h⟩ := bind_eq_ok.1 h
    cases h
    exact .cons ⟨project, version, hproject, hversion, Document.madeOf_of_build hd⟩ (ih hrest hds)

end CatalogSearch
